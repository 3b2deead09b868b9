import Runir.Lib.Distinct
import Runir.Lib.Host

/-!
# Recall — Entity mentions

`entityMentionCandidates` of `src/recall/query/memory-query.ts`: the mentions a query is looked up
by, with `tokenizeText` and `normalizeEntityName` of `src/entities/entity-arbitrator.ts`.

* `names_candidates`: the normalized mentions, proper names first, then phrases, then single words.
* `mentions_distinct_iff`: when no mention is there twice.
-/

namespace Runir.Recall
open List Regex

/-- A host with what the Unicode database says of marks. -/
structure EntityHost extends Host where
  /-- `normalize("NFD")`. -/
  decompose : List Char → List Char
  isMark : Char → Bool

/-- A host that knows ASCII. -/
def EntityHost.ascii : EntityHost := { Host.ascii with decompose := id, isMark := fun _ => false }

/-- `MAX_ENTITY_QUERY_CANDIDATES`. -/
def maxEntityQueryCandidates : Nat := 16

/-- `MAX_ENTITY_MENTION_TOKENS`. -/
def maxEntityMentionTokens : Nat := 4

def bm25Stopwords : List String :=
  [ "a", "an", "and", "are", "as", "at", "be", "but", "by", "do", "for", "from", "how", "i", "if",
    "in", "into", "is", "it", "its", "let", "me", "my", "of", "on", "or", "our", "should", "that",
    "the", "their", "them", "there", "these", "they", "this", "those", "to", "up", "us", "was", "we",
    "what", "when", "where", "which", "who", "why", "will", "with", "you", "your" ]

/-- A mention, and the name it is looked up by. -/
structure MentionCandidate where
  mention : String
  normalized : String
  deriving DecidableEq

section
variable (host : EntityHost)

/-- `/[\p{L}\p{N}_]+/gu`. -/
def wordPattern : Regex :=
  plus (.cls fun c => host.unicode.isL c || host.unicode.isN c || c == '_')

def tokenizeText (text : String) : List String :=
  Text.matches' (wordPattern host) (host.unicode.toLowerCase text)

def normalizeEntityName (name : String) : String :=
  let bare := (host.decompose name.toList).filter fun c => !host.isMark c
  let lower := host.unicode.toLowerCase (String.ofList bare)
  let kept := lower.toList.filter fun c =>
    host.unicode.isL c || host.unicode.isN c || Text.isSpace c || c == '-'
  Text.trim (Text.collapse (String.ofList kept))

/-- A word as the query writes it that starts like a name, and is neither a stop word nor filler. -/
def looksProper (entityFillerWords : List String) (token : String) : Bool :=
  token.toList.head?.any host.unicode.isLu &&
    !bm25Stopwords.contains (normalizeEntityName host token) &&
    !entityFillerWords.contains (normalizeEntityName host token)

/-- Long enough to be looked up by. -/
def isLongName (normalized : String) : Bool := decide (3 ≤ Text.length normalized)

def originalTokens (queryText : String) : List String :=
  Text.matches' (wordPattern host) queryText

/-- The phrases of `size` tokens that neither start nor end with filler. -/
def ngramsOf (entityFillerWords tokens : List String) (size : Nat) : List String :=
  (range (tokens.length + 1 - size)).filterMap fun start =>
    let ngramTokens := (tokens.drop start).take size
    if entityFillerWords.contains (ngramTokens.head?.getD "") ||
        entityFillerWords.contains (ngramTokens.getLast?.getD "") then none
    else some (Text.join " " ngramTokens)

variable (entityFillerWords : List String) (queryText : String)

/-- The phrases, longest first. -/
def ngrams : List String :=
  let tokens := (tokenizeText host queryText).filter fun token => !bm25Stopwords.contains token
  let sizes := (range (min maxEntityMentionTokens tokens.length)).reverse.map (· + 1)
  sizes.flatMap (ngramsOf entityFillerWords tokens)

/-- What is added as a candidate, in order: the query, its names, and its phrases. -/
def mentionsTried : List String :=
  queryText ::
    ((originalTokens host queryText).filter fun token =>
      looksProper host entityFillerWords token && isLongName (normalizeEntityName host token)) ++
    ngrams host entityFillerWords queryText

/-- What `addCandidate` makes of them. -/
def mentionCandidates : List MentionCandidate :=
  distinctOn MentionCandidate.normalized
    (((mentionsTried host entityFillerWords queryText).map fun mention =>
      ⟨mention, normalizeEntityName host mention⟩).filter fun c => isLongName c.normalized)

/-- Several words. -/
def isPhrase (normalized : String) : Bool := Text.includes normalized " "

/-- `split(" ").length === 2`. -/
def isBigram (normalized : String) : Bool :=
  decide ((Text.splitOn normalized ' ').length = 2)

/-- The name of a word that looks proper. -/
def isProperName (normalized : String) : Bool :=
  (originalTokens host queryText).any fun token =>
    decide (normalizeEntityName host token = normalized) && looksProper host entityFillerWords token

/-- `slice(-4)`. -/
def lastFour {α : Type*} (xs : List α) : List α := xs.drop (xs.length - 4)

def uniquePrioritized : List MentionCandidate :=
  let candidates := mentionCandidates host entityFillerWords queryText
  let multiToken := candidates.filter fun c => isPhrase c.normalized
  let singleToken := candidates.filter fun c => !isPhrase c.normalized
  let tailBigrams := lastFour (multiToken.filter fun c => isBigram c.normalized)
  let properNameSingles :=
    singleToken.filter fun c => isProperName host entityFillerWords queryText c.normalized
  distinctOn MentionCandidate.normalized
    (properNameSingles ++ tailBigrams ++ multiToken.take maxEntityQueryCandidates)

def entityMentionCandidates : List MentionCandidate :=
  let singleToken :=
    (mentionCandidates host entityFillerWords queryText).filter fun c => !isPhrase c.normalized
  let prioritized := uniquePrioritized host entityFillerWords queryText
  prioritized.take maxEntityQueryCandidates ++
    singleToken.take (maxEntityQueryCandidates - prioritized.length)

end

/-! ### Lists in priority order -/

section
variable {α : Type*} [DecidableEq α] {words phrases front : List α} {proper : α → Bool} {k : Nat}

/-- What is put in front: the proper words, some phrases, and the first phrases. -/
def prioritizedOf (words phrases front : List α) (proper : α → Bool) (k : Nat) : List α :=
  distinct (words.filter proper ++ front ++ phrases.take k)

theorem mem_prioritizedOf {x : α} (hfront : front ⊆ phrases)
    (h : x ∈ prioritizedOf words phrases front proper k) :
    (x ∈ words ∧ proper x = true) ∨ x ∈ phrases := by
  rw [prioritizedOf, mem_distinct, mem_append, mem_append, mem_filter] at h
  rcases h with (h | h) | h
  · exact .inl h
  · exact .inr (hfront h)
  · exact .inr (mem_of_mem_take h)

omit [DecidableEq α] in
theorem nodup_proper_append (hwords : words.Nodup) (hphrases : phrases.Nodup)
    (hapart : words.Disjoint phrases) : (words.filter proper ++ phrases).Nodup :=
  (hwords.filter _).append hphrases fun _ hx => hapart (mem_filter.mp hx).1

/-- There are `k` of them exactly where there are `k` proper words and phrases. -/
theorem le_length_prioritizedOf (hwords : words.Nodup) (hphrases : phrases.Nodup)
    (hapart : words.Disjoint phrases) (h : k ≤ (words.filter proper).length + phrases.length) :
    k ≤ (prioritizedOf words phrases front proper k).length := by
  by_cases hmany : k ≤ phrases.length
  · have hsubset : phrases.take k ⊆ prioritizedOf words phrases front proper k := by
      intro x hx
      exact mem_distinct.mpr (mem_append_right _ hx)
    have hle := (subperm_of_subset (hphrases.sublist (take_sublist k _)) hsubset).length_le
    rwa [length_take, Nat.min_eq_left hmany] at hle
  · have htake : phrases.take k = phrases := take_of_length_le (Nat.le_of_not_le hmany)
    have hsubset : words.filter proper ++ phrases ⊆ prioritizedOf words phrases front proper k := by
      intro x hx
      rw [prioritizedOf, mem_distinct, htake]
      rcases mem_append.mp hx with hx | hx
      · exact mem_append_left _ (mem_append_left _ hx)
      · exact mem_append_right _ hx
    have hle := (subperm_of_subset (nodup_proper_append hwords hphrases hapart) hsubset).length_le
    rw [length_append] at hle
    exact h.trans hle

theorem length_prioritizedOf (hwords : words.Nodup) (hphrases : phrases.Nodup)
    (hapart : words.Disjoint phrases) (hfront : front ⊆ phrases)
    (h : (words.filter proper).length + phrases.length < k) :
    (prioritizedOf words phrases front proper k).length =
      (words.filter proper).length + phrases.length := by
  have htake : phrases.take k = phrases :=
    take_of_length_le ((Nat.le_add_left _ _).trans h.le)
  have hmem : ∀ x, x ∈ prioritizedOf words phrases front proper k ↔
      x ∈ words.filter proper ++ phrases := by
    intro x
    rw [prioritizedOf, mem_distinct, htake, mem_append, mem_append, mem_append, or_assoc,
      or_iff_right_of_imp fun hx : x ∈ front => hfront hx]
  have hperm := (perm_ext_iff_of_nodup (nodup_distinct _)
    (nodup_proper_append hwords hphrases hapart)).mpr hmem
  exact hperm.length_eq.trans length_append

/-- What fills up the rest repeats a proper word, or nothing is there twice. -/
theorem nodup_filled_iff (hwords : words.Nodup) (hapart : words.Disjoint phrases)
    (hfront : front ⊆ phrases) :
    ((prioritizedOf words phrases front proper k).take k ++
        words.take (k - (prioritizedOf words phrases front proper k).length)).Nodup ↔
      k ≤ (prioritizedOf words phrases front proper k).length ∨
        ∀ x ∈ words.take (k - (prioritizedOf words phrases front proper k).length),
          proper x = false := by
  have hnodup : (prioritizedOf words phrases front proper k).Nodup := nodup_distinct _
  by_cases hmany : k ≤ (prioritizedOf words phrases front proper k).length
  · rw [Nat.sub_eq_zero_of_le hmany, take_zero, append_nil]
    exact iff_of_true (hnodup.sublist (take_sublist k _)) (.inl hmany)
  · rw [take_of_length_le (Nat.le_of_not_le hmany), or_iff_right hmany]
    constructor
    · intro h x hx
      refine Bool.eq_false_of_not_eq_true fun hproper => ?_
      have hmem : x ∈ prioritizedOf words phrases front proper k := by
        rw [prioritizedOf, mem_distinct]
        exact mem_append_left _ (mem_append_left _ (mem_filter.mpr ⟨mem_of_mem_take hx, hproper⟩))
      exact disjoint_of_nodup_append h hmem hx
    · intro h
      refine hnodup.append (hwords.sublist (take_sublist _ _)) fun x hx hx' => ?_
      rcases mem_prioritizedOf hfront hx with ⟨-, hproper⟩ | hphrase
      · rw [h x hx'] at hproper
        cases hproper
      · exact hapart (mem_of_mem_take hx') hphrase

end

/-! ### Names -/

section
variable (host : EntityHost) (entityFillerWords : List String) (queryText : String)

/-- A name of one word that is long enough. -/
def isWordName (normalized : String) : Bool := isLongName normalized && !isPhrase normalized

/-- A name of several words that is long enough. -/
def isPhraseName (normalized : String) : Bool := isLongName normalized && isPhrase normalized

/-- The names the query is tried by, in order. -/
def namesTried : List String :=
  (mentionsTried host entityFillerWords queryText).map (normalizeEntityName host)

/-- The names of one word, in order. -/
def wordNames : List String := distinct ((namesTried host entityFillerWords queryText).filter isWordName)

/-- The phrases of the query: what it is tried by that has several words. -/
def phraseNames : List String :=
  distinct ((namesTried host entityFillerWords queryText).filter isPhraseName)

/-- The names of the words that look proper. -/
def properNamesTried : List String :=
  (((originalTokens host queryText).filter (looksProper host entityFillerWords)).map
    (normalizeEntityName host)).filter isWordName

/-- The proper names of the query. -/
def properNames : List String := distinct (properNamesTried host entityFillerWords queryText)

theorem map_filter_normalized (p : String → Bool) (cs : List MentionCandidate) :
    (cs.filter fun c => p c.normalized).map MentionCandidate.normalized =
      (cs.map MentionCandidate.normalized).filter p := by
  rw [filter_map]
  rfl

theorem map_lastFour {α β : Type*} (f : α → β) (xs : List α) :
    (lastFour xs).map f = lastFour (xs.map f) := by
  rw [lastFour, lastFour, map_drop, length_map]

theorem names_mentionCandidates :
    (mentionCandidates host entityFillerWords queryText).map MentionCandidate.normalized =
      distinct ((namesTried host entityFillerWords queryText).filter isLongName) := by
  rw [mentionCandidates, map_distinctOn, map_filter_normalized, map_map]
  rfl

theorem names_single :
    ((mentionCandidates host entityFillerWords queryText).filter fun c =>
      !isPhrase c.normalized).map MentionCandidate.normalized =
        wordNames host entityFillerWords queryText := by
  rw [map_filter_normalized fun n => !isPhrase n, names_mentionCandidates, distinct_filter,
    filter_filter, wordNames]
  simp only [Bool.and_comm]
  rfl

theorem names_multi :
    ((mentionCandidates host entityFillerWords queryText).filter fun c =>
      isPhrase c.normalized).map MentionCandidate.normalized =
        phraseNames host entityFillerWords queryText := by
  rw [map_filter_normalized isPhrase, names_mentionCandidates, distinct_filter, filter_filter,
    phraseNames]
  simp only [Bool.and_comm]
  rfl

/-- The last bigrams of the query. -/
def tailBigramNames : List String :=
  lastFour ((phraseNames host entityFillerWords queryText).filter isBigram)

theorem names_uniquePrioritized :
    (uniquePrioritized host entityFillerWords queryText).map MentionCandidate.normalized =
      prioritizedOf (wordNames host entityFillerWords queryText)
        (phraseNames host entityFillerWords queryText)
        (tailBigramNames host entityFillerWords queryText)
        (isProperName host entityFillerWords queryText) maxEntityQueryCandidates := by
  rw [uniquePrioritized, map_distinctOn, map_append, map_append,
    map_filter_normalized (isProperName host entityFillerWords queryText), map_lastFour,
    map_filter_normalized isBigram, map_take, names_single, names_multi]
  rfl

theorem names_candidates :
    (entityMentionCandidates host entityFillerWords queryText).map MentionCandidate.normalized =
      let prioritized := prioritizedOf (wordNames host entityFillerWords queryText)
        (phraseNames host entityFillerWords queryText)
        (tailBigramNames host entityFillerWords queryText)
        (isProperName host entityFillerWords queryText) maxEntityQueryCandidates
      prioritized.take maxEntityQueryCandidates ++
        (wordNames host entityFillerWords queryText).take
          (maxEntityQueryCandidates - prioritized.length) := by
  have hnames := names_uniquePrioritized host entityFillerWords queryText
  have hlength := congrArg length hnames
  rw [length_map] at hlength
  rw [entityMentionCandidates]
  dsimp only
  rw [map_append, map_take, map_take, names_single, hnames, hlength]

/-! ### Proper names -/

variable {host entityFillerWords queryText} {n : String}

theorem mem_wordNames :
    n ∈ wordNames host entityFillerWords queryText ↔
      n ∈ namesTried host entityFillerWords queryText ∧ isWordName n = true := by
  rw [wordNames, mem_distinct, mem_filter]

theorem isProperName_iff :
    isProperName host entityFillerWords queryText n = true ↔
      ∃ token ∈ originalTokens host queryText,
        looksProper host entityFillerWords token = true ∧ normalizeEntityName host token = n := by
  simp only [isProperName, any_eq_true, Bool.and_eq_true, decide_eq_true_eq]
  exact exists_congr fun token => and_congr_right fun _ => and_comm

theorem mem_properNames :
    n ∈ properNames host entityFillerWords queryText ↔
      isProperName host entityFillerWords queryText n = true ∧ isWordName n = true := by
  rw [properNames, mem_distinct, properNamesTried, mem_filter, isProperName_iff, mem_map]
  refine and_congr_left fun _ => exists_congr fun token => ?_
  rw [mem_filter, and_assoc]

/-- The names of one word: the query if it is one, its proper names, and the rest. -/
theorem filter_namesTried :
    (namesTried host entityFillerWords queryText).filter isWordName =
      [normalizeEntityName host queryText].filter isWordName ++
        (properNamesTried host entityFillerWords queryText ++
          ((ngrams host entityFillerWords queryText).map (normalizeEntityName host)).filter
            isWordName) := by
  have hproper : (((originalTokens host queryText).filter fun token =>
        looksProper host entityFillerWords token && isLongName (normalizeEntityName host token)).map
          (normalizeEntityName host)).filter isWordName =
      properNamesTried host entityFillerWords queryText := by
    rw [properNamesTried, filter_map, filter_map, filter_filter, filter_filter]
    refine congrArg _ (filter_congr fun token _ => ?_)
    simp only [Function.comp_apply, isWordName]
    cases isLongName (normalizeEntityName host token) <;> simp [Bool.and_comm]
  rw [namesTried, mentionsTried, map_append, map_cons, ← singleton_append, filter_append,
    filter_append, hproper, append_assoc]

theorem properNames_subset : properNames host entityFillerWords queryText ⊆
    wordNames host entityFillerWords queryText := by
  intro n hn
  rw [properNames, mem_distinct] at hn
  rw [wordNames, mem_distinct, filter_namesTried]
  exact mem_append_right _ (mem_append_left _ hn)

/-- The proper names are the names of one word that are proper. -/
theorem filter_isProperName_perm :
    (wordNames host entityFillerWords queryText).filter
        (isProperName host entityFillerWords queryText) ~
      properNames host entityFillerWords queryText := by
  refine (perm_ext_iff_of_nodup ((nodup_distinct _).filter _) (nodup_distinct _)).mpr fun n => ?_
  rw [mem_filter]
  constructor
  · rintro ⟨hword, hproper⟩
    exact mem_properNames.mpr ⟨hproper, (mem_wordNames.mp hword).2⟩
  · intro hn
    exact ⟨properNames_subset hn, (mem_properNames.mp hn).1⟩

theorem isProperName_of_mem (h : n ∈ properNames host entityFillerWords queryText) :
    isProperName host entityFillerWords queryText n = true := (mem_properNames.mp h).1

/-- The first name of one word is proper, or it is the query and a proper one comes second. -/
theorem wordNames_cases (hne : properNames host entityFillerWords queryText ≠ []) :
    (∃ n names, wordNames host entityFillerWords queryText = n :: names ∧
      isProperName host entityFillerWords queryText n = true ∧
        (isWordName (normalizeEntityName host queryText) = true →
          normalizeEntityName host queryText ∈ properNames host entityFillerWords queryText)) ∨
    ∃ n names, wordNames host entityFillerWords queryText =
        normalizeEntityName host queryText :: n :: names ∧
      isProperName host entityFillerWords queryText n = true ∧
        isWordName (normalizeEntityName host queryText) = true ∧
          normalizeEntityName host queryText ∉ properNames host entityFillerWords queryText := by
  obtain ⟨n, names, htried⟩ : ∃ n names,
      properNamesTried host entityFillerWords queryText = n :: names := by
    cases htried : properNamesTried host entityFillerWords queryText with
    | nil => exact absurd (by rw [properNames, htried]; rfl) hne
    | cons n names => exact ⟨n, names, rfl⟩
  have hn : n ∈ properNames host entityFillerWords queryText := by
    rw [properNames, mem_distinct, htried]
    exact mem_cons_self
  rw [wordNames, filter_namesTried, htried]
  cases hword : isWordName (normalizeEntityName host queryText) with
  | false =>
      rw [filter_cons_of_neg (by simp [hword]), filter_nil, nil_append, cons_append, distinct_cons]
      exact .inl ⟨n, _, rfl, isProperName_of_mem hn, fun h => by cases h⟩
  | true =>
      rw [filter_cons_of_pos hword, filter_nil, singleton_append, cons_append, distinct_cons]
      by_cases hquery : normalizeEntityName host queryText ∈
          properNames host entityFillerWords queryText
      · exact .inl ⟨_, _, rfl, isProperName_of_mem hquery, fun _ => hquery⟩
      · have hother : n ≠ normalizeEntityName host queryText := by
          rintro rfl
          exact hquery hn
        rw [filter_cons_of_pos (by simpa using hother), distinct_cons]
        exact .inr ⟨n, _, rfl, isProperName_of_mem hn, rfl, hquery⟩

/-- The first names of one word are no proper ones only where there is room for the query alone. -/
theorem no_proper_iff (hne : properNames host entityFillerWords queryText ≠ []) {k : Nat}
    (hk : 1 ≤ k) :
    (∀ n ∈ (wordNames host entityFillerWords queryText).take k,
        isProperName host entityFillerWords queryText n = false) ↔
      k = 1 ∧ isWordName (normalizeEntityName host queryText) = true ∧
        normalizeEntityName host queryText ∉ properNames host entityFillerWords queryText := by
  obtain ⟨j, rfl⟩ : ∃ j, k = j + 1 := ⟨k - 1, (Nat.sub_add_cancel hk).symm⟩
  rcases wordNames_cases hne with
    ⟨n, names, hnames, hproper, hquery⟩ | ⟨n, names, hnames, hproper, hword, hquery⟩
  · rw [hnames]
    refine iff_of_false (fun h => ?_) (fun h => h.2.2 (hquery h.2.1))
    rw [h n mem_cons_self] at hproper
    cases hproper
  · rw [hnames]
    cases j with
    | zero =>
        refine iff_of_true (fun m hm => ?_) ⟨rfl, hword, hquery⟩
        rw [take_succ_cons, take_zero, mem_singleton] at hm
        refine Bool.eq_false_of_not_eq_true fun hm' => hquery ?_
        rw [hm] at hm'
        exact mem_properNames.mpr ⟨hm', hword⟩
    | succ j =>
        refine iff_of_false (fun h => ?_) (fun h => by omega)
        rw [h n (mem_cons_of_mem _ mem_cons_self)] at hproper
        cases hproper

/-! ### No mention twice -/

variable (host entityFillerWords queryText)

/-- No proper name is repeated where the rest is filled up: there is none; or proper names and
phrases fill the list; or there is room for one more, and the query itself takes it. -/
def MentionsApart : Prop :=
  properNames host entityFillerWords queryText = [] ∨
    maxEntityQueryCandidates ≤ (properNames host entityFillerWords queryText).length +
      (phraseNames host entityFillerWords queryText).length ∨
    (properNames host entityFillerWords queryText).length +
        (phraseNames host entityFillerWords queryText).length + 1 = maxEntityQueryCandidates ∧
      isWordName (normalizeEntityName host queryText) = true ∧
        normalizeEntityName host queryText ∉ properNames host entityFillerWords queryText

theorem length_candidates :
    (entityMentionCandidates host entityFillerWords queryText).length ≤
      maxEntityQueryCandidates := by
  rw [entityMentionCandidates, length_append, length_take, length_take]
  omega

variable {host entityFillerWords queryText}

theorem disjoint_names : (wordNames host entityFillerWords queryText).Disjoint
    (phraseNames host entityFillerWords queryText) := by
  intro n hword hphrase
  rw [wordNames, mem_distinct, mem_filter] at hword
  rw [phraseNames, mem_distinct, mem_filter] at hphrase
  have hone := (Bool.and_eq_true_iff.mp hword.2).2
  rw [(Bool.and_eq_true_iff.mp hphrase.2).2] at hone
  cases hone

/-- **No mention is there twice** exactly where no proper name is repeated. -/
theorem mentions_distinct_iff :
    ((entityMentionCandidates host entityFillerWords queryText).map
      MentionCandidate.normalized).Nodup ↔ MentionsApart host entityFillerWords queryText := by
  have hwords : (wordNames host entityFillerWords queryText).Nodup := nodup_distinct _
  have hphrases : (phraseNames host entityFillerWords queryText).Nodup := nodup_distinct _
  have hfront : tailBigramNames host entityFillerWords queryText ⊆
      phraseNames host entityFillerWords queryText := fun n hn =>
    (mem_filter.mp ((drop_sublist _ _).subset hn)).1
  have hproper := (@filter_isProperName_perm host entityFillerWords queryText).length_eq
  rw [names_candidates]
  dsimp only
  rw [nodup_filled_iff hwords disjoint_names hfront, MentionsApart]
  by_cases hfull : maxEntityQueryCandidates ≤
      (properNames host entityFillerWords queryText).length +
        (phraseNames host entityFillerWords queryText).length
  · rw [← hproper] at hfull
    refine iff_of_true (.inl (le_length_prioritizedOf hwords hphrases disjoint_names hfull)) ?_
    rw [hproper] at hfull
    exact .inr (.inl hfull)
  · have hroom := Nat.lt_of_not_le hfull
    rw [← hproper] at hroom
    have hlength := length_prioritizedOf hwords hphrases disjoint_names hfront hroom
    rw [hproper] at hlength
    rw [hlength, or_iff_right hfull, or_iff_right hfull]
    by_cases hnone : properNames host entityFillerWords queryText = []
    · refine iff_of_true (fun n hn => ?_) (.inl hnone)
      refine Bool.eq_false_of_not_eq_true fun hn' => ?_
      have hmem := mem_properNames.mpr ⟨hn', (mem_wordNames.mp (mem_of_mem_take hn)).2⟩
      rw [hnone] at hmem
      cases hmem
    · rw [or_iff_right hnone, no_proper_iff hnone (by omega)]
      refine and_congr_left fun _ => ?_
      omega

end

end Runir.Recall
