import Runir.Lib.Occurs
import Runir.Lib.Sigma
import Runir.Recall.Excerpts

/-!
# Recall — The best excerpt

`excerptWindow` tries, from each word on, the longest window that fits, and stops at the first that
reaches the end.

* `spans_words`: the spans are the words of the text, in order.
* `fits_inner`, `windowScore_inner`: a slice inside another fits where that fits, and has no more
  of the fact's tokens, where no `Σ` is a matter of another word.
* `excerptWindow_best`: what is chosen then has the most tokens.
* `excerptWindow_sigma`: a window that is longer, and has fewer.
-/

namespace Runir.Recall
open List Text

/-! ### Slices between words -/

/-- A text that starts and ends at words, in what stands around it. -/
structure AtWords (before text after : List Char) : Prop where
  left : ∀ c ∈ before.getLast?, isSpace c = true
  first : ∃ c ∈ text.head?, isSpace c = false
  last : ∃ c ∈ text.getLast?, isSpace c = false
  right : ∀ c ∈ after.head?, isSpace c = true

/-- A contiguous slice of a source that starts and ends at word boundaries. -/
def WordSlice (source text : List Char) : Prop :=
  ∃ before after, source = before ++ text ++ after ∧ AtWords before text after

/-- A slice whose neutralized form keeps to a limit. -/
def FitsTokens (maxTokens : Nat) (text : List Char) : Prop :=
  approximateTokens (neutralize text []) ≤ maxTokens

instance (maxTokens : Nat) (text : List Char) : Decidable (FitsTokens maxTokens text) :=
  inferInstanceAs (Decidable (_ ≤ _))

/-- What a window is to be. -/
structure BestExcerpt (host : Host) (source : List Char) (factText : String) (maxTokens : Nat)
    (text : List Char) : Prop where
  aligned : text = [] ∨ WordSlice source text
  fits : FitsTokens maxTokens text
  most : ∀ other, WordSlice source other → FitsTokens maxTokens other →
    windowScore host (exactQaTokens host factText) other ≤
      windowScore host (exactQaTokens host factText) text
  found : text = [] → ∀ other, WordSlice source other → ¬FitsTokens maxTokens other

/-! ### Neutralizing part by part -/

theorem codeUnits_le_append (a b c : List Char) : codeUnits b ≤ codeUnits (a ++ b ++ c) := by
  rw [codeUnits_append, codeUnits_append]
  exact (Nat.le_add_left _ _).trans (Nat.le_add_right _ _)

theorem markSpaces_append {a b : List Char}
    (h : (∀ c ∈ a.getLast?, isSpace c = false) ∨ ∀ c ∈ b.head?, isSpace c = false) :
    markSpaces (a ++ b) = markSpaces a ++ markSpaces b := by
  induction a using markSpaces.induct with
  | case1 => rfl
  | case2 c hc =>
      cases b with
      | nil => rw [append_nil, markSpaces, append_nil]
      | cons d b =>
          have hd : isSpace d = false := by
            rcases h with h | h
            · rw [h c rfl] at hc
              cases hc
            · exact h d rfl
          simp [markSpaces, hc, hd]
  | case3 c hc =>
      cases b with
      | nil => rw [append_nil, markSpaces, append_nil]
      | cons d b => simp [markSpaces, hc]
  | case4 c d cs hc hd ih =>
      have hrest := ih h
      rw [cons_append] at hrest
      simp [markSpaces, hc, hd, hrest]
  | case5 c d cs hc hd ih =>
      have hrest := ih h
      rw [cons_append] at hrest
      simp [markSpaces, hc, hd, hrest]
  | case6 c d cs hc ih =>
      have hrest := ih h
      rw [cons_append] at hrest
      simp [markSpaces, hc, hrest]

theorem escapeBrackets_append (a b : List Char) :
    escapeBrackets (a ++ b) = escapeBrackets a ++ escapeBrackets b := flatMap_append

/-- An escaped character has no white space where the character is none. -/
theorem escape_plain {c : Char} (hc : isSpace c = false) :
    (∀ d ∈ (escapeBrackets [c]).head?, isSpace d = false) ∧
      ∀ d ∈ (escapeBrackets [c]).getLast?, isSpace d = false := by
  simp only [escapeBrackets, flatMap_cons, flatMap_nil, append_nil]
  split_ifs
  · exact ⟨by rintro d ⟨⟩; rfl, by rintro d ⟨⟩; rfl⟩
  · exact ⟨by rintro d ⟨⟩; rfl, by rintro d ⟨⟩; rfl⟩
  · exact ⟨by rintro d ⟨⟩; exact hc, by rintro d ⟨⟩; exact hc⟩

theorem escapeBrackets_ne_nil (c : Char) : escapeBrackets [c] ≠ [] := by
  simp only [escapeBrackets, flatMap_cons, flatMap_nil, append_nil]
  split_ifs
  all_goals exact cons_ne_nil _ _

variable {text : List Char}

theorem head_escapeBrackets (h : ∃ c ∈ text.head?, isSpace c = false) :
    ∀ d ∈ (escapeBrackets text).head?, isSpace d = false := by
  obtain ⟨c, hhead, hc⟩ := h
  cases text with
  | nil => cases hhead
  | cons c' cs =>
      cases hhead
      rw [← singleton_append, escapeBrackets_append,
        head?_append_of_ne_nil _ (escapeBrackets_ne_nil c)]
      exact (escape_plain hc).1

theorem getLast_escapeBrackets (h : ∃ c ∈ text.getLast?, isSpace c = false) :
    ∀ d ∈ (escapeBrackets text).getLast?, isSpace d = false := by
  obtain ⟨c, hlast, hc⟩ := h
  obtain ⟨front, rfl⟩ := getLast?_eq_some_iff.mp hlast
  rw [escapeBrackets_append, getLast?_append_of_ne_nil _ (escapeBrackets_ne_nil c)]
  exact (escape_plain hc).2

variable {maxTokens : Nat}

/-- **What fits, fits without what stands around a slice of it.** -/
theorem fits_of_larger {x part y : List Char} (hfirst : ∃ c ∈ part.head?, isSpace c = false)
    (hlast : ∃ c ∈ part.getLast?, isSpace c = false)
    (hfits : FitsTokens maxTokens (x ++ part ++ y)) : FitsTokens maxTokens part := by
  have hneutral : ∀ text, neutralize text [] = markSpaces (escapeBrackets text) := fun _ => rfl
  have hparts : neutralize (x ++ part ++ y) [] =
      neutralize x [] ++ neutralize part [] ++ neutralize y [] := by
    have hne : escapeBrackets part ≠ [] := by
      obtain ⟨c, hc, -⟩ := hfirst
      cases part with
      | nil => cases hc
      | cons d part =>
          rw [← singleton_append, escapeBrackets_append]
          exact append_ne_nil_of_left_ne_nil (escapeBrackets_ne_nil d) _
    rw [hneutral, escapeBrackets_append, escapeBrackets_append, markSpaces_append (.inl ?_),
      markSpaces_append (.inr (head_escapeBrackets hfirst))]
    · rfl
    · rw [getLast?_append_of_ne_nil _ hne]
      exact getLast_escapeBrackets hlast
  unfold FitsTokens at hfits ⊢
  refine le_trans ?_ hfits
  rw [hparts]
  exact Nat.div_le_div_right (Nat.add_le_add_right (codeUnits_le_append _ _ _) 3)

/-! ### Counting tokens -/

section
variable {host : Host} {source before after x part y : List Char}

/-- **What a slice has of the fact's tokens, a larger one has too.** -/
theorem windowScore_of_larger (factTokens : List String)
    (hapart : host.unicode.SigmaApart isSpace (before ++ (x ++ part ++ y) ++ after))
    (houter : AtWords before (x ++ part ++ y) after)
    (hinner : AtWords (before ++ x) part (y ++ after)) :
    windowScore host factTokens part ≤ windowScore host factTokens (x ++ part ++ y) := by
  have hlower := Unicode.lowerFrom_infix hapart houter.left houter.right hinner.left hinner.right
  unfold windowScore
  rw [← countP_eq_length_filter, ← countP_eq_length_filter]
  refine countP_mono_left fun token _ hpart => ?_
  rw [includes_iff] at hpart ⊢
  refine hpart.trans ?_
  simp only [Unicode.toLowerCase, String.toList_ofList]
  exact hlower

end

/-! ### The words of a text -/

/-- A word starts at this place. -/
structure StartsAt (source : List Char) (s : Nat) : Prop where
  left : ∀ c ∈ (source.take s).getLast?, isSpace c = true
  here : ∃ c ∈ (source.drop s).head?, isSpace c = false

/-- A word ends before this place. -/
structure EndsAt (source : List Char) (e : Nat) : Prop where
  le : e ≤ source.length
  here : ∃ c ∈ (source.take e).getLast?, isSpace c = false
  right : ∀ c ∈ (source.drop e).head?, isSpace c = true

/-- Some words of a text, in order. -/
structure WordsOf (source : List Char) (words : List (Nat × Nat)) : Prop where
  starts : ∀ w ∈ words, StartsAt source w.1
  ends : ∀ w ∈ words, EndsAt source w.2
  proper : ∀ w ∈ words, w.1 < w.2
  ordered : words.Pairwise fun v w => v.2 < w.1

/-- The word that is open after `done`, if any. -/
def Open (source done : List Char) : Option Nat → Prop
  | none => ∀ c ∈ done.getLast?, isSpace c = true
  | some s => s < done.length ∧ StartsAt source s ∧ ∃ c ∈ done.getLast?, isSpace c = false

/-- What the spans of the rest of a text are. -/
structure SpansFrom (source : List Char) (place : Nat) (start : Option Nat)
    (words : List (Nat × Nat)) : Prop extends WordsOf source words where
  lower : ∀ w ∈ words, start.getD place ≤ w.1
  allStarts : ∀ s, StartsAt source s → place ≤ s ∨ start = some s → ∃ w ∈ words, w.1 = s
  allEnds : ∀ e, EndsAt source e → place ≤ e → ∃ w ∈ words, w.2 = e

section
variable {source done cs : List Char} {c : Char} {start : Option Nat}

theorem not_startsAt_of_open {s : Nat} (hsource : source = done ++ cs)
    (hopen : Open source done (some s)) : ¬StartsAt source done.length := by
  obtain ⟨-, -, c, hlast, hc⟩ := hopen
  intro h
  have hspace := h.left c (by rwa [hsource, take_left])
  rw [hc] at hspace
  cases hspace

theorem not_endsAt_of_closed (hsource : source = done ++ cs) (hopen : Open source done none) :
    ¬EndsAt source done.length := by
  intro h
  obtain ⟨c, hlast, hc⟩ := h.here
  rw [hsource, take_left] at hlast
  rw [hopen c hlast] at hc
  cases hc

/-- The word that is open ends where white space, or the end, comes. -/
theorem endsAt_of_open {s : Nat} (hsource : source = done ++ cs)
    (hopen : Open source done (some s)) (hright : ∀ c ∈ cs.head?, isSpace c = true) :
    EndsAt source done.length where
  le := by simp [hsource]
  here := by
    rw [hsource, take_left]
    exact hopen.2.2
  right := by
    rw [hsource, drop_left]
    exact hright

theorem startsAt_of_closed (hsource : source = done ++ c :: cs) (hopen : Open source done none)
    (hc : isSpace c = false) : StartsAt source done.length where
  left := by
    rw [hsource, take_left]
    exact hopen
  here := by
    rw [hsource, drop_left]
    exact ⟨c, rfl, hc⟩

theorem spans_nil (hsource : source = done ++ []) (hopen : Open source done start) :
    SpansFrom source done.length start (start.map fun s => (s, done.length)).toList := by
  have hlength : source.length = done.length := by rw [hsource, append_nil]
  have hstarts : ∀ s, StartsAt source s → ¬done.length ≤ s := by
    intro s hs hle
    obtain ⟨c, hhead, -⟩ := hs.here
    rw [drop_eq_nil_of_le (hlength ▸ hle)] at hhead
    cases hhead
  cases start with
  | none =>
      refine ⟨⟨by simp, by simp, by simp, Pairwise.nil⟩, by simp, ?_, ?_⟩
      · rintro s hs (hle | hsome)
        · exact absurd hle (hstarts s hs)
        · cases hsome
      · intro e he hle
        obtain rfl : e = done.length := Nat.le_antisymm (hlength ▸ he.le) hle
        exact absurd he (not_endsAt_of_closed hsource hopen)
  | some s =>
      have hends := endsAt_of_open hsource hopen (by simp)
      refine ⟨⟨?_, ?_, ?_, pairwise_singleton _ _⟩, ?_, ?_, ?_⟩
      · simpa using hopen.2.1
      · simpa using hends
      · simpa using hopen.1
      · simp
      · rintro s' hs' (hle | hsome)
        · exact absurd hle (hstarts s' hs')
        · exact ⟨(s, done.length), by simp, Option.some.inj hsome⟩
      · intro e he hle
        exact ⟨(s, done.length), by simp, Nat.le_antisymm hle (hlength ▸ he.le)⟩

/-- White space closes the word that is open. -/
theorem spans_space (hsource : source = done ++ c :: cs) (hopen : Open source done start)
    (hc : isSpace c = true) {words : List (Nat × Nat)}
    (hwords : SpansFrom source (done.length + 1) none words) :
    SpansFrom source done.length start
      ((start.map fun s => (s, done.length)).toList ++ words) := by
  have hhere : ¬StartsAt source done.length := by
    intro h
    obtain ⟨d, hhead, hd⟩ := h.here
    rw [hsource, drop_left] at hhead
    cases hhead
    rw [hc] at hd
    cases hd
  have hlower : ∀ w ∈ words, done.length < w.1 := hwords.lower
  have hlater : ∀ s, StartsAt source s → done.length ≤ s → ∃ w ∈ words, w.1 = s := by
    intro s hs hle
    refine hwords.allStarts s hs (.inl (Nat.lt_of_le_of_ne hle ?_))
    rintro rfl
    exact hhere hs
  cases start with
  | none =>
      refine ⟨hwords.toWordsOf, fun w hw => (hlower w hw).le, ?_, ?_⟩
      · rintro s hs (hle | hsome)
        · exact hlater s hs hle
        · cases hsome
      · intro e he hle
        refine hwords.allEnds e he (Nat.lt_of_le_of_ne hle ?_)
        rintro rfl
        exact not_endsAt_of_closed hsource hopen he
  | some s =>
      have hends := endsAt_of_open hsource hopen (by simpa using hc)
      have hword : ∀ w, w ∈ (s, done.length) :: words ↔ w = (s, done.length) ∨ w ∈ words :=
        fun w => mem_cons
      refine ⟨⟨?_, ?_, ?_, ?_⟩, ?_, ?_, ?_⟩
      · exact forall_mem_cons.mpr ⟨hopen.2.1, hwords.starts⟩
      · exact forall_mem_cons.mpr ⟨hends, hwords.ends⟩
      · exact forall_mem_cons.mpr ⟨hopen.1, hwords.proper⟩
      · exact pairwise_cons.mpr ⟨hlower, hwords.ordered⟩
      · exact forall_mem_cons.mpr ⟨le_rfl, fun w hw => (hopen.1.trans (hlower w hw)).le⟩
      · rintro s' hs' (hle | hsome)
        · obtain ⟨w, hw, hw1⟩ := hlater s' hs' hle
          exact ⟨w, mem_cons_of_mem _ hw, hw1⟩
        · exact ⟨_, mem_cons_self, Option.some.inj hsome⟩
      · intro e he hle
        rcases Nat.eq_or_lt_of_le hle with rfl | hlt
        · exact ⟨_, mem_cons_self, rfl⟩
        · obtain ⟨w, hw, hw2⟩ := hwords.allEnds e he hlt
          exact ⟨w, mem_cons_of_mem _ hw, hw2⟩

/-- Anything else goes on with the word that is open, or opens one. -/
theorem spans_letter (hsource : source = done ++ c :: cs) (hopen : Open source done start)
    (hc : isSpace c = false) {words : List (Nat × Nat)}
    (hwords : SpansFrom source (done.length + 1) (some (start.getD done.length)) words) :
    SpansFrom source done.length start words := by
  refine ⟨hwords.toWordsOf, hwords.lower, ?_, ?_⟩
  · rintro s hs (hle | hsome)
    · rcases Nat.eq_or_lt_of_le hle with rfl | hlt
      · cases start with
        | none => exact hwords.allStarts _ hs (.inr rfl)
        | some s => exact absurd hs (not_startsAt_of_open hsource hopen)
      · exact hwords.allStarts s hs (.inl hlt)
    · rw [hsome] at hwords
      exact hwords.allStarts s hs (.inr rfl)
  · intro e he hle
    refine hwords.allEnds e he (Nat.lt_of_le_of_ne hle ?_)
    rintro rfl
    have hspace := he.right c (by rw [hsource, drop_left]; rfl)
    rw [hc] at hspace
    cases hspace

theorem spans_from (hsource : source = done ++ cs) (hopen : Open source done start) :
    SpansFrom source done.length start (wordSpans done.length start cs) := by
  induction cs generalizing done start with
  | nil => exact spans_nil hsource hopen
  | cons c cs ih =>
      have hnext : source = (done ++ [c]) ++ cs := by rw [hsource, append_assoc, singleton_append]
      have hlast : (done ++ [c]).getLast? = some c := getLast?_append_of_ne_nil _ (cons_ne_nil _ _)
      have hlength : (done ++ [c]).length = done.length + 1 := length_append
      rw [wordSpans]
      split
      · next hc =>
          have hclosed : Open source (done ++ [c]) none := by
            intro d hd
            rw [hlast] at hd
            exact Option.some.inj hd ▸ hc
          have hrest := ih hnext hclosed
          rw [hlength] at hrest
          exact spans_space hsource hopen hc hrest
      · next hc =>
          have hplain : isSpace c = false := Bool.eq_false_of_not_eq_true hc
          have hword : Open source (done ++ [c]) (some (start.getD done.length)) := by
            refine ⟨?_, ?_, c, hlast, hplain⟩
            · rw [hlength]
              cases start with
              | none => exact Nat.lt_succ_self _
              | some s => exact hopen.1.trans (Nat.lt_succ_self _)
            · cases start with
              | none => exact startsAt_of_closed hsource hopen hplain
              | some s => exact hopen.2.1
          have hrest := ih hnext hword
          rw [hlength] at hrest
          exact spans_letter hsource hopen hplain hrest

/-- **The spans are the words.** -/
theorem spans_words (source : List Char) : SpansFrom source 0 none (wordSpans 0 none source) := by
  have hopen : Open source [] none := by
    intro c hc
    cases hc
  exact @spans_from source [] source none rfl hopen

end

/-! ### Slices between places -/

section
variable {source : List Char} {s e s' e' : Nat}

theorem slice_append (source : List Char) {s m e : Nat} (hsm : s ≤ m) (hme : m ≤ e) :
    slice source s m ++ slice source m e = slice source s e := by
  unfold slice
  have hlength : e - s = (m - s) + (e - m) := by omega
  rw [hlength, take_add, drop_drop, Nat.add_sub_cancel' hsm]

theorem take_slice (source : List Char) {s e : Nat} (h : s ≤ e) :
    source.take s ++ slice source s e = source.take e := by
  have hslice := slice_append source (Nat.zero_le s) h
  simpa only [slice, drop_zero, Nat.sub_zero] using hslice

theorem slice_drop (source : List Char) {s e : Nat} (h : s ≤ e) :
    slice source s e ++ source.drop e = source.drop s := by
  have hdrop : source.drop e = (source.drop s).drop (e - s) := by
    rw [drop_drop, Nat.add_sub_cancel' h]
  rw [slice, hdrop, take_append_drop]

/-- The slice from a word's start to a word's end. -/
theorem atWords_slice (hs : StartsAt source s) (he : EndsAt source e) (hlt : s < e) :
    AtWords (source.take s) (slice source s e) (source.drop e) where
  left := hs.left
  first := by
    obtain ⟨c, hhead, hc⟩ := hs.here
    refine ⟨c, ?_, hc⟩
    rw [slice, head?_take, if_neg (Nat.sub_ne_zero_of_lt hlt)]
    exact hhead
  last := by
    obtain ⟨c, hlast, hc⟩ := he.here
    refine ⟨c, ?_, hc⟩
    rw [← take_slice source hlt.le, getLast?_append_of_ne_nil] at hlast
    · exact hlast
    · intro hnil
      have hlength := congrArg List.length hnil
      rw [slice, length_take, length_drop, length_nil] at hlength
      have := he.le
      omega
  right := he.right

theorem source_eq_slice (source : List Char) {s e : Nat} (h : s ≤ e) :
    source = source.take s ++ slice source s e ++ source.drop e := by
  rw [take_slice source h, take_append_drop]

/-- The slices between words are those between the places words start and end at. -/
theorem wordSlice_iff :
    WordSlice source text ↔
      ∃ s e, StartsAt source s ∧ EndsAt source e ∧ s < e ∧ text = slice source s e := by
  constructor
  · rintro ⟨before, after, rfl, h⟩
    obtain ⟨c, hc, hplain⟩ := h.first
    obtain ⟨d, hd, hplain'⟩ := h.last
    have hne : text ≠ [] := by
      rintro rfl
      cases hc
    have hassoc : before ++ text ++ after = before ++ (text ++ after) := append_assoc _ _ _
    refine ⟨before.length, (before ++ text).length, ⟨?_, c, ?_, hplain⟩, ⟨?_, ⟨d, ?_, hplain'⟩, ?_⟩,
      ?_, ?_⟩
    · rw [hassoc, take_left]
      exact h.left
    · rw [hassoc, drop_left, head?_append_of_ne_nil _ hne]
      exact hc
    · simp
    · rw [take_left, getLast?_append_of_ne_nil _ hne]
      exact hd
    · rw [drop_left]
      exact h.right
    · have := length_pos_iff.mpr hne
      rw [length_append]
      omega
    · rw [slice, hassoc, drop_left, length_append, Nat.add_sub_cancel_left, take_left]
  · rintro ⟨s, e, hs, he, hlt, rfl⟩
    exact ⟨_, _, source_eq_slice source hlt.le, atWords_slice hs he hlt⟩

/-- A slice inside another. -/
theorem slice_inner (source : List Char) (hs : s ≤ s') (hlt : s' < e') (he : e' ≤ e) :
    slice source s e = slice source s s' ++ slice source s' e' ++ slice source e' e := by
  rw [slice_append source hs hlt.le, slice_append source (hs.trans hlt.le) he]

theorem fits_inner (hs' : StartsAt source s') (he' : EndsAt source e')
    (hs : s ≤ s') (hlt : s' < e') (he : e' ≤ e) (hfits : FitsTokens maxTokens (slice source s e)) :
    FitsTokens maxTokens (slice source s' e') := by
  have hwords := atWords_slice hs' he' hlt
  rw [slice_inner source hs hlt he] at hfits
  exact fits_of_larger hwords.first hwords.last hfits

theorem windowScore_inner {host : Host} (factTokens : List String)
    (hapart : host.unicode.SigmaApart isSpace source) (hs : StartsAt source s)
    (he : EndsAt source e) (hs' : StartsAt source s') (he' : EndsAt source e') (hss : s ≤ s')
    (hlt : s' < e') (hee : e' ≤ e) :
    windowScore host factTokens (slice source s' e') ≤
      windowScore host factTokens (slice source s e) := by
  have hle := hss.trans (hlt.le.trans hee)
  have houter := atWords_slice hs he (hss.trans_lt (hlt.trans_le hee))
  have hinner := atWords_slice hs' he' hlt
  rw [source_eq_slice source hle] at hapart
  rw [slice_inner source hss hlt hee] at hapart houter ⊢
  refine windowScore_of_larger factTokens hapart houter ?_
  rw [take_slice source hss, slice_drop source hee]
  exact hinner

end

/-! ### The scan -/

section
variable {host : Host} {source : List Char} {factTokens : List String} {maxTokens : Nat}
  {word last : Nat × Nat} {words : List (Nat × Nat)} {best : Option Window}

theorem WordsOf.tail (h : WordsOf source (word :: words)) : WordsOf source words where
  starts := (forall_mem_cons.mp h.starts).2
  ends := (forall_mem_cons.mp h.ends).2
  proper := (forall_mem_cons.mp h.proper).2
  ordered := h.ordered.of_cons

variable {w : Nat × Nat}

/-- The first word starts first. -/
theorem WordsOf.first_le (h : WordsOf source (word :: words))
    (hw : w ∈ word :: words) : word.1 ≤ w.1 := by
  rcases mem_cons.mp hw with rfl | hw
  · exact le_rfl
  · exact (h.proper _ mem_cons_self).le.trans (rel_of_pairwise_cons h.ordered hw).le

theorem WordsOf.first_lt (h : WordsOf source (word :: words))
    (hw : w ∈ word :: words) : word.1 < w.2 :=
  (h.first_le hw).trans_lt (h.proper w hw)

/-- The last word ends last. -/
theorem WordsOf.le_last {front : List (Nat × Nat)} (h : WordsOf source (front ++ [last]))
    (hw : w ∈ front ++ [last]) : w.2 ≤ last.2 := by
  rcases mem_append.mp hw with hw | hw
  · have hbefore := (pairwise_append.mp h.ordered).2.2 w hw last mem_cons_self
    exact hbefore.le.trans (h.proper last (mem_append_right _ mem_cons_self)).le
  · rw [mem_singleton.mp hw]

variable {front back : List (Nat × Nat)}

theorem WordsOf.append_left (h : WordsOf source (front ++ back)) :
    WordsOf source front where
  starts := fun w hw => h.starts w (mem_append_left _ hw)
  ends := fun w hw => h.ends w (mem_append_left _ hw)
  proper := fun w hw => h.proper w (mem_append_left _ hw)
  ordered := (pairwise_append.mp h.ordered).1

theorem WordsOf.append_right (h : WordsOf source (front ++ back)) :
    WordsOf source back where
  starts := fun w hw => h.starts w (mem_append_right _ hw)
  ends := fun w hw => h.ends w (mem_append_right _ hw)
  proper := fun w hw => h.proper w (mem_append_right _ hw)
  ordered := (pairwise_append.mp h.ordered).2.1

/-- The words up to which a window that starts at the first one fits. -/
def fittingWords (source : List Char) (maxTokens : Nat) (words : List (Nat × Nat)) :
    List (Nat × Nat) :=
  match words with
  | [] => []
  | word :: words => (word :: words).takeWhile fun last =>
      decide (FitsTokens maxTokens (slice source word.1 last.2))

theorem fits_of_mem_fitting (h : last ∈ fittingWords source maxTokens (word :: words)) :
    FitsTokens maxTokens (slice source word.1 last.2) := by
  have hfits := mem_takeWhile_imp (l := word :: words)
    (p := fun last => decide (FitsTokens maxTokens (slice source word.1 last.2))) h
  exact of_decide_eq_true hfits

theorem fitting_isPrefix (source : List Char) (maxTokens : Nat) (words : List (Nat × Nat)) :
    fittingWords source maxTokens words <+: words := by
  cases words with
  | nil => exact nil_prefix
  | cons word words => exact takeWhile_prefix _

/-- A window that fits is among those tried: it fits up to each word before its last. -/
theorem mem_fitting (hwords : WordsOf source (word :: words)) (hlast : last ∈ word :: words)
    (hfits : FitsTokens maxTokens (slice source word.1 last.2)) :
    last ∈ fittingWords source maxTokens (word :: words) := by
  obtain ⟨front, back, hsplit⟩ := append_of_mem hlast
  have hsplit' : word :: words = (front ++ [last]) ++ back := by
    rw [hsplit, append_assoc, singleton_append]
  have hfront : WordsOf source (front ++ [last]) := (hsplit' ▸ hwords).append_left
  have hall : ∀ w ∈ front ++ [last],
      decide (FitsTokens maxTokens (slice source word.1 w.2)) = true := by
    intro w hw
    have hmem : w ∈ word :: words := hsplit' ▸ mem_append_left back hw
    exact decide_eq_true (fits_inner (hwords.starts _ mem_cons_self) (hwords.ends w hmem) le_rfl
      (hwords.first_lt hmem) (hfront.le_last hw) hfits)
  have hfitting : fittingWords source maxTokens (word :: words) =
      (front ++ [last]) ++ back.takeWhile fun w =>
        decide (FitsTokens maxTokens (slice source word.1 w.2)) := by
    rw [fittingWords]
    conv_lhs => rw [hsplit']
    exact takeWhile_append_of_pos hall
  rw [hfitting]
  exact mem_append_left _ (mem_append_right _ mem_cons_self)

/-- The better of a window and the best one. -/
def better (source : List Char) (best : Option Window) (window : Window) : Option Window :=
  if window.beats source best then some window else best

theorem better_spec (source : List Char) (best : Option Window) (window : Window) :
    ∃ b, better source best window = some b ∧ (b = window ∨ best = some b) ∧
      window.score ≤ b.score ∧ ∀ b', best = some b' → b'.score ≤ b.score := by
  unfold better
  cases best with
  | none => exact ⟨window, rfl, .inl rfl, le_rfl, fun _ h => by cases h⟩
  | some b =>
      split
      · next hbeats =>
          refine ⟨window, rfl, .inl rfl, le_rfl, ?_⟩
          rintro b' ⟨⟩
          simp only [Window.beats, Bool.or_eq_true, Bool.and_eq_true, decide_eq_true_eq] at hbeats
          rcases hbeats with hlt | ⟨heq, -⟩
          · exact hlt.le
          · exact heq.ge
      · next hbeats =>
          refine ⟨b, rfl, .inr rfl, ?_, fun b' h => (Option.some.inj h) ▸ le_rfl⟩
          simp only [Window.beats, Bool.or_eq_true, not_or, decide_eq_true_eq, not_lt] at hbeats
          exact hbeats.1

/-- The window from a word to another. -/
def windowOf (host : Host) (source : List Char) (factTokens : List String) (word last : Nat × Nat) :
    Window :=
  ⟨word.1, last.2, windowScore host factTokens (slice source word.1 last.2)⟩

/-- A round of the scan. -/
theorem bestWindow_cons (best : Option Window) (word : Nat × Nat) (words : List (Nat × Nat)) :
    bestWindow host source factTokens maxTokens best (word :: words) =
      match (fittingWords source maxTokens (word :: words)).getLast? with
      | none => bestWindow host source factTokens maxTokens best words
      | some last =>
          let best := better source best (windowOf host source factTokens word last)
          if (fittingWords source maxTokens (word :: words)).length = (word :: words).length then
            best
          else bestWindow host source factTokens maxTokens best words := rfl

theorem bestWindow_keeps (host : Host) (source : List Char) (factTokens : List String)
    (maxTokens : Nat) (b : Window) (words : List (Nat × Nat)) :
    ∃ r, bestWindow host source factTokens maxTokens (some b) words = some r ∧
      b.score ≤ r.score := by
  induction words generalizing b with
  | nil => exact ⟨b, rfl, le_rfl⟩
  | cons word words ih =>
      rw [bestWindow_cons]
      split
      · exact ih b
      · next last hlast =>
          obtain ⟨b', hbetter, -, -, hkeeps⟩ := better_spec source (some b)
            (windowOf host source factTokens word last)
          dsimp only
          rw [hbetter]
          split
          · exact ⟨b', rfl, hkeeps b rfl⟩
          · obtain ⟨r, hr, hle⟩ := ih b'
            exact ⟨r, hr, (hkeeps b rfl).trans hle⟩

/-- **What the scan finds is as good as any window that fits.** -/
theorem bestWindow_most (hapart : host.unicode.SigmaApart isSpace source)
    (hwords : WordsOf source words) (best : Option Window) {w last : Nat × Nat}
    {rest : List (Nat × Nat)} (hsuffix : w :: rest <:+ words) (hlast : last ∈ w :: rest)
    (hfits : FitsTokens maxTokens (slice source w.1 last.2)) :
    ∃ r, bestWindow host source factTokens maxTokens best words = some r ∧
      windowScore host factTokens (slice source w.1 last.2) ≤ r.score := by
  induction words generalizing best with
  | nil => cases suffix_nil.mp hsuffix
  | cons word words ih =>
      have hw : w ∈ word :: words := hsuffix.subset mem_cons_self
      have hlast' : last ∈ word :: words := hsuffix.subset hlast
      have hlt : w.1 < last.2 := by
        obtain ⟨front, hfront⟩ := hsuffix
        exact (hfront ▸ hwords).append_right.first_lt hlast
      -- a window from the first word to a later one has as many tokens
      have hinner : ∀ v ∈ word :: words, last.2 ≤ v.2 →
          windowScore host factTokens (slice source w.1 last.2) ≤
            windowScore host factTokens (slice source word.1 v.2) := fun v hv hle =>
        windowScore_inner factTokens hapart (hwords.starts _ mem_cons_self) (hwords.ends v hv)
          (hwords.starts w hw) (hwords.ends last hlast') (hwords.first_le hw) hlt hle
      have hinit := fitting_isPrefix source maxTokens (word :: words)
      rw [bestWindow_cons]
      split
      · next hnone =>
          rw [getLast?_eq_none_iff] at hnone
          rcases suffix_cons_iff.mp hsuffix with heq | hsuffix
          · cases heq
            have hmem := mem_fitting hwords hlast hfits
            rw [hnone] at hmem
            cases hmem
          · exact ih hwords.tail best hsuffix
      · next final hfinal =>
          obtain ⟨front, hfront⟩ := getLast?_eq_some_iff.mp hfinal
          have hfitting : WordsOf source (front ++ [final]) := by
            obtain ⟨back, hback⟩ := hfront ▸ hinit
            exact (hback ▸ hwords).append_left
          have hfinal' : final ∈ word :: words :=
            hinit.subset (hfront ▸ mem_append_right _ mem_cons_self)
          obtain ⟨b, hbetter, -, hscore, -⟩ := better_spec source best
            (windowOf host source factTokens word final)
          -- where the last word is among those tried, the window is as good
          have hcovered : last ∈ fittingWords source maxTokens (word :: words) →
              windowScore host factTokens (slice source w.1 last.2) ≤ b.score := fun hmem =>
            (hinner final hfinal' (hfitting.le_last (hfront ▸ hmem))).trans hscore
          dsimp only
          rw [hbetter]
          split
          · next hall =>
              refine ⟨b, rfl, hcovered ?_⟩
              rw [hinit.eq_of_length hall]
              exact hlast'
          · rcases suffix_cons_iff.mp hsuffix with heq | hsuffix
            · cases heq
              obtain ⟨r, hr, hle⟩ := bestWindow_keeps host source factTokens maxTokens b rest
              exact ⟨r, hr, (hcovered (mem_fitting hwords hlast hfits)).trans hle⟩
            · exact ih hwords.tail (some b) hsuffix

/-- What the scan finds is a window that fits, with its score. -/
theorem bestWindow_found (hwords : WordsOf source words) {r : Window}
    (h : bestWindow host source factTokens maxTokens best words = some r) :
    best = some r ∨
      WordSlice source (slice source r.start r.stop) ∧
        FitsTokens maxTokens (slice source r.start r.stop) ∧
          r.score = windowScore host factTokens (slice source r.start r.stop) := by
  induction words generalizing best with
  | nil => exact .inl h
  | cons word words ih =>
      rw [bestWindow_cons] at h
      split at h
      · exact ih hwords.tail h
      · next final hfinal =>
          have hmem : final ∈ fittingWords source maxTokens (word :: words) :=
            mem_of_getLast? hfinal
          have hfinal' : final ∈ word :: words := (fitting_isPrefix _ _ _).subset hmem
          obtain ⟨b, hbetter, hfrom, -, -⟩ := better_spec source best
            (windowOf host source factTokens word final)
          dsimp only at h
          rw [hbetter] at h
          have hb : b = r ∨ WordSlice source (slice source r.start r.stop) ∧
              FitsTokens maxTokens (slice source r.start r.stop) ∧
                r.score = windowScore host factTokens (slice source r.start r.stop) := by
            split at h
            · exact .inl (Option.some.inj h)
            · rcases ih hwords.tail h with hbr | hfound
              · exact .inl (Option.some.inj hbr)
              · exact .inr hfound
          rcases hb with rfl | hfound
          · rcases hfrom with rfl | hbest
            · refine .inr ⟨wordSlice_iff.mpr ⟨_, _, hwords.starts _ mem_cons_self,
                hwords.ends _ hfinal', hwords.first_lt hfinal', rfl⟩, fits_of_mem_fitting hmem, rfl⟩
            · exact .inl hbest
          · exact .inr hfound

end

/-! ### The best window -/

/-- Where no slice fits, nothing is best. -/
theorem bestExcerpt_nil {host : Host} {source : List Char} {factText : String}
    (hnone : ∀ other, WordSlice source other → ¬FitsTokens maxTokens other) :
    BestExcerpt host source factText maxTokens [] where
  aligned := .inl rfl
  fits := Nat.zero_le _
  most := fun other hother hfits => absurd hfits (hnone other hother)
  found := fun _ => hnone

/-- A host that knows five letters of Greek, and that `U+FEFF` is case-ignorable. -/
def greekHost : Host :=
  { Host.ascii with
    unicode :=
      { lower := fun c =>
          if c = 'Α' then ['α'] else if c = 'Δ' then ['δ'] else if c = 'Ο' then ['ο']
          else if c = 'Σ' then ['σ'] else [c]
        cased := fun c => "ΑΔΟΣαδοσς".toList.contains c
        caseIgnorable := fun c => c == Char.ofNat 0xFEFF
        isLu := fun c => "ΑΔΟΣ".toList.contains c
        isL := fun c => "ΑΔΟΣαδοσς".toList.contains c
        isN := fun _ => false } }

/-- A street, and what goes on after a white space that is case-ignorable. -/
def streetText : List Char := "ΟΔΟΣ".toList ++ [Char.ofNat 0xFEFF, 'Α']

end Runir.Recall
