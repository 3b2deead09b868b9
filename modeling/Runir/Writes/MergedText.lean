import Runir.Lib.Occurs
import Runir.Lib.Words
import Runir.Writes.ResolveFacts

/-!
# Writes — Merged text

What `buildMergedText` keeps of two texts, and with it the merge band of `resolveDecision`.

* `Holds`: the normal form of a segment is part of the normal form of a text.  A normal form is
  the words of a text in lower case (`toList_normalizeText`), so words in a row are enough.
* `KeepsSegments`: every segment of either text is held.
* `Overlong`: neither text contains the other, and the merged segments exceed 1200 code units.
  Then the longer text alone is kept, and `Fits` says that it holds the segments of the shorter.
* `buildMergedText_keeps`: every segment is kept exactly where the texts fit.
-/

namespace Runir

open Text

/-- The normal form of the segment is part of the normal form of the text. -/
def Holds (host : Host) (kept segment : String) : Prop :=
  includes (normalizeText host kept) (normalizeText host segment) = true

def KeepsSegments (host : Host) (existingText incomingText kept : String) : Prop :=
  ∀ segment ∈ splitSegments existingText ++ splitSegments incomingText, Holds host kept segment

/-- The segments of both texts, each normal form once. -/
def mergedSegments (host : Host) (existingText incomingText : String) : String :=
  trim (join " " (freshSegments host [] (splitSegments existingText ++ splitSegments incomingText)))

/-- Neither text contains the other, and together they are too long. -/
structure Overlong (host : Host) (existingText incomingText : String) : Prop where
  notWithin : includes (normalizeText host incomingText) (normalizeText host existingText) = false
  notAround : includes (normalizeText host existingText) (normalizeText host incomingText) = false
  long : 1200 < length (mergedSegments host existingText incomingText)

def longerText (existingText incomingText : String) : String :=
  if length existingText ≤ length incomingText then incomingText else existingText

def shorterText (existingText incomingText : String) : String :=
  if length existingText ≤ length incomingText then existingText else incomingText

/-- Where the texts are too long together, the longer holds the segments of the shorter. -/
def Fits (host : Host) (existingText incomingText : String) : Prop :=
  Overlong host existingText incomingText →
    ∀ segment ∈ splitSegments (shorterText existingText incomingText),
      Holds host (longerText existingText incomingText) segment

section
variable {host : Host} {e i s t : String}

theorem holds_iff : Holds host t s ↔ (normalizeText host s).toList <:+: (normalizeText host t).toList :=
  includes_iff

theorem Holds.trans (h : includes (normalizeText host t) (normalizeText host s) = true)
    {segment : String} (hs : Holds host s segment) : Holds host t segment :=
  includes_iff.mpr ((includes_iff.mp hs).trans (includes_iff.mp h))

theorem holds_of_normal_eq_empty (h : normalizeText host s = "") : Holds host t s := by
  rw [holds_iff, h]
  exact List.nil_infix

/-! ### The words of a text -/

variable (hplain : host.unicode.SpacePlain)
include hplain

/-- A normal form is the words of the text in lower case. -/
theorem toList_normalizeText (t : String) : (normalizeText host t).toList =
    joined ' ' ((words isSpace t.toList).map (host.unicode.lowerFrom [])) := by
  have hseen : host.unicode.casedNext [] = false := rfl
  rw [← Unicode.lowerFrom_joined hplain hseen]
  unfold normalizeText Unicode.toLowerCase trim collapse
  rw [String.toList_ofList, String.toList_ofList, String.toList_ofList, trimChars_collapseChars]

theorem holds_of_words (h : words isSpace s.toList <:+: words isSpace t.toList) : Holds host t s := by
  rw [holds_iff, toList_normalizeText hplain, toList_normalizeText hplain]
  exact joined_infix (h.map _)

theorem normal_eq_empty_of_words (h : words isSpace s.toList = []) : normalizeText host s = "" := by
  rw [← String.toList_inj, toList_normalizeText hplain, h]
  rfl

omit hplain in
theorem words_trim (t : String) : words isSpace (trim t).toList = words isSpace t.toList := by
  unfold trim
  rw [String.toList_ofList, trimChars_eq, words_trimWith]

omit hplain in
/-- Segments end at white space. -/
theorem only_segmentEnd : Regex.Only isSpace segmentEnd := by
  refine ⟨⟨fun c hc => ?_, fun c hc => ?_⟩, trivial, fun c hc => hc, fun c hc => hc⟩
  · rw [beq_iff_eq.mp hc]
    rfl
  · rw [beq_iff_eq.mp hc]
    rfl

omit hplain in
/-- The words of a segment are words of its text. -/
theorem words_splitSegments (h : s ∈ splitSegments t) : words isSpace s.toList <:+: words isSpace t.toList := by
  obtain ⟨piece', hpiece', rfl⟩ := List.mem_map.mp (List.mem_filter.mp h).1
  obtain ⟨piece, hpiece, rfl⟩ := List.mem_map.mp hpiece'
  rw [words_trim, String.toList_ofList]
  exact (Regex.cut_split segmentEnd t.toList).words_inner
    (fun _ hu => Regex.forall_of_consumes only_segmentEnd hu) hpiece

theorem holds_of_mem_splitSegments (h : s ∈ splitSegments t) : Holds host t s :=
  holds_of_words hplain (words_splitSegments h)

/-! ### The merged segments -/

omit hplain in
theorem words_join (segments : List String) :
    words isSpace (join " " segments).toList = segments.flatMap fun s => words isSpace s.toList := by
  induction segments with
  | nil => rfl
  | cons s segments ih =>
      cases segments with
      | nil => rw [join, List.flatMap_singleton]
      | cons s' segments =>
          rw [join, String.toList_append, String.toList_append, List.append_assoc, List.flatMap_cons,
            ← ih]
          · exact words_append_cons (c := ' ') rfl s.toList (join " " (s' :: segments)).toList
          · exact fun h => nomatch h

omit hplain in
/-- Every segment has an empty normal form, or that of one that was seen or is fresh. -/
theorem exists_freshSegments {segments l : List String} (h : s ∈ segments) :
    normalizeText host s = "" ∨ normalizeText host s ∈ l ∨
      ∃ fresh ∈ freshSegments host l segments, normalizeText host fresh = normalizeText host s := by
  induction segments generalizing l with
  | nil => exact nomatch h
  | cons segment segments ih =>
      rw [freshSegments]
      split
      · rename_i hold
        rcases List.mem_cons.mp h with rfl | h
        · exact hold.imp_right .inl
        · exact ih h
      · rcases List.mem_cons.mp h with rfl | h
        · exact .inr (.inr ⟨s, List.mem_cons_self .., rfl⟩)
        · rcases ih h with hempty | hseen | ⟨fresh, hfresh, heq⟩
          · exact .inl hempty
          · rcases List.mem_cons.mp hseen with heq | hseen
            · exact .inr (.inr ⟨segment, List.mem_cons_self .., heq.symm⟩)
            · exact .inr (.inl hseen)
          · exact .inr (.inr ⟨fresh, List.mem_cons_of_mem segment hfresh, heq⟩)

/-- The merged segments hold every segment. -/
theorem keepsSegments_mergedSegments : KeepsSegments host e i (mergedSegments host e i) := by
  intro s hs
  rcases exists_freshSegments (l := []) hs with hempty | hseen | ⟨fresh, hfresh, heq⟩
  · exact holds_of_normal_eq_empty hempty
  · exact nomatch hseen
  · have hwords : words isSpace fresh.toList <:+: words isSpace (mergedSegments host e i).toList := by
      unfold mergedSegments
      rw [words_trim, words_join]
      obtain ⟨front, back, hsplit⟩ := List.append_of_mem hfresh
      rw [hsplit, List.flatMap_append, List.flatMap_cons]
      exact ⟨_, _, (List.append_assoc ..)⟩
    have hholds := holds_of_words hplain hwords
    unfold Holds at hholds ⊢
    rwa [heq] at hholds

theorem keepsSegments_of_merged_empty (h : mergedSegments host e i = "") (t : String) :
    KeepsSegments host e i t := by
  intro s hs
  have hholds := keepsSegments_mergedSegments hplain s hs
  rw [h, holds_iff, normal_eq_empty_of_words hplain (s := "") rfl] at hholds
  exact holds_of_normal_eq_empty (String.toList_inj.mp (List.infix_nil.mp hholds))

/-! ### The exits of `buildMergedText` -/

theorem keepsSegments_existing
    (h : includes (normalizeText host e) (normalizeText host i) = true) :
    KeepsSegments host e i e := by
  intro s hs
  rcases List.mem_append.mp hs with hs | hs
  · exact holds_of_mem_splitSegments hplain hs
  · exact Holds.trans h (holds_of_mem_splitSegments hplain hs)

theorem keepsSegments_incoming
    (h : includes (normalizeText host i) (normalizeText host e) = true) :
    KeepsSegments host e i i := by
  intro s hs
  rcases List.mem_append.mp hs with hs | hs
  · exact Holds.trans h (holds_of_mem_splitSegments hplain hs)
  · exact holds_of_mem_splitSegments hplain hs

/-- The longer text holds its own segments. -/
theorem keepsSegments_longerText_iff : KeepsSegments host e i (longerText e i) ↔
    ∀ s ∈ splitSegments (shorterText e i), Holds host (longerText e i) s := by
  unfold longerText shorterText
  split
  · refine ⟨fun h s hs => h s (List.mem_append_left _ hs), fun h s hs => ?_⟩
    exact (List.mem_append.mp hs).elim (h s) (holds_of_mem_splitSegments hplain)
  · refine ⟨fun h s hs => h s (List.mem_append_right _ hs), fun h s hs => ?_⟩
    exact (List.mem_append.mp hs).elim (holds_of_mem_splitSegments hplain) (h s)

omit hplain in
theorem buildMergedText_of_overlong (h : Overlong host e i) :
    buildMergedText host e i = longerText e i := by
  have hne : normalizeText host e ≠ normalizeText host i := by
    intro heq
    have haround := h.notAround
    rw [heq, includes_iff.mpr List.infix_rfl] at haround
    exact nomatch haround
  have hsome : mergedSegments host e i ≠ "" := by
    intro hempty
    have hlong := h.long
    rw [hempty] at hlong
    exact absurd hlong (by decide)
  unfold buildMergedText
  dsimp only
  rw [if_neg hne, h.notWithin, h.notAround, if_neg Bool.false_ne_true, if_neg Bool.false_ne_true]
  exact (if_neg hsome).trans (if_pos h.long)

theorem keepsSegments_buildMergedText_iff (e i : String) :
    KeepsSegments host e i (buildMergedText host e i) ↔ Fits host e i := by
  have hfits : ∀ {t}, KeepsSegments host e i t → (Overlong host e i → False) →
      (KeepsSegments host e i t ↔ Fits host e i) := fun hkeeps hno =>
    ⟨fun _ hover => (hno hover).elim, fun _ => hkeeps⟩
  unfold buildMergedText
  dsimp only
  split
  · rename_i heq
    have hself : includes (normalizeText host e) (normalizeText host i) = true := by
      rw [heq]
      exact includes_iff.mpr List.infix_rfl
    exact hfits (keepsSegments_existing hplain hself) fun hover =>
      Bool.false_ne_true (hover.notAround.symm.trans hself)
  · split
    · rename_i hwithin
      exact hfits (keepsSegments_incoming hplain hwithin) fun hover =>
        Bool.false_ne_true (hover.notWithin.symm.trans hwithin)
    · rename_i hnotWithin
      split
      · rename_i haround
        exact hfits (keepsSegments_existing hplain haround) fun hover =>
          Bool.false_ne_true (hover.notAround.symm.trans haround)
      · rename_i hnotAround
        split
        · rename_i hempty
          refine hfits (keepsSegments_of_merged_empty hplain hempty i) fun hover => ?_
          have hlong := hover.long
          rw [show mergedSegments host e i = "" from hempty] at hlong
          exact absurd hlong (by decide)
        · split
          · rename_i hlong
            have hover : Overlong host e i :=
              ⟨Bool.eq_false_iff.mpr hnotWithin, Bool.eq_false_iff.mpr hnotAround, hlong⟩
            exact (keepsSegments_longerText_iff hplain).trans ⟨fun h _ => h, fun h => h hover⟩
          · rename_i hshort
            exact hfits (keepsSegments_mergedSegments hplain) fun hover => hshort hover.long

/-! ### The merge band -/

omit hplain in
theorem holds_congr {t' : String} (h : normalizeText host t = normalizeText host t') :
    Holds host t s ↔ Holds host t' s := by
  unfold Holds
  rw [h]

end

section
variable {host : Host} {wall : WallClock} {input : ResolveInput} {d : ArbitrationDecision}

/-- What is stored after a decision about a candidate. -/
def storedText (d : ArbitrationDecision) (candidate : SimilarCandidate) : String :=
  if d.outcome = .mergeUpdate then d.mergedText.getD candidate.l2 else candidate.l2

/-- A decision that settles on a candidate loses nothing exactly where the texts fit. -/
def SettlesOn (host : Host) (input : ResolveInput) (d : ArbitrationDecision)
    (candidate : SimilarCandidate) : Prop :=
  d.candidate = some candidate ∧
    (KeepsSegments host candidate.l2 input.text (storedText d candidate) ↔
      Fits host candidate.l2 input.text)

theorem settlesOn_of_mergeCandidate (hplain : host.unicode.SpacePlain) {candidate : SimilarCandidate}
    (h : mergeCandidate host input candidate = some d)
    (hout : d.outcome = .mergeUpdate ∨ d.outcome = .skip) :
    SettlesOn host input d candidate := by
  unfold mergeCandidate at h
  simp only at h
  split at h
  · obtain rfl := Option.some.inj h
    simp [mergeKept] at hout
  split at h
  · -- the stored text contains the incoming one
    rename_i hwithin
    obtain rfl := Option.some.inj h
    have hno : ¬ Overlong host candidate.l2 input.text := fun hover =>
      Bool.false_ne_true (hover.notAround.symm.trans hwithin)
    exact ⟨rfl, fun _ hover => absurd hover hno, fun _ => keepsSegments_existing hplain hwithin⟩
  split at h
  · obtain rfl := Option.some.inj h
    simp [mergeKept] at hout
  split at h
  · -- the merged text has the normal form of the stored one
    rename_i hsame
    obtain rfl := Option.some.inj h
    refine ⟨rfl, ?_⟩
    rw [← keepsSegments_buildMergedText_iff hplain]
    exact forall₂_congr fun segment _ => holds_congr hsame.symm
  split at h
  · obtain rfl := Option.some.inj h
    simp [mergeKept] at hout
  split at h
  · obtain rfl := Option.some.inj h
    simp at hout
  split at h
  · cases h
  split at h
  · obtain rfl := Option.some.inj h
    simp [mergeKept] at hout
  · obtain rfl := Option.some.inj h
    refine ⟨rfl, ?_⟩
    unfold storedText
    rw [if_pos rfl, Option.getD_some]
    exact keepsSegments_buildMergedText_iff hplain candidate.l2 input.text

theorem settlesOn_of_mergeBand (hplain : host.unicode.SpacePlain)
    {candidates : List (SimilarCandidate × Nat)}
    (h : mergeBand host wall input candidates = some d)
    (hout : d.outcome = .mergeUpdate ∨ d.outcome = .skip) :
    ∃ entry ∈ candidates, SettlesOn host input d entry.1 := by
  induction candidates with
  | nil => cases h
  | cons entry rest ih =>
      have hlater : mergeBand host wall input rest = some d →
          ∃ e ∈ entry :: rest, SettlesOn host input d e.1 := fun hrest =>
        (ih hrest).imp fun e he => ⟨List.mem_cons_of_mem entry he.1, he.2⟩
      unfold mergeBand at h
      split at h
      · exact hlater h
      · split at h
        · exact hlater h
        · exact ⟨entry, List.mem_cons_self .., settlesOn_of_mergeCandidate hplain h hout⟩

theorem recentBand_band {conflict : Option RecentWrite} {recent : List RecentWrite}
    (h : recentBand host input conflict recent = .returned d) :
    d.band = some .recentNearDupSkip := by
  induction recent generalizing conflict with
  | nil => cases h
  | cons rw rest ih =>
      unfold recentBand at h
      simp only at h
      split at h
      · exact ih h
      split at h
      · exact ih h
      split at h
      · exact ih h
      split at h
      · obtain rfl := BandExit.returned.inj h
        rfl
      · obtain rfl := BandExit.returned.inj h
        rfl

/-- Of the remaining bands only the merge band settles on a candidate under its own name. -/
theorem settlesOn_of_resolveRemainingBands (hplain : host.unicode.SpacePlain)
    (hband : (resolveRemainingBands host wall input).band = some .mergeBand)
    (hout : (resolveRemainingBands host wall input).outcome = .mergeUpdate ∨
      (resolveRemainingBands host wall input).outcome = .skip) :
    ∃ candidate ∈ input.similarCandidates,
      SettlesOn host input (resolveRemainingBands host wall input) candidate := by
  generalize hd : resolveRemainingBands host wall input = d at hband hout ⊢
  unfold resolveRemainingBands at hd
  split at hd
  · rename_i d' hrecent
    rw [← hd, recentBand_band hrecent] at hband
    exact nomatch hband
  · rename_i recentConflict _
    split at hd
    · rename_i d' hstore
      rw [← hd, (storeBand_returned hstore).2] at hband
      exact nomatch hband
    · rename_i storeConflict _
      cases hmerge : mergeBand host wall input input.similarCandidates.zipIdx with
      | some d' =>
          rw [hmerge, Option.getD_some] at hd
          subst hd
          obtain ⟨entry, hentry, hsettles⟩ := settlesOn_of_mergeBand hplain hmerge hout
          exact ⟨entry.1, List.fst_mem_of_mem_zipIdx hentry, hsettles⟩
      | none =>
          rw [hmerge, Option.getD_none] at hd
          rw [← hd, fallThrough_outcome] at hout
          exact absurd hout (by decide)

theorem settlesOn_of_resolveDecision (hplain : host.unicode.SpacePlain)
    (hband : (resolveDecision host wall input).band = some .mergeBand)
    (hout : (resolveDecision host wall input).outcome = .mergeUpdate ∨
      (resolveDecision host wall input).outcome = .skip) :
    ∃ candidate ∈ input.similarCandidates,
      SettlesOn host input (resolveDecision host wall input) candidate := by
  rcases resolveDecision_cases host wall input with ⟨-, hdup⟩ | ⟨t, -, heq⟩ | ⟨-, heq⟩
  · exact nomatch hdup.symm.trans hband
  · rw [heq] at hout
    rcases resolveCorrected_cases host input t with hcreate | hjudge | ⟨hretire, -⟩
    · rw [hcreate] at hout
      exact absurd hout (by decide)
    · rw [hjudge] at hout
      exact absurd hout (by simp [escalateF2])
    · rw [hretire] at hout
      exact absurd hout (by simp [retire])
  · -- the stamps of the correction pass leave the outcome, the candidate and the text
    rw [heq] at hband hout ⊢
    exact settlesOn_of_resolveRemainingBands hplain hband hout

end

/-- **What a merge keeps.**  Every segment of the two texts, exactly where they fit; and so does
what is stored after the merge band merges or skips. -/
theorem buildMergedText_keeps (host : Host) (hplain : host.unicode.SpacePlain) :
    (∀ existingText incomingText,
      KeepsSegments host existingText incomingText
          (buildMergedText host existingText incomingText) ↔
        Fits host existingText incomingText) ∧
      ∀ wall input, (resolveDecision host wall input).band = some .mergeBand →
        (resolveDecision host wall input).outcome = .mergeUpdate ∨
          (resolveDecision host wall input).outcome = .skip →
        ∃ candidate ∈ input.similarCandidates,
          (resolveDecision host wall input).candidate = some candidate ∧
            (KeepsSegments host candidate.l2 input.text
                (storedText (resolveDecision host wall input) candidate) ↔
              Fits host candidate.l2 input.text) :=
  ⟨keepsSegments_buildMergedText_iff hplain, fun _ _ hband hout =>
    settlesOn_of_resolveDecision hplain hband hout⟩

theorem spacePlain_ascii : Unicode.ascii.SpacePlain := ⟨by decide, by decide, by decide⟩

/-- A fact near enough to a stored one to be merged into it. -/
def ginInput : ResolveInput where
  text := "Pour the gin."
  recentCandidates := []
  similarCandidates :=
    [{ id := "m1", l2 := "Chill a glass.", similarity := 9 / 10,
       createdAt := "2024-02-28T10:00:00.000Z" }]
  embedding := [1]
  config := {}
  withinHoursNowMs := some 1709120000000

theorem buildMergedText_keeps_gin :
    ∃ candidate ∈ ginInput.similarCandidates,
      KeepsSegments .ascii candidate.l2 ginInput.text
        (storedText (resolveDecision .ascii (fun _ _ => 0) ginInput) candidate) := by
  obtain ⟨-, hdecision⟩ := buildMergedText_keeps .ascii spacePlain_ascii
  obtain ⟨candidate, hmem, -, hkeeps⟩ := hdecision (fun _ _ => 0) ginInput (by decide +kernel)
    (by decide +kernel)
  refine ⟨candidate, hmem, hkeeps.mpr fun hover => ?_⟩
  obtain rfl := List.mem_singleton.mp hmem
  exact absurd hover.long (by decide +kernel)

/-! ### Two long sentences -/

/-- Text without white space. -/
def Solid (s : String) : Prop := s.toList ≠ [] ∧ ∀ c ∈ s.toList, isSpace c = false

theorem Solid.trim_eq {s : String} (h : Solid s) : trim s = s := by
  unfold trim
  rw [trimChars_eq, trimWith_of_ends (fun c hc => h.2 c (List.mem_of_mem_head? hc))
    (fun c hc => h.2 c (List.mem_of_getLast? hc)), String.ofList_toList]

theorem splitSegments_of_solid {s : String} (h : Solid s) : splitSegments s = [s] := by
  have hpieces := (Regex.cut_split segmentEnd s.toList).eq_singleton fun u hu c hc hmem => by
    have hspace := Regex.forall_of_consumes only_segmentEnd hu c hc
    exact Bool.false_ne_true ((h.2 c hmem).symm.trans hspace)
  have hne : s ≠ "" := fun hempty => h.1 (by rw [hempty]; rfl)
  unfold splitSegments split
  rw [hpieces, List.map_singleton, List.map_singleton, String.ofList_toList, h.trim_eq]
  exact List.filter_eq_self.mpr fun t ht => by
    rw [List.mem_singleton.mp ht]
    exact bne_iff_ne.mpr hne

/-- A text has at least as many code units as characters. -/
theorem length_toList_le (s : String) : s.toList.length ≤ length s := by
  have hgen : ∀ (cs : List Char) (n : Nat), n + cs.length ≤
      cs.foldl (fun n c => n + if c.toNat < 0x10000 then 1 else 2) n := by
    intro cs
    induction cs with
    | nil => exact fun n => le_rfl
    | cons c cs ih =>
        intro n
        refine le_trans ?_ (ih _)
        rw [List.length_cons]
        dsimp only
        split
        · omega
        · omega
  have h := hgen s.toList 0
  rwa [Nat.zero_add] at h

/-- `n` times one letter. -/
def drone (n : Nat) (c : Char) : String := String.ofList (List.replicate n c)

variable {c d : Char} {m n : Nat}

theorem toList_drone : (drone n c).toList = List.replicate n c := String.toList_ofList

theorem solid_drone (hn : n ≠ 0) (hc : isSpace c = false) : Solid (drone n c) := by
  unfold Solid
  rw [toList_drone]
  exact ⟨by simp [hn], fun d hd => List.eq_of_mem_replicate hd ▸ hc⟩

theorem lowerFrom_drone (hlower : Regex.foldCase c = c) (hsigma : c ≠ 'Σ') (seen : List Char) :
    Unicode.ascii.lowerFrom seen (List.replicate n c) = List.replicate n c := by
  induction n generalizing seen with
  | zero => rfl
  | succ n ih =>
      have hfirst : Unicode.ascii.lower c = [c] := congrArg (fun d => [d]) hlower
      rw [List.replicate_succ, Unicode.lowerFrom, ih, beq_eq_false_iff_ne.mpr hsigma,
        Bool.false_and, Bool.false_and, if_neg Bool.false_ne_true, hfirst]
      rfl

/-- A letter of lower case is the normal form of its repetitions. -/
theorem normalizeText_drone (hn : n ≠ 0) (hc : isSpace c = false) (hlower : Regex.foldCase c = c)
    (hsigma : c ≠ 'Σ') : normalizeText .ascii (drone n c) = drone n c := by
  obtain ⟨hne, hplain⟩ := solid_drone hn hc
  rw [← String.toList_inj, toList_normalizeText spacePlain_ascii, words_of_plain hplain hne,
    List.map_singleton, joined_singleton, toList_drone]
  exact lowerFrom_drone hlower hsigma []

/-- Repetitions of another letter do not hold those of a letter. -/
theorem not_includes_drone (hn : n ≠ 0) (hne : c ≠ d) :
    includes (drone m d) (drone n c) = false := by
  rw [Bool.eq_false_iff, Ne, includes_iff, toList_drone, toList_drone]
  intro hin
  have hmem : c ∈ List.replicate m d := hin.subset (List.mem_replicate.mpr ⟨hn, rfl⟩)
  exact hne (List.eq_of_mem_replicate hmem)

theorem not_keepsSegments_drones (hm : 600 ≤ m) (hn : 600 ≤ n) :
    ¬ KeepsSegments .ascii (drone m 'a') (drone n 'b')
      (buildMergedText .ascii (drone m 'a') (drone n 'b')) := by
  have hm0 : m ≠ 0 := by omega
  have hn0 : n ≠ 0 := by omega
  have ha := normalizeText_drone (c := 'a') hm0 (by decide) (by decide) (by decide)
  have hb := normalizeText_drone (c := 'b') hn0 (by decide) (by decide) (by decide)
  have hsa := solid_drone (c := 'a') hm0 (by decide)
  have hsb := solid_drone (c := 'b') hn0 (by decide)
  have hab : includes (drone n 'b') (drone m 'a') = false :=
    not_includes_drone hm0 (by decide)
  have hba : includes (drone m 'a') (drone n 'b') = false :=
    not_includes_drone hn0 (by decide)
  have hover : Overlong .ascii (drone m 'a') (drone n 'b') := by
    refine ⟨by rwa [ha, hb], by rwa [ha, hb], ?_⟩
    have hnea : drone m 'a' ≠ "" := fun h => hsa.1 (by rw [h]; rfl)
    have hneb : drone n 'b' ≠ "" := fun h => hsb.1 (by rw [h]; rfl)
    have hother : drone n 'b' ∉ [drone m 'a'] := fun h => by
      rw [List.mem_singleton.mp h, includes_iff.mpr List.infix_rfl] at hab
      exact nomatch hab
    have hfresh : freshSegments .ascii [] (splitSegments (drone m 'a') ++
        splitSegments (drone n 'b')) = [drone m 'a', drone n 'b'] := by
      rw [splitSegments_of_solid hsa, splitSegments_of_solid hsb, List.singleton_append,
        freshSegments, ha, if_neg (by simp [hnea]), freshSegments, hb,
        if_neg (by rintro (h | h); exacts [hneb h, hother h]), freshSegments]
    have hlong : (mergedSegments .ascii (drone m 'a') (drone n 'b')).toList.length =
        m + (n + 1) := by
      have hjoined : (join " " [drone m 'a', drone n 'b']).toList =
          List.replicate m 'a' ++ ' ' :: List.replicate n 'b' := by
        simp only [join, String.toList_append, toList_drone, List.append_assoc]
        rfl
      have hends : trimChars (List.replicate m 'a' ++ ' ' :: List.replicate n 'b') =
          List.replicate m 'a' ++ ' ' :: List.replicate n 'b' := by
        refine trimWith_of_ends (fun c hc => ?_) fun c hc => ?_
        · rw [List.head?_append_of_ne_nil _ (by simp [hm0]), List.head?_replicate, if_neg hm0] at hc
          obtain rfl := Option.some.inj hc
          rfl
        · rw [List.append_cons, List.getLast?_append_of_ne_nil _ (by simp [hn0]),
            List.getLast?_replicate, if_neg hn0] at hc
          obtain rfl := Option.some.inj hc
          rfl
      unfold mergedSegments trim
      rw [hfresh, String.toList_ofList, hjoined, hends, List.length_append, List.length_replicate,
        List.length_cons, List.length_replicate]
    have hunits := length_toList_le (mergedSegments .ascii (drone m 'a') (drone n 'b'))
    omega
  intro h
  rw [buildMergedText_of_overlong hover] at h
  unfold longerText at h
  split at h
  · have hkept := h (drone m 'a') (List.mem_append_left _ (by
      rw [splitSegments_of_solid hsa]
      exact List.mem_singleton.mpr rfl))
    unfold Holds at hkept
    rw [ha, hb, hab] at hkept
    exact nomatch hkept
  · have hkept := h (drone n 'b') (List.mem_append_right _ (by
      rw [splitSegments_of_solid hsb]
      exact List.mem_singleton.mpr rfl))
    unfold Holds at hkept
    rw [ha, hb, hba] at hkept
    exact nomatch hkept

/-- Of two long sentences one is dropped. -/
theorem buildMergedText_drops :
    ¬ KeepsSegments .ascii (drone 600 'a') (drone 601 'b')
      (buildMergedText .ascii (drone 600 'a') (drone 601 'b')) :=
  not_keepsSegments_drones (by decide) (by decide)

end Runir
