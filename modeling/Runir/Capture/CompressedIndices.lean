import Runir.Capture.SessionCompressor

/-!
# Capture — Compressed indices

When a conversation is compressed to the messages that were selected, each with the index it has.

* `Extends`: what every step of the selection keeps; `Tried`: that an index was taken or does not
  fit.
* `selectTexts_tried`: no text that is left out would still fit.
* `KeepsSelected`, `keepsSelected_iff`: the messages at the selected indices are returned, and their
  indices, if and only if no message that was left out has the content of a later one that was
  selected, unless one that was selected stands between.

The indices are found again twice, by content and by identity, and each time the first that agrees
is taken (`Leftmost`).
-/

namespace Runir
open Leftmost

/-! ### The selection -/

/-- `texts[i].length`. -/
def lengthAt (texts : List String) (i : Nat) : Nat := ((texts[i]?).map Text.length).getD 0

section
variable {texts : List String} {maxChars : ℚ} {s s' s'' : Selection}

theorem lengthAt_of_getElem? {i : Nat} {text : String} (h : texts[i]? = some text) :
    lengthAt texts i = Text.length text := by
  rw [lengthAt, h]
  rfl

/-- The indices are of texts, each taken once, and what they use is within the budget. -/
structure Selection.Fits (texts : List String) (maxChars : ℚ) (s : Selection) : Prop where
  nodup : s.indices.Nodup
  lt : ∀ i ∈ s.indices, i < texts.length
  used : s.usedChars = (s.indices.map (lengthAt texts)).sum
  le : (s.usedChars : ℚ) ≤ maxChars

/-- A later selection: nothing is given back, and what fits still fits. -/
structure Extends (texts : List String) (maxChars : ℚ) (s s' : Selection) : Prop where
  indices : s.indices ⊆ s'.indices
  used : s.usedChars ≤ s'.usedChars
  fits : s.Fits texts maxChars → s'.Fits texts maxChars

theorem Extends.refl (s : Selection) : Extends texts maxChars s s :=
  ⟨fun _ hi => hi, Nat.le_refl _, id⟩

theorem Extends.trans (h : Extends texts maxChars s s') (h' : Extends texts maxChars s' s'') :
    Extends texts maxChars s s'' :=
  ⟨fun _ hi => h'.indices (h.indices hi), Nat.le_trans h.used h'.used, fun hs => h'.fits (h.fits hs)⟩

/-- The index was taken, or its text does not fit. -/
def Tried (texts : List String) (maxChars : ℚ) (s : Selection) (i : Nat) : Prop :=
  i ∈ s.indices ∨ maxChars < (s.usedChars + lengthAt texts i : Nat)

theorem Tried.mono {i : Nat} (h : Tried texts maxChars s i) (hext : Extends texts maxChars s s') :
    Tried texts maxChars s' i := by
  rcases h with h | h
  · exact Or.inl (hext.indices h)
  · refine Or.inr (lt_of_lt_of_le h ?_)
    exact_mod_cast Nat.add_le_add_right hext.used _

/-- What `addIndex` does. -/
theorem addIndex_cases (texts : List String) (maxChars : ℚ) (s : Selection) (i : Nat) :
    (addIndex texts maxChars s i = (s, false) ∧ (i < texts.length → Tried texts maxChars s i)) ∨
    (i < texts.length ∧ i ∉ s.indices ∧ ((s.usedChars + lengthAt texts i : Nat) : ℚ) ≤ maxChars ∧
      addIndex texts maxChars s i = (⟨s.indices ++ [i], s.usedChars + lengthAt texts i⟩, true)) := by
  unfold addIndex
  cases htext : texts[i]? with
  | none =>
      refine Or.inl ⟨rfl, fun hi => ?_⟩
      exact absurd (List.getElem?_eq_none_iff.mp htext) (Nat.not_le_of_lt hi)
  | some text =>
      have hi := (List.getElem?_eq_some_iff.mp htext).1
      have hlength := lengthAt_of_getElem? htext
      by_cases hmem : i ∈ s.indices
      · exact Or.inl ⟨if_pos hmem, fun _ => Or.inl hmem⟩
      · by_cases hfit : maxChars < (s.usedChars + Text.length text : Nat)
        · refine Or.inl ⟨?_, fun _ => Or.inr (by rwa [hlength])⟩
          simp only [if_neg hmem, if_pos hfit]
        · refine Or.inr ⟨hi, hmem, by rw [hlength]; exact not_lt.mp hfit, ?_⟩
          simp only [if_neg hmem, if_neg hfit, hlength]

theorem addIndex_extends (s : Selection) (i : Nat) :
    Extends texts maxChars s (addIndex texts maxChars s i).1 := by
  rcases addIndex_cases texts maxChars s i with ⟨h, -⟩ | ⟨hi, hnot, hle, h⟩
  · rw [h]
    exact Extends.refl s
  · rw [h]
    refine ⟨fun j hj => List.mem_append_left _ hj, Nat.le_add_right _ _, fun hs => ?_⟩
    refine ⟨?_, ?_, ?_, hle⟩
    · refine List.nodup_append.mpr ⟨hs.nodup, List.nodup_singleton i, ?_⟩
      intro j hj k hk hjk
      rw [List.mem_singleton] at hk
      subst hjk hk
      exact hnot hj
    · intro j hj
      rcases List.mem_append.mp hj with hj | hj
      · exact hs.lt j hj
      · rwa [List.mem_singleton.mp hj]
    · simp [hs.used]

theorem addIndex_tried (s : Selection) {i : Nat} (hi : i < texts.length) :
    Tried texts maxChars (addIndex texts maxChars s i).1 i := by
  rcases addIndex_cases texts maxChars s i with ⟨h, htried⟩ | ⟨-, -, -, h⟩
  · rw [h]
    exact htried hi
  · rw [h]
    exact Or.inl (List.mem_append_right _ (List.mem_singleton_self i))

theorem addAll_extends (s : Selection) (idxs : List Nat) :
    Extends texts maxChars s (addAll texts maxChars s idxs) := by
  induction idxs generalizing s with
  | nil => exact Extends.refl s
  | cons i idxs ih => exact (addIndex_extends s i).trans (ih _)

theorem addAll_tried (s : Selection) {idxs : List Nat} {i : Nat} (hmem : i ∈ idxs)
    (hi : i < texts.length) : Tried texts maxChars (addAll texts maxChars s idxs) i := by
  induction idxs generalizing s with
  | nil => simp at hmem
  | cons j idxs ih =>
      rcases List.mem_cons.mp hmem with rfl | hmem
      · exact (addIndex_tried s hi).mono (addAll_extends _ idxs)
      · exact ih _ hmem

/-- A candidate is tried before its partner. -/
theorem addIndex_extends_addPair (pairs : OrdMap Nat Nat) (s : Selection) (i : Nat) :
    Extends texts maxChars (addIndex texts maxChars s i).1
      (addPair texts maxChars pairs s i) := by
  simp only [addPair]
  split
  · split
    · exact addIndex_extends _ _
    · exact Extends.refl _
  · exact Extends.refl _

theorem addCandidates_extends (pairs : OrdMap Nat Nat) (s : Selection) (cs : List ScoredText) :
    Extends texts maxChars s (addCandidates texts maxChars pairs s cs) := by
  induction cs generalizing s with
  | nil => exact Extends.refl s
  | cons c cs ih =>
      rw [addCandidates]
      split
      · exact Extends.refl s
      · exact ((addIndex_extends s c.index).trans (addIndex_extends_addPair pairs s c.index)).trans
          (ih _)

/-- The loop looks at a text that is not empty, or it has ended with the budget used up. -/
theorem addCandidates_tried (pairs : OrdMap Nat Nat) (s : Selection) {cs : List ScoredText}
    {c : ScoredText} (hc : c ∈ cs) (hi : c.index < texts.length)
    (hpos : 0 < lengthAt texts c.index) :
    Tried texts maxChars (addCandidates texts maxChars pairs s cs) c.index := by
  induction cs generalizing s with
  | nil => simp at hc
  | cons d cs ih =>
      rw [addCandidates]
      by_cases hfull : maxChars ≤ (s.usedChars : ℚ)
      · rw [if_pos hfull]
        refine Or.inr (lt_of_le_of_lt hfull ?_)
        exact_mod_cast Nat.lt_add_of_pos_right hpos
      · rw [if_neg hfull]
        rcases List.mem_cons.mp hc with rfl | hc
        · exact (addIndex_tried s hi).mono
            ((addIndex_extends_addPair pairs s c.index).trans (addCandidates_extends pairs _ cs))
        · exact ih _ hc

theorem fillLast_extends (enough : Nat) (s : Selection) (n : Nat) :
    Extends texts maxChars s (fillLast texts maxChars enough s n) := by
  induction n generalizing s with
  | zero => exact Extends.refl s
  | succ i ih =>
      rw [fillLast]
      split
      · exact (addIndex_extends s i).trans (ih _)
      · exact Extends.refl s

/-- The text at an index that is neither the first nor the last is a candidate. -/
theorem exists_candidate {i : Nat} (hi : i < texts.length) (hfirst : i ≠ 0)
    (hlast : i ≠ texts.length - 1) :
    ∃ c ∈ sortedCandidates texts (scoreTexts texts), c.index = i := by
  refine ⟨scoreText texts[i] i, ?_, rfl⟩
  refine (List.mem_insertionSort _).mpr (List.mem_filter.mpr ⟨?_, ?_⟩)
  · exact List.mem_map.mpr ⟨(texts[i], i), List.mk_mem_zipIdx_iff_getElem?.mpr
      (List.getElem?_eq_getElem hi), rfl⟩
  · exact decide_eq_true ⟨hfirst, hlast⟩

theorem selectTexts_extends : Extends texts maxChars {} (selectTexts texts maxChars) := by
  have hbounds : Extends texts maxChars {} (addAll texts maxChars {}
    (0 :: if 1 < texts.length then [texts.length - 1] else [])) := addAll_extends _ _
  have hkept := hbounds.trans
    (addAll_extends _ (protectedEvidenceIndices (scoreTexts texts) texts))
  have hfilled := hkept.trans (addCandidates_extends (pairedWith texts (scoreTexts texts)) _
    (sortedCandidates texts (scoreTexts texts)))
  simp only [selectTexts]
  split
  · exact hfilled.trans (fillLast_extends _ _ _)
  · exact hfilled

/-- **No text that is left out would still fit.** -/
theorem selectTexts_tried {i : Nat} (hi : i < texts.length) (hpos : 0 < lengthAt texts i) :
    Tried texts maxChars (selectTexts texts maxChars) i := by
  have hfilled : Tried texts maxChars (addCandidates texts maxChars
      (pairedWith texts (scoreTexts texts)) (addAll texts maxChars (addAll texts maxChars {}
        (0 :: if 1 < texts.length then [texts.length - 1] else []))
          (protectedEvidenceIndices (scoreTexts texts) texts))
      (sortedCandidates texts (scoreTexts texts))) i := by
    by_cases hbound : i ∈ 0 :: if 1 < texts.length then [texts.length - 1] else []
    · exact ((addAll_tried {} hbound hi).mono (addAll_extends _ _)).mono
        (addCandidates_extends _ _ _)
    · have hfirst : i ≠ 0 := fun h => hbound (h ▸ List.mem_cons_self)
      have hlast : i ≠ texts.length - 1 := by
        intro h
        have hlong : 1 < texts.length := by omega
        refine hbound (List.mem_cons_of_mem _ ?_)
        rw [if_pos hlong, h]
        exact List.mem_singleton_self _
      obtain ⟨c, hc, rfl⟩ := exists_candidate hi hfirst hlast
      exact addCandidates_tried _ _ hc hi hpos
  simp only [selectTexts]
  split
  · exact hfilled.mono (fillLast_extends _ _ _)
  · exact hfilled

end

/-! ### The indices -/

section
variable {texts : List String} {maxChars : ℚ}

/-- What the selected indices are: rising, within the budget, and with nothing more to add. -/
structure Chosen (texts : List String) (maxChars : ℚ) (sel : List Nat) : Prop where
  rising : Rising 0 sel
  lt : ∀ i ∈ sel, i < texts.length
  le : (((sel.map (lengthAt texts)).sum : Nat) : ℚ) ≤ maxChars
  full : ∀ i < texts.length, i ∉ sel → 0 < lengthAt texts i →
    maxChars < ((sel.map (lengthAt texts)).sum + lengthAt texts i : Nat)

theorem sum_lengthAt_range (texts : List String) :
    ((List.range texts.length).map (lengthAt texts)).sum = totalLength texts := by
  congr 1
  refine List.ext_getElem (by simp) fun i h _ => ?_
  have hi : i < texts.length := by simpa using h
  simp [lengthAt, List.getElem?_eq_getElem hi]

theorem selectedIndices_chosen (texts : List String) (hmax : 0 ≤ maxChars) :
    Chosen texts maxChars (selectedIndices texts maxChars) := by
  rw [selectedIndices]
  split
  · next hall =>
      refine ⟨rising_iff.mpr ⟨fun _ _ => Nat.zero_le _, List.pairwise_lt_range⟩,
        fun i hi => List.mem_range.mp hi, by rwa [sum_lengthAt_range], fun i hi hnot => ?_⟩
      exact absurd (List.mem_range.mpr hi) hnot
  · have hempty : Selection.Fits texts maxChars {} :=
      ⟨List.nodup_nil, by simp, rfl, by simpa using hmax⟩
    have hfits := selectTexts_extends.fits hempty
    have hperm := List.perm_insertionSort (· ≤ ·) (selectTexts texts maxChars).indices
    have hsum := (hperm.map (lengthAt texts)).sum_eq.trans hfits.used.symm
    refine ⟨rising_iff.mpr ⟨fun _ _ => Nat.zero_le _, ?_⟩,
      fun i hi => hfits.lt i (hperm.mem_iff.mp hi), by rw [hsum]; exact hfits.le, ?_⟩
    · have hnodup := hperm.nodup_iff.mpr hfits.nodup
      have hsorted := List.pairwise_insertionSort (· ≤ ·) (selectTexts texts maxChars).indices
      exact (hsorted.and hnodup).imp fun h => Nat.lt_of_le_of_ne h.1 h.2
    · intro i hi hnot hpos
      rw [hsum]
      exact (selectTexts_tried hi hpos).resolve_left fun h => hnot (hperm.mem_iff.mpr h)

end

/-! ### Finding the indices again -/

section
variable {κ : Type*} [DecidableEq κ]

theorem places_range (keys : List κ) : Places keys (List.range keys.length) keys := by
  refine List.forall₂_iff_get.mpr ⟨by simp, fun i h _ => ?_⟩
  simp only [List.get_eq_getElem, List.getElem_range]
  exact List.getElem?_eq_getElem (by simpa using h)

theorem leftmost_range (keys : List κ) :
    leftmost keys 0 keys = some (List.range keys.length) := by
  refine (leftmost_eq_iff ?_ (places_range keys)).mpr fun i _ hnot s hs hlt _ => ?_
  · exact rising_iff.mpr ⟨fun _ _ => Nat.zero_le _, List.pairwise_lt_range⟩
  · exact absurd (List.mem_range.mpr (hlt.trans (List.mem_range.mp hs))) hnot

/-- The loop over the texts finds what `leftmost` finds. -/
theorem survivingIndices_eq {contents ts : List String} {start : Nat} {found : List Nat}
    (surviving : List Nat) (hfound : leftmost contents start ts = some found) (hbefore : ∀ i ∈ surviving, i < start) :
    survivingIndices contents ts start surviving = surviving ++ found := by
  induction ts generalizing start found surviving with
  | nil =>
      cases hfound
      rw [survivingIndices, List.append_nil]
  | cons t ts ih =>
      obtain ⟨i, hi, hrest⟩ := Option.bind_eq_some_iff.mp hfound
      obtain ⟨later, hlater, rfl⟩ := Option.map_eq_some_iff.mp hrest
      have hsearch : (List.range contents.length).find? (fun j =>
          decide (start ≤ j) && decide (contents[j]? = some t) && decide (j ∉ surviving)) =
          firstAt contents start t := by
        congr 1
        funext j
        by_cases hstart : start ≤ j
        · have hnot : j ∉ surviving := fun h => absurd (hbefore j h) (Nat.not_lt_of_le hstart)
          simp [hnot]
        · simp [hstart]
      have hstart := (firstAt_eq_some.mp hi).1.1
      rw [survivingIndices, hsearch, hi]
      simp only
      rw [ih _ hlater, List.append_assoc, List.singleton_append]
      intro j hj
      rcases List.mem_append.mp hj with hj | hj
      · exact (hbefore j hj).trans (Nat.lt_succ_of_le hstart)
      · rw [List.mem_singleton.mp hj]
        exact Nat.lt_succ_self i

theorem originalIndices_eq_leftmost {ι : Type} [DecidableEq ι] (messages : List ι) (start : Nat)
    (ms : List ι) :
    originalIndices messages start ms = leftmost messages start ms := by
  induction ms generalizing start with
  | nil => rfl
  | cons m ms ih =>
      simp only [originalIndices, leftmost, ih, firstAt]
      refine congrArg (Option.bind _) (funext fun i => ?_)
      cases leftmost messages (i + 1) ms with
      | none => rfl
      | some later => rfl

/-- Indices that agree with later ones, and those with still later ones, agree with the last only
where all agree. -/
theorem eq_of_le_le {is js ks : List Nat} (h : List.Forall₂ (· ≤ ·) is js)
    (h' : List.Forall₂ (· ≤ ·) js ks) (heq : is = ks) : js = ks := by
  subst heq
  induction h with
  | nil => cases h'; rfl
  | cons hle _ ih =>
      cases h' with
      | cons hge hrest => rw [Nat.le_antisymm hge hle, ih hrest]

end

/-! ### Messages -/

section
variable {ι : Type} [DecidableEq ι] (message : ι → CaptureMessage)

/-- The messages that were selected are returned with their indices, within the budget and with no
other that would still fit. -/
def KeepsSelected (messages : List ι) (maxChars : ℚ) : Prop :=
  ∃ kept, compressMessagesWithIndices message messages maxChars = some kept ∧
    kept.map Prod.snd = selectedIndices (contentsOf message messages) maxChars ∧
    (∀ e ∈ kept, messages[e.2]? = some e.1) ∧
    (kept.map Prod.snd).Pairwise (· < ·) ∧
    (totalLength (kept.map fun e => (message e.1).content) : ℚ) ≤ maxChars ∧
    ∀ i m, messages[i]? = some m → i ∉ kept.map Prod.snd →
      maxChars < (totalLength (kept.map fun e => (message e.1).content) +
        Text.length (message m).content : Nat)

variable {message} {messages : List ι} {maxChars : ℚ}

/-- Where the texts do not all fit, not all are selected. -/
theorem length_selectedIndices_lt {texts : List String} (hmax : 0 ≤ maxChars)
    (hlong : ¬(totalLength texts : ℚ) ≤ maxChars) :
    (selectedIndices texts maxChars).length < texts.length := by
  have hchosen := selectedIndices_chosen texts hmax
  by_contra hge
  have hsub : selectedIndices texts maxChars ⊆ List.range texts.length :=
    fun i hi => List.mem_range.mpr (hchosen.lt i hi)
  have hnodup := (rising_iff.mp hchosen.rising).2.imp Nat.ne_of_lt
  have hperm := (List.subperm_of_subset hnodup hsub).perm_of_length_le
    (by rw [List.length_range]; exact Nat.le_of_not_lt hge)
  refine hlong ?_
  have hsum := (hperm.map (lengthAt texts)).sum_eq.trans (sum_lengthAt_range texts)
  rw [← hsum]
  exact hchosen.le

/-- The compressed messages stand at the places where their contents are found again. -/
theorem compressMessages_eq (message : ι → CaptureMessage) (messages : List ι)
    (hmax : 0 ≤ maxChars) :
    ∃ found, leftmost (contentsOf message messages) 0
        ((selectedIndices (contentsOf message messages) maxChars).filterMap fun i =>
          (contentsOf message messages)[i]?) = some found ∧
      compressMessages message messages maxChars = found.filterMap fun i => messages[i]? := by
  set contents := contentsOf message messages with hcontents
  have hlength : contents.length = messages.length := by rw [hcontents, contentsOf, List.length_map]
  have hchosen := selectedIndices_chosen contents hmax
  by_cases hempty : messages = []
  · have hnil : contents = [] := by rw [hcontents, hempty]; rfl
    refine ⟨[], ?_, by simp [compressMessages, hempty]⟩
    rw [hnil]
    simp [leftmost]
  have hcontentsNe : contents.isEmpty = false := by
    rw [List.isEmpty_eq_false_iff, ← List.length_pos_iff, hlength]
    exact List.length_pos_iff.mpr hempty
  by_cases hall : (totalLength contents : ℚ) ≤ maxChars
  · -- everything fits, and the messages are returned as they are
    have hselected : selectedIndices contents maxChars = List.range contents.length := if_pos hall
    refine ⟨List.range contents.length, ?_, ?_⟩
    · rw [hselected, (places_range contents).filterMap_eq, leftmost_range]
    · rw [hlength, (places_range messages).filterMap_eq]
      simp [compressMessages, hempty, compressTexts, ← hcontents, hcontentsNe, hall]
  · have hselected : selectedIndices contents maxChars =
        (selectTexts contents maxChars).indices.insertionSort (· ≤ ·) := if_neg hall
    have hdropped := length_selectedIndices_lt hmax hall
    obtain ⟨found, hfound, hrising, -, -⟩ :=
      leftmost_of_places (Nat.le_refl 0) hchosen.rising (places_filterMap hchosen.lt)
    refine ⟨found, hfound, ?_⟩
    have hsorted : found.insertionSort (· ≤ ·) = found :=
      ((rising_iff.mp hrising).2.imp Nat.le_of_lt).insertionSort_eq
    have hsurviving := survivingIndices_eq [] hfound (by simp)
    rw [hselected] at hsurviving hdropped
    have hne := Nat.sub_ne_zero_of_lt hdropped
    simp only [compressMessages, List.isEmpty_eq_false_iff.mpr hempty, ← hcontents, compressTexts,
      hcontentsNe, hall, Bool.false_eq_true, if_false, hne, hsurviving, List.nil_append, hsorted]

/-- **What is returned**: the messages found again by content, at the indices where they are found
again by identity. -/
theorem compressMessagesWithIndices_eq (message : ι → CaptureMessage) (messages : List ι)
    (hmax : 0 ≤ maxChars) :
    ∃ found again kept, leftmost (contentsOf message messages) 0
        ((selectedIndices (contentsOf message messages) maxChars).filterMap fun i =>
          (contentsOf message messages)[i]?) = some found ∧
      leftmost messages 0 kept = some again ∧ Places messages found kept ∧
      compressMessagesWithIndices message messages maxChars = some (kept.zip again) := by
  obtain ⟨found, hfound, hcompressed⟩ := compressMessages_eq message messages hmax
  have hchosen := selectedIndices_chosen (contentsOf message messages) hmax
  have hspec := leftmost_of_places (Nat.le_refl 0) hchosen.rising (places_filterMap hchosen.lt)
  rw [hfound] at hspec
  obtain ⟨_, ⟨rfl⟩, hrising, hplaces, -⟩ := hspec
  have hkept : Places messages found (found.filterMap fun i => messages[i]?) := by
    refine places_filterMap fun i hi => ?_
    have hlt := hplaces.lt_length hi
    rwa [contentsOf, List.length_map] at hlt
  obtain ⟨again, hagain, -, -, -⟩ := leftmost_of_places (Nat.le_refl 0) hrising hkept
  refine ⟨found, again, _, hfound, hagain, hkept, ?_⟩
  simp only [compressMessagesWithIndices, hcompressed, originalIndices_eq_leftmost, hagain,
    Option.map_some]

omit [DecidableEq ι] in
/-- The contents at some places have the lengths they have there. -/
theorem totalLength_of_places {places : List Nat} {kept : List ι}
    (h : Places messages places kept) :
    totalLength (kept.map fun m => (message m).content) =
      (places.map (lengthAt (contentsOf message messages))).sum := by
  induction h with
  | nil => rfl
  | @cons s m _ _ hm _ ih =>
      have hlength : lengthAt (contentsOf message messages) s =
          Text.length (message m).content := by
        rw [lengthAt, contentsOf, List.getElem?_map, hm]
        rfl
      rw [List.map_cons, List.map_cons, List.sum_cons, hlength, ← ih]
      rfl

/-- **Compression keeps what it selected** if and only if there is a budget and no message that was
left out has the content of a later one that was selected, unless one that was selected stands
between. -/
theorem keepsSelected_iff (hcontents : ∀ m ∈ messages, (message m).content ≠ "") :
    KeepsSelected message messages maxChars ↔
      0 ≤ maxChars ∧
      ∀ i, i ∉ selectedIndices (contentsOf message messages) maxChars →
        ∀ s ∈ selectedIndices (contentsOf message messages) maxChars, i < s →
          (contentsOf message messages)[i]? = (contentsOf message messages)[s]? →
          ∃ r ∈ selectedIndices (contentsOf message messages) maxChars, i < r ∧ r < s := by
  constructor
  · rintro ⟨kept, hkept, hindices, -, -, hle, -⟩
    have hmax : 0 ≤ maxChars := le_trans (Nat.cast_nonneg _) hle
    have hchosen := selectedIndices_chosen (contentsOf message messages) hmax
    have hselected := places_filterMap hchosen.lt
    obtain ⟨found, again, ms, hfound, hagain, hplaces, heq⟩ :=
      compressMessagesWithIndices_eq message messages hmax
    obtain ⟨_, hfound', hrising, -, hbefore⟩ :=
      leftmost_of_places (Nat.le_refl 0) hchosen.rising hselected
    cases hfound.symm.trans hfound'
    obtain ⟨_, hagain', -, hagainPlaces, hbefore'⟩ :=
      leftmost_of_places (Nat.le_refl 0) hrising hplaces
    cases hagain.symm.trans hagain'
    cases hkept.symm.trans heq
    rw [hagainPlaces.map_zip.1] at hindices
    rw [eq_of_le_le hbefore' hbefore hindices] at hfound
    exact ⟨hmax, fun i hnot s hs hlt hkey =>
      (leftmost_eq_iff hchosen.rising hselected).mp hfound i (Nat.zero_le i) hnot s hs hlt hkey⟩
  · rintro ⟨hmax, hcond⟩
    have hchosen := selectedIndices_chosen (contentsOf message messages) hmax
    have hselected := places_filterMap hchosen.lt
    obtain ⟨found, again, ms, hfound, hagain, hplaces, heq⟩ :=
      compressMessagesWithIndices_eq message messages hmax
    have hsame := (leftmost_eq_iff hchosen.rising hselected).mpr fun i _ => hcond i
    cases hfound.symm.trans hsame
    -- messages that are the same have the same content, so they are found where they are, too
    have hidentity := (leftmost_eq_iff hchosen.rising hplaces).mpr fun i _ hnot s hs hlt hkey =>
      hcond i hnot s hs hlt (by simp only [contentsOf, List.getElem?_map, hkey])
    cases hagain.symm.trans hidentity
    obtain ⟨hsnd, hfst, hat⟩ := hplaces.map_zip
    have htotal : totalLength ((ms.zip (selectedIndices (contentsOf message messages)
        maxChars)).map fun e => (message e.1).content) =
        ((selectedIndices (contentsOf message messages) maxChars).map
          (lengthAt (contentsOf message messages))).sum := by
      rw [← totalLength_of_places hplaces, ← hfst, List.map_map, hfst]
      rfl
    refine ⟨_, heq, hsnd, hat, ?_, ?_, ?_⟩
    · rw [hsnd]
      exact (rising_iff.mp hchosen.rising).2
    · rw [htotal]
      exact hchosen.le
    · intro i m hm hnot
      rw [hsnd] at hnot
      have hi : i < (contentsOf message messages).length := by
        rw [contentsOf, List.length_map]
        exact (List.getElem?_eq_some_iff.mp hm).1
      have hlength : lengthAt (contentsOf message messages) i = Text.length (message m).content := by
        rw [lengthAt, contentsOf, List.getElem?_map, hm]
        rfl
      have hpos : 0 < Text.length (message m).content :=
        Text.length_pos (hcontents m (List.mem_of_getElem? hm))
      have hfull := hchosen.full i hi hnot (by rwa [hlength])
      rwa [hlength, ← htotal] at hfull

end

/-- A conversation whose last message repeats its second one. -/
def echoed : Nat → CaptureMessage
  | 0 => ⟨"user", "first"⟩
  | 1 => ⟨"user", "again"⟩
  | 2 => ⟨"assistant", "something"⟩
  | _ => ⟨"assistant", "again"⟩

/-- The last message is selected, and the second one is returned for it. -/
theorem echo_takes_place : (∀ m ∈ [0, 1, 2, 3], (echoed m).content ≠ "") ∧
    ¬KeepsSelected echoed [0, 1, 2, 3] 12 := by
  refine ⟨by decide, ?_⟩
  rintro ⟨kept, hkept, hindices, -⟩
  have hreturned : compressMessagesWithIndices echoed [0, 1, 2, 3] 12 = some [(0, 0), (1, 1)] := by
    decide +kernel
  have hselected : selectedIndices (contentsOf echoed [0, 1, 2, 3]) 12 = [0, 3] := by
    decide +kernel
  cases hkept.symm.trans hreturned
  rw [hselected] at hindices
  exact absurd hindices (by decide)

/-- Without the second message the last one is found. -/
theorem echo_alone : KeepsSelected echoed [0, 2, 3] 12 := by
  have hselected : selectedIndices (contentsOf echoed [0, 2, 3]) 12 = [0, 2] := by
    decide +kernel
  refine (keepsSelected_iff (by decide)).mpr ⟨by norm_num, ?_⟩
  rw [hselected]
  intro i hnot s hs hlt hkey
  have hi : i = 1 := by
    simp only [List.mem_cons, List.not_mem_nil, or_false] at hnot hs
    omega
  have hs : s = 2 := by
    simp only [List.mem_cons, List.not_mem_nil, or_false] at hs
    omega
  subst hi hs
  exact absurd hkey (by decide)

end Runir
