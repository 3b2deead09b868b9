import Runir.Lib.Lists
import Runir.Lib.Occurs
import Runir.Writes.Signals

/-!
# Writes — Statements

Where `findLeftmostDelimiter` splits a statement, over every text and every minimum index.

* `SplitsAt`: a delimiter stands at a place that the minimum index admits; `IsLeftmost`: an answer
  is the leftmost such place.
* `FirstAmong`: what the loop has found among the delimiters it has seen.  It asks each delimiter
  for its first place only, so a place it finds is the first of its delimiter.
* `findLeftmostDelimiter_leftmost_iff`: the answer is the leftmost place if and only if some
  delimiter stands there that stands nowhere before (`OpensThere`).
-/

namespace Runir

open Text

variable {normalized : String} {minIndex : Nat}

/-- A delimiter stands at place `i`, at or after the minimum index. -/
structure SplitsAt (normalized : String) (minIndex i : Nat) (delimiter : String) : Prop where
  listed : delimiter ∈ statementDelimiters
  occurs : OccursAt delimiter.toList normalized.toList i
  late : minIndex ≤ unitsBefore normalized i

inductive IsLeftmost (normalized : String) (minIndex : Nat) : Option (Nat × String) → Prop where
  | nowhere (never : ∀ i d, ¬ SplitsAt normalized minIndex i d) : IsLeftmost normalized minIndex none
  | place {i : Nat} {d : String} (splits : SplitsAt normalized minIndex i d)
      (least : ∀ j e, SplitsAt normalized minIndex j e → i ≤ j) :
      IsLeftmost normalized minIndex (some (i, d))

/-- At the leftmost place there stands a delimiter that stands nowhere before. -/
def OpensThere (normalized : String) (minIndex : Nat) : Prop :=
  ∀ i d, SplitsAt normalized minIndex i d → (∀ j e, SplitsAt normalized minIndex j e → i ≤ j) →
    ∃ e, SplitsAt normalized minIndex i e ∧
      ∀ j, OccursAt e.toList normalized.toList j → i ≤ j

/-- `deriveStatementKey` returns the text before the leftmost place from index 8 on. -/
def KeyStopsThere (host : Host) (text : String) : Prop :=
  ∀ i d, SplitsAt (normalizeText host text) 8 i d →
    (∀ j e, SplitsAt (normalizeText host text) 8 j e → i ≤ j) →
      deriveStatementKey host text = trim (sliceTo (normalizeText host text) i)

/-! ### The loop -/

/-- The first place of a delimiter is one the minimum index admits. -/
def FirstAt (normalized : String) (minIndex : Nat) (d : String) (i : Nat) : Prop :=
  indexOf normalized d = some i ∧ minIndex ≤ unitsBefore normalized i

/-- What the loop has found among the delimiters it has seen. -/
def FirstAmong (normalized : String) (minIndex : Nat) (seen : List String) :
    Option (Nat × String) → Prop
  | none => ∀ d ∈ seen, ∀ i, ¬ FirstAt normalized minIndex d i
  | some split => split.2 ∈ seen ∧ FirstAt normalized minIndex split.2 split.1 ∧
      ∀ d ∈ seen, ∀ i, FirstAt normalized minIndex d i → split.1 ≤ i

variable {seen : List String} {best : Option (Nat × String)} {d : String}

theorem FirstAmong.skip (h : FirstAmong normalized minIndex seen best)
    (hno : ∀ i, ¬ FirstAt normalized minIndex d i) :
    FirstAmong normalized minIndex (seen ++ [d]) best := by
  cases best with
  | none =>
      intro e he i hi
      rcases List.mem_append.mp he with he | he
      · exact h e he i hi
      · exact hno i (List.mem_singleton.mp he ▸ hi)
  | some split =>
      obtain ⟨hmem, hfirst, hleast⟩ := h
      refine ⟨List.mem_append_left _ hmem, hfirst, fun e he i hi => ?_⟩
      rcases List.mem_append.mp he with he | he
      · exact hleast e he i hi
      · exact absurd (List.mem_singleton.mp he ▸ hi) (hno i)

theorem FirstAmong.keep {split : Nat × String} {index : Nat}
    (h : FirstAmong normalized minIndex seen (some split)) (hd : FirstAt normalized minIndex d index)
    (hle : split.1 ≤ index) : FirstAmong normalized minIndex (seen ++ [d]) (some split) := by
  obtain ⟨hmem, hfirst, hleast⟩ := h
  refine ⟨List.mem_append_left _ hmem, hfirst, fun e he i hi => ?_⟩
  rcases List.mem_append.mp he with he | he
  · exact hleast e he i hi
  · obtain rfl := List.mem_singleton.mp he
    exact Option.some.inj (hd.1.symm.trans hi.1) ▸ hle

theorem FirstAmong.take {index : Nat} (h : FirstAmong normalized minIndex seen best)
    (hd : FirstAt normalized minIndex d index) (hlt : ∀ split, best = some split → index < split.1) :
    FirstAmong normalized minIndex (seen ++ [d]) (some (index, d)) := by
  refine ⟨List.mem_append_right _ (List.mem_singleton.mpr rfl), hd, fun e he i hi => ?_⟩
  rcases List.mem_append.mp he with he | he
  · cases best with
    | none => exact absurd hi (h e he i)
    | some split => exact (hlt split rfl).le.trans (h.2.2 e he i hi)
  · obtain rfl := List.mem_singleton.mp he
    exact (Option.some.inj (hd.1.symm.trans hi.1)).le

theorem firstAmong_findLeftmostDelimiter (normalized : String) (minIndex : Nat) :
    FirstAmong normalized minIndex statementDelimiters
      (findLeftmostDelimiter normalized minIndex) := by
  have hnil : FirstAmong normalized minIndex [] none := fun d hd => nomatch hd
  refine foldl_of_steps (P := FirstAmong normalized minIndex) ?_ statementDelimiters hnil
  intro seen best d h
  cases hindex : indexOf normalized d with
  | none => exact h.skip fun i hi => nomatch hindex.symm.trans hi.1
  | some index =>
      dsimp only
      by_cases hearly : unitsBefore normalized index < minIndex
      · rw [if_pos hearly]
        refine h.skip fun i hi => Nat.not_lt.mpr hi.2 ?_
        exact Option.some.inj (hindex.symm.trans hi.1) ▸ hearly
      · rw [if_neg hearly]
        have hd : FirstAt normalized minIndex d index := ⟨hindex, Nat.not_lt.mp hearly⟩
        cases best with
        | none => exact h.take hd fun split hsplit => nomatch hsplit
        | some split =>
            dsimp only
            by_cases hbefore : index < split.1
            · rw [if_pos hbefore]
              exact h.take hd fun other hother => Option.some.inj hother ▸ hbefore
            · rw [if_neg hbefore]
              exact h.keep hd (Nat.not_lt.mp hbefore)

/-! ### The leftmost place -/

theorem SplitsAt.exists_least {i : Nat} {d : String} (h : SplitsAt normalized minIndex i d) :
    ∃ j e, SplitsAt normalized minIndex j e ∧ ∀ k f, SplitsAt normalized minIndex k f → j ≤ k := by
  classical
  have hsome : ∃ j e, SplitsAt normalized minIndex j e := ⟨i, d, h⟩
  obtain ⟨e, he⟩ := Nat.find_spec hsome
  exact ⟨Nat.find hsome, e, he, fun k f hk => Nat.find_min' hsome ⟨f, hk⟩⟩

/-- A delimiter that splits and stands nowhere before is found at its place. -/
theorem SplitsAt.indexOf_eq {i : Nat} {d : String} (h : SplitsAt normalized minIndex i d)
    (hfirst : ∀ j, OccursAt d.toList normalized.toList j → i ≤ j) :
    indexOf normalized d = some i :=
  indexOfChars_eq_some_iff.mpr ⟨h.occurs, fun j hj hoccurs => Nat.not_lt.mpr (hfirst j hoccurs) hj⟩

/-- What is found is a place, and the first of its delimiter. -/
theorem splitsAt_of_findLeftmostDelimiter {split : Nat × String}
    (h : findLeftmostDelimiter normalized minIndex = some split) :
    SplitsAt normalized minIndex split.1 split.2 ∧
      ∀ j, OccursAt split.2.toList normalized.toList j → split.1 ≤ j := by
  have hfound := firstAmong_findLeftmostDelimiter normalized minIndex
  rw [h] at hfound
  obtain ⟨hmem, ⟨hindex, hlate⟩, -⟩ := hfound
  obtain ⟨hoccurs, hfirst⟩ := indexOfChars_eq_some_iff.mp hindex
  exact ⟨⟨hmem, hoccurs, hlate⟩, fun j hj => Nat.not_lt.mp fun hlt => hfirst j hlt hj⟩

theorem isLeftmost_iff (normalized : String) (minIndex : Nat) :
    IsLeftmost normalized minIndex (findLeftmostDelimiter normalized minIndex) ↔
      OpensThere normalized minIndex := by
  have hfound := firstAmong_findLeftmostDelimiter normalized minIndex
  constructor
  · intro h i d hsplits hleast
    generalize hfind : findLeftmostDelimiter normalized minIndex = found at h
    cases h with
    | nowhere hnone => exact absurd hsplits (hnone i d)
    | @place j e hj hfirst =>
        obtain rfl : i = j := le_antisymm (hleast j e hj) (hfirst i d hsplits)
        exact ⟨e, splitsAt_of_findLeftmostDelimiter hfind⟩
  · intro h
    -- the delimiter that opens at the leftmost place is one the loop finds
    have hopens : ∀ i d, SplitsAt normalized minIndex i d → ∃ j e, j ≤ i ∧
        SplitsAt normalized minIndex j e ∧ indexOf normalized e = some j := by
      intro i d hsplits
      obtain ⟨j, e, hj, hleast⟩ := hsplits.exists_least
      obtain ⟨f, hf, hfirst⟩ := h j e hj hleast
      exact ⟨j, f, hleast i d hsplits, hf, hf.indexOf_eq hfirst⟩
    cases hfind : findLeftmostDelimiter normalized minIndex with
    | none =>
        rw [hfind] at hfound
        refine .nowhere fun i d hsplits => ?_
        obtain ⟨j, e, -, he, hindex⟩ := hopens i d hsplits
        exact hfound e he.listed j ⟨hindex, he.late⟩
    | some split =>
        rw [hfind] at hfound
        refine .place (splitsAt_of_findLeftmostDelimiter hfind).1 fun i d hsplits => ?_
        obtain ⟨j, e, hle, he, hindex⟩ := hopens i d hsplits
        exact (hfound.2.2 e he.listed j ⟨hindex, he.late⟩).trans hle

theorem keyStopsThere_of_isLeftmost {host : Host} {text : String}
    (h : IsLeftmost (normalizeText host text) 8
      (findLeftmostDelimiter (normalizeText host text) 8)) : KeyStopsThere host text := by
  intro i d hsplits hleast
  unfold deriveStatementKey
  dsimp only
  generalize findLeftmostDelimiter (normalizeText host text) 8 = found at h
  cases h with
  | nowhere hnone => exact absurd hsplits (hnone i d)
  | @place j e hj hfirst => rw [le_antisymm (hleast j e hj) (hfirst i d hsplits)]

/-- The split is at the leftmost place exactly where some delimiter stands there for the first
time, and then the key of a statement stops there. -/
theorem findLeftmostDelimiter_leftmost_iff (host : Host) (normalized text : String)
    (minIndex : Nat) :
    (IsLeftmost normalized minIndex (findLeftmostDelimiter normalized minIndex) ↔
        OpensThere normalized minIndex) ∧
      ((IsLeftmost (normalizeText host text) 8
            (findLeftmostDelimiter (normalizeText host text) 8) ∧ KeyStopsThere host text) ↔
        OpensThere (normalizeText host text) 8) :=
  ⟨isLeftmost_iff normalized minIndex,
    fun h => (isLeftmost_iff _ _).mp h.1, fun h =>
      have hleft := (isLeftmost_iff _ _).mpr h
      ⟨hleft, keyStopsThere_of_isLeftmost hleft⟩⟩

theorem KeyStopsThere.key_eq {host : Host} {text : String} (h : KeyStopsThere host text)
    (hnormal : normalizeText host text = normalized) {i : Nat} {d : String}
    (hsplits : SplitsAt normalized 8 i d) (hleast : ∀ j e, SplitsAt normalized 8 j e → i ≤ j) :
    deriveStatementKey host text = trim (sliceTo normalized i) := by
  subst hnormal
  exact h i d hsplits hleast

/-- A colon that also stands at index 3 is not found at index 12. -/
theorem findLeftmostDelimiter_late_colon :
    ¬ IsLeftmost "api: version: 3" 8 (findLeftmostDelimiter "api: version: 3" 8) ∧
      ¬ KeyStopsThere Host.ascii "API: version: 3" := by
  have hsplits : SplitsAt "api: version: 3" 8 12 ":" :=
    ⟨by decide, by decide +kernel, by decide +kernel⟩
  have hearlier : ∀ j < 12, ∀ e ∈ statementDelimiters,
      ¬ (OccursAt e.toList "api: version: 3".toList j ∧ 8 ≤ unitsBefore "api: version: 3" j) := by
    decide +kernel
  have hleast : ∀ j e, SplitsAt "api: version: 3" 8 j e → 12 ≤ j := fun j e hj =>
    Nat.not_lt.mp fun hlt => hearlier j hlt e hj.listed ⟨hj.occurs, hj.late⟩
  constructor
  · rw [show findLeftmostDelimiter "api: version: 3" 8 = none by decide +kernel]
    rintro ⟨hnone⟩
    exact hnone 12 ":" hsplits
  · intro h
    have hkey := h.key_eq (by decide +kernel) hsplits hleast
    exact absurd hkey (by decide +kernel)

end Runir
