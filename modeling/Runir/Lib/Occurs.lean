import Runir.Lib.Text

/-!
# Library — Occurs

Where a text stands in another, and what a search for its first place finds.

* `OccursAt`: a needle stands at a place of a text.
* `indexOfChars_eq_some_iff`, `indexOfChars_eq_none_iff`: `indexOf` finds the first place.
* `includes_iff`: `includes` holds of the texts that are part of another.
-/

namespace Runir

namespace Text

variable {needle hay : List Char}

/-- `needle` stands in `hay` at place `i`. -/
def OccursAt (needle hay : List Char) (i : Nat) : Prop := needle <+: hay.drop i

instance (needle hay : List Char) (i : Nat) : Decidable (OccursAt needle hay i) :=
  inferInstanceAs (Decidable (needle <+: hay.drop i))

theorem exists_occursAt_iff : (∃ i, OccursAt needle hay i) ↔ needle <:+: hay := by
  constructor
  · rintro ⟨i, hi⟩
    exact hi.isInfix.trans (List.drop_suffix i hay).isInfix
  · rintro ⟨front, back, rfl⟩
    refine ⟨front.length, back, ?_⟩
    rw [List.append_assoc, List.drop_left]

/-- `indexOf` finds the first place. -/
theorem indexOfChars_eq_some_iff {i : Nat} : indexOfChars needle hay = some i ↔
    OccursAt needle hay i ∧ ∀ j < i, ¬ OccursAt needle hay j := by
  induction hay generalizing i with
  | nil =>
      rw [indexOfChars]
      cases needle with
      | nil =>
          constructor
          · rintro ⟨⟩
            exact ⟨List.prefix_rfl, fun j hj => absurd hj (Nat.not_lt_zero j)⟩
          · rintro ⟨-, hfirst⟩
            cases i with
            | zero => rfl
            | succ i => exact absurd List.prefix_rfl (hfirst 0 (Nat.succ_pos i))
      | cons c needle =>
          refine ⟨(nomatch ·), fun ⟨h, _⟩ => ?_⟩
          rw [OccursAt, List.drop_nil] at h
          exact absurd (List.prefix_nil.mp h) (List.cons_ne_nil c needle)
  | cons c hay ih =>
      rw [indexOfChars]
      by_cases hhere : needle <+: c :: hay
      · rw [if_pos (List.isPrefixOf_iff_prefix.mpr hhere)]
        constructor
        · rintro ⟨⟩
          exact ⟨hhere, fun j hj => absurd hj (Nat.not_lt_zero j)⟩
        · rintro ⟨-, hfirst⟩
          cases i with
          | zero => rfl
          | succ i => exact absurd hhere (hfirst 0 (Nat.succ_pos i))
      · rw [if_neg fun h => hhere (List.isPrefixOf_iff_prefix.mp h), Option.map_eq_some_iff]
        constructor
        · rintro ⟨i, hi, rfl⟩
          obtain ⟨hoccurs, hfirst⟩ := ih.mp hi
          refine ⟨hoccurs, fun j hj => ?_⟩
          cases j with
          | zero => exact hhere
          | succ j => exact hfirst j (Nat.lt_of_succ_lt_succ hj)
        · rintro ⟨hoccurs, hfirst⟩
          cases i with
          | zero => exact absurd hoccurs hhere
          | succ i =>
              exact ⟨i, ih.mpr ⟨hoccurs, fun j hj => hfirst (j + 1) (Nat.succ_lt_succ hj)⟩, rfl⟩

theorem indexOfChars_eq_none_iff :
    indexOfChars needle hay = none ↔ ∀ i, ¬ OccursAt needle hay i := by
  constructor
  · intro hnone i hi
    have hfirst : ∃ i, OccursAt needle hay i := ⟨i, hi⟩
    have hsome := indexOfChars_eq_some_iff.mpr
      ⟨Nat.find_spec hfirst, fun j hj => Nat.find_min hfirst hj⟩
    exact nomatch hnone.symm.trans hsome
  · intro hno
    cases hsome : indexOfChars needle hay with
    | none => rfl
    | some i => exact absurd (indexOfChars_eq_some_iff.mp hsome).1 (hno i)

theorem includes_iff {s t : String} : includes s t = true ↔ t.toList <:+: s.toList := by
  unfold includes indexOf
  rw [Option.isSome_iff_ne_none, Ne, indexOfChars_eq_none_iff, ← exists_occursAt_iff]
  exact ⟨fun h => not_forall_not.mp h, fun h => not_forall_not.mpr h⟩

end Text

end Runir
