import Mathlib.Order.Lattice

/-!
# Library — TaggedJoin

Elements of a join-semilattice that carry a tag: two of them have a join where their tags agree,
and none otherwise.

* `tagJoin`: the partial join.
* `tagJoin_comm`, `tagJoin_assoc`, `tagJoin_self`: the laws of a semilattice, where a side that has
  no join is equal to a side that has none.
-/

namespace Runir

variable {τ σ : Type*} [DecidableEq τ] [SemilatticeSup σ]

def tagJoin (a b : τ × σ) : Option (τ × σ) :=
  if a.1 = b.1 then some (a.1, a.2 ⊔ b.2) else none

theorem tagJoin_of_eq {a b : τ × σ} (h : a.1 = b.1) : tagJoin a b = some (a.1, a.2 ⊔ b.2) :=
  if_pos h

theorem tagJoin_of_ne {a b : τ × σ} (h : a.1 ≠ b.1) : tagJoin a b = none :=
  if_neg h

theorem tagJoin_self (a : τ × σ) : tagJoin a a = some a := by
  rw [tagJoin_of_eq rfl, sup_idem]

theorem tagJoin_comm (a b : τ × σ) : tagJoin a b = tagJoin b a := by
  by_cases h : a.1 = b.1
  · rw [tagJoin_of_eq h, tagJoin_of_eq h.symm, h, sup_comm]
  · rw [tagJoin_of_ne h, tagJoin_of_ne (Ne.symm h)]

theorem tagJoin_assoc (a b c : τ × σ) :
    ((tagJoin a b).bind fun j => tagJoin j c) = (tagJoin b c).bind fun j => tagJoin a j := by
  by_cases hab : a.1 = b.1
  · by_cases hbc : b.1 = c.1
    · simp [tagJoin, hab, hbc, sup_assoc]
    · simp [tagJoin, hab, hbc]
  · by_cases hbc : b.1 = c.1
    · have hac : ¬a.1 = c.1 := fun h => hab (h.trans hbc.symm)
      simp [tagJoin, hbc, hac]
    · simp [tagJoin, hab, hbc]

end Runir
