import Mathlib.Algebra.Order.BigOperators.Group.List
import Mathlib.Algebra.Order.Field.Rat
import Mathlib.Data.PNat.Basic
import Mathlib.Tactic.Positivity

/-!
# Library — Reciprocal ranks

Several rankings made one: each gives what it ranks a share that falls with the rank, and what it
does not rank nothing.

* `Leg`, `Leg.share`, `fusedScore`: a ranking with its weight, what it gives, and the sum over all.
* `Dominates`: ranked at least as well by every leg, where no rank is the worst.
* `fusedScore_le_of_dominates`: what dominates has at least the score.
* `pairwise_of_falling`: in a list by falling score, what comes after and dominates has the same.
-/

namespace Runir

/-- A ranking. -/
structure Leg (ι : Type*) where
  weight : ℚ
  rank : ι → Option ℕ+

namespace Leg
variable {ι : Type*}

/-- What a leg gives to an element. -/
def share (k : ℚ) (leg : Leg ι) (i : ι) : ℚ :=
  (leg.rank i).elim 0 fun r => leg.weight / (k + (r : ℕ))

/-- The score of an element. -/
def fusedScore (k : ℚ) (legs : List (Leg ι)) (i : ι) : ℚ := (legs.map fun leg => leg.share k i).sum

/-- A rank is at least as good as another; the worst is to have none. -/
def AtLeast : Option ℕ+ → Option ℕ+ → Prop
  | _, none => True
  | none, some _ => False
  | some a, some b => a ≤ b

/-- `i` is ranked at least as well as `j` in every leg. -/
def Dominates (legs : List (Leg ι)) (i j : ι) : Prop :=
  ∀ leg ∈ legs, AtLeast (leg.rank i) (leg.rank j)

variable {k : ℚ} {leg : Leg ι} {legs : List (Leg ι)} {i j : ι}

theorem share_le_of_atLeast (hk : 0 ≤ k) (hweight : 0 ≤ leg.weight)
    (h : AtLeast (leg.rank i) (leg.rank j)) : leg.share k j ≤ leg.share k i := by
  have hpos : ∀ r : ℕ+, 0 < k + ((r : ℕ) : ℚ) := by
    intro r
    have hr : (0 : ℚ) < ((r : ℕ) : ℚ) := Nat.cast_pos.mpr r.pos
    exact add_pos_of_nonneg_of_pos hk hr
  unfold share
  cases hj : leg.rank j with
  | none =>
      cases hi : leg.rank i with
      | none => exact le_refl _
      | some a => exact div_nonneg hweight (hpos a).le
  | some b =>
      cases hi : leg.rank i with
      | none =>
          rw [hi, hj] at h
          exact h.elim
      | some a =>
          rw [hi, hj] at h
          have hab : ((a : ℕ) : ℚ) ≤ ((b : ℕ) : ℚ) := Nat.cast_le.mpr h
          exact div_le_div_of_nonneg_left hweight (hpos a) (add_le_add_right hab k)

/-- **What dominates has at least the score.** -/
theorem fusedScore_le_of_dominates (hk : 0 ≤ k) (hweights : ∀ leg ∈ legs, 0 ≤ leg.weight)
    (h : Dominates legs i j) : fusedScore k legs j ≤ fusedScore k legs i :=
  List.sum_le_sum fun leg hleg => share_le_of_atLeast hk (hweights leg hleg) (h leg hleg)

/-- In a list by falling score, what comes after an element and dominates it has the same score. -/
theorem pairwise_of_falling (hk : 0 ≤ k) (hweights : ∀ leg ∈ legs, 0 ≤ leg.weight) {α : Type*}
    {id : α → ι} {score : α → ℚ} {xs : List α}
    (hscore : ∀ x ∈ xs, score x = fusedScore k legs (id x))
    (hfalling : xs.Pairwise fun x y => score y ≤ score x) :
    xs.Pairwise fun x y => Dominates legs (id y) (id x) → score x = score y := by
  refine hfalling.imp_of_mem fun {x y} hx hy hle hdominates => ?_
  have hge := fusedScore_le_of_dominates hk hweights hdominates
  rw [← hscore x hx, ← hscore y hy] at hge
  exact le_antisymm hge hle

end Leg

end Runir
