import Mathlib.Data.List.Nodup
import Runir.Lib.Text

/-!
# Library — Distinct

The first occurrence of each value of a list.

* `distinct_cons`, `distinct_filter`: `distinct` by cases, and under a filter.
* `distinctOn`: the first element of each key.
-/

namespace Runir
open List

section
variable {α : Type*} [DecidableEq α]

/-- What is seen already is left out, and stays in front. -/
theorem foldl_distinct (xs seen : List α) :
    xs.foldl (fun seen x => if x ∈ seen then seen else seen ++ [x]) seen =
      seen ++ distinct (xs.filter fun x => x ∉ seen) := by
  induction hlength : xs.length using Nat.strongRecOn generalizing xs seen with
  | _ n ih =>
    cases xs with
    | nil => exact (append_nil seen).symm
    | cons x xs =>
        have hxs : xs.length < n := hlength ▸ Nat.lt_succ_self _
        by_cases hx : x ∈ seen
        · rw [foldl_cons, if_pos hx, ih _ hxs xs seen rfl, filter_cons_of_neg (by simpa using hx)]
        · have hrest : (xs.filter fun x => x ∉ seen).length < n :=
            Nat.lt_of_le_of_lt (length_filter_le _ _) hxs
          have hboth : (fun y => decide (y ∉ seen ++ [x])) =
              fun y => decide (y ∉ [x]) && decide (y ∉ seen) := by
            funext y
            simp only [mem_append, not_or, Bool.decide_and, Bool.and_comm]
          have hfront : distinct (x :: xs.filter fun x => x ∉ seen) =
              [x] ++ distinct ((xs.filter fun x => x ∉ seen).filter fun y => y ∉ [x]) := by
            rw [← ih _ hrest _ [x] rfl]
            rfl
          rw [foldl_cons, if_neg hx, ih _ hxs xs _ rfl, filter_cons_of_pos (by simpa using hx), hfront,
            filter_filter, append_assoc, hboth]

theorem distinct_cons (x : α) (xs : List α) :
    distinct (x :: xs) = x :: distinct (xs.filter fun y => y ≠ x) := by
  have hfold := foldl_distinct xs [x]
  simp only [mem_singleton, singleton_append] at hfold
  exact hfold

theorem nodup_distinct (xs : List α) : (distinct xs).Nodup := by
  induction hlength : xs.length using Nat.strongRecOn generalizing xs with
  | _ n ih =>
    cases xs with
    | nil => exact nodup_nil
    | cons x xs =>
        have hxs : (xs.filter fun y => y ≠ x).length < n :=
          Nat.lt_of_le_of_lt (length_filter_le _ _) (hlength ▸ Nat.lt_succ_self _)
        rw [distinct_cons]
        refine nodup_cons.mpr ⟨fun hmem => ?_, ih _ hxs _ rfl⟩
        rw [mem_distinct, mem_filter, decide_eq_true_eq] at hmem
        exact hmem.2 rfl

theorem distinct_eq_self {xs : List α} (h : xs.Nodup) : distinct xs = xs := by
  induction xs with
  | nil => rfl
  | cons x xs ih =>
      obtain ⟨hx, hxs⟩ := nodup_cons.mp h
      have hfilter : (xs.filter fun y => y ≠ x) = xs := by
        refine filter_eq_self.mpr fun y hy => decide_eq_true ?_
        rintro rfl
        exact hx hy
      rw [distinct_cons, hfilter, ih hxs]

theorem distinct_filter (p : α → Bool) (xs : List α) :
    (distinct xs).filter p = distinct (xs.filter p) := by
  induction hlength : xs.length using Nat.strongRecOn generalizing xs with
  | _ n ih =>
    cases xs with
    | nil => rfl
    | cons x xs =>
        have hxs : (xs.filter fun y => y ≠ x).length < n :=
          Nat.lt_of_le_of_lt (length_filter_le _ _) (hlength ▸ Nat.lt_succ_self _)
        rw [distinct_cons]
        by_cases hx : p x = true
        · rw [filter_cons_of_pos hx, filter_cons_of_pos hx, distinct_cons, ih _ hxs _ rfl,
            filter_filter, filter_filter]
          simp only [Bool.and_comm]
        · have hsame : (xs.filter fun y => y ≠ x).filter p = xs.filter p := by
            rw [filter_filter]
            refine filter_congr fun y _ => ?_
            cases hy : p y with
            | false => rfl
            | true =>
                have hne : y ≠ x := by
                  rintro rfl
                  exact hx hy
                simp [hne]
          rw [filter_cons_of_neg hx, filter_cons_of_neg hx, ih _ hxs _ rfl, hsame]

end

/-! ### By a key -/

section
variable {α κ : Type*} [DecidableEq κ]

/-- The first element of each key, in order. -/
def distinctOn (key : α → κ) (xs : List α) : List α :=
  xs.foldl (fun seen x => if key x ∈ seen.map key then seen else seen ++ [x]) []

theorem mem_of_mem_distinctOn {key : α → κ} {xs : List α} {x : α} (h : x ∈ distinctOn key xs) :
    x ∈ xs := by
  have hgen : ∀ (ys seen : List α), x ∈ ys.foldl (fun seen x => if key x ∈ seen.map key then seen
      else seen ++ [x]) seen → x ∈ seen ∨ x ∈ ys := by
    intro ys
    induction ys with
    | nil => exact fun seen hx => Or.inl hx
    | cons y ys ih =>
        intro seen hx
        rw [foldl_cons] at hx
        rcases ih _ hx with hseen | hys
        · split at hseen
          · exact Or.inl hseen
          · rcases mem_append.mp hseen with hseen | hseen
            · exact Or.inl hseen
            · exact Or.inr (mem_singleton.mp hseen ▸ mem_cons_self)
        · exact Or.inr (mem_cons_of_mem y hys)
  exact (hgen xs [] h).resolve_left not_mem_nil

theorem map_distinctOn (key : α → κ) (xs : List α) :
    (distinctOn key xs).map key = distinct (xs.map key) := by
  have hgen : ∀ seen : List α,
      (xs.foldl (fun seen x => if key x ∈ seen.map key then seen else seen ++ [x]) seen).map key =
        (xs.map key).foldl (fun seen x => if x ∈ seen then seen else seen ++ [x]) (seen.map key) := by
    induction xs with
    | nil => exact fun _ => rfl
    | cons x xs ih =>
        intro seen
        rw [foldl_cons, map_cons, foldl_cons, ih]
        by_cases hx : key x ∈ seen.map key
        · rw [if_pos hx, if_pos hx]
        · rw [if_neg hx, if_neg hx, map_append, map_singleton]
  exact hgen []

end

end Runir
