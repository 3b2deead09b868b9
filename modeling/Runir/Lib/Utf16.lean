import Mathlib.Data.List.Basic
import Mathlib.Algebra.GroupWithZero.Nat

/-!
# Library — UTF-16

Strings as JavaScript has them: lists of code units, in which a surrogate may stand alone.

* `points`: the code points a string is read as, each as the units it is made of.
* `byteLength`: its length in UTF-8, where a lone surrogate is written as `U+FFFD`.
* `lastUnitsOf`.

A string falls into code points at the end of any of them (`points_take`), and after any unit that
is no high surrogate (`points_append`).
-/

namespace Runir.Utf16

/-- Starts a surrogate pair. -/
def isHigh (u : UInt16) : Bool := decide (0xD800 ≤ u) && decide (u ≤ 0xDBFF)

/-- Ends a surrogate pair. -/
def isLow (u : UInt16) : Bool := decide (0xDC00 ≤ u) && decide (u ≤ 0xDFFF)

/-- `[...s]`. -/
def points : List UInt16 → List (List UInt16)
  | [] => []
  | [u] => [[u]]
  | u :: v :: rest =>
      if isHigh u && isLow v then [u, v] :: points rest else [u] :: points (v :: rest)

/-- `Buffer.byteLength` of a code point. -/
def pointBytes : List UInt16 → Nat
  | [u] => if u < 0x80 then 1 else if u < 0x800 then 2 else 3
  | _ => 4

/-- `Buffer.byteLength(s)`. -/
def byteLength (s : List UInt16) : Nat := ((points s).map pointBytes).sum

/-- `s.lastIndexOf(needle)`, with `none` for `-1`. -/
def lastUnitsOf (needle : List UInt16) : List UInt16 → Option Nat
  | [] => if needle = [] then some 0 else none
  | u :: us =>
      match lastUnitsOf needle us with
      | some i => some (i + 1)
      | none => if needle <+: u :: us then some 0 else none

/-! ### Code points -/

@[simp] theorem flatten_points (s : List UInt16) : (points s).flatten = s := by
  induction s using points.induct with
  | case1 => rfl
  | case2 u => rfl
  | case3 u v rest h ih => simp [points, h, ih]
  | case4 u v rest h ih => simp [points, h, ih]

theorem ne_nil_of_mem_points {s p : List UInt16} (h : p ∈ points s) : p ≠ [] := by
  induction s using points.induct with
  | case1 => simp [points] at h
  | case2 u => simp_all [points]
  | case3 u v rest hpair ih =>
      simp only [points, hpair, if_true, List.mem_cons] at h
      rcases h with rfl | h
      · simp
      · exact ih h
  | case4 u v rest hpair ih =>
      simp only [points, hpair, Bool.false_eq_true, if_false, List.mem_cons] at h
      rcases h with rfl | h
      · simp
      · exact ih h

theorem pointBytes_le (p : List UInt16) : pointBytes p ≤ 4 := by
  unfold pointBytes
  split
  · split_ifs
    all_goals decide
  · exact Nat.le_refl 4

/-- The front of a pair-or-unit sequence is read as it is in the whole. -/
theorem points_take (s : List UInt16) (n : Nat) :
    points ((points s).take n).flatten = (points s).take n := by
  induction s using points.induct generalizing n with
  | case1 => simp [points]
  | case2 u =>
      cases n with
      | zero => rfl
      | succ n => simp [points]
  | case3 u v rest h ih =>
      cases n with
      | zero => rfl
      | succ n => simp [points, h, ih]
  | case4 u v rest h ih =>
      cases n with
      | zero => rfl
      | succ n =>
          simp only [points, h, Bool.false_eq_true, if_false, List.take_succ_cons,
            List.flatten_cons, List.singleton_append]
          -- what follows the unit is nothing, or starts with `v`
          have hrest := ih n
          cases hfront : ((points (v :: rest)).take n).flatten with
          | nil =>
              rw [hfront] at hrest
              simp only [points] at hrest ⊢
              rw [← hrest]
          | cons w front =>
              have hprefix : w :: front <+: v :: rest := by
                rw [← hfront]
                refine ⟨((points (v :: rest)).drop n).flatten, ?_⟩
                rw [← List.flatten_append, List.take_append_drop, flatten_points]
              obtain ⟨rfl, -⟩ := List.cons_prefix_cons.mp hprefix
              rw [hfront] at hrest
              simp only [points, h, Bool.false_eq_true, if_false, hrest]

/-- A string is read apart on either side of a place no pair goes across. -/
theorem points_append {u : UInt16} (hu : isHigh u = false) (a b : List UInt16) :
    points (a ++ u :: b) = points (a ++ [u]) ++ points b := by
  induction a using points.induct with
  | case1 =>
      cases b with
      | nil => rfl
      | cons v b => simp [points, hu]
  | case2 w =>
      cases b with
      | nil => simp [points]
      | cons v b =>
          by_cases hpair : (isHigh w && isLow u) = true
          · simp [points, hpair]
          · simp [points, hpair, hu]
  | case3 w v rest h ih =>
      simp only [List.cons_append, points, h, if_true, ih]
  | case4 w v rest h ih =>
      simp only [List.cons_append] at ih ⊢
      simp only [points, h, Bool.false_eq_true, if_false, ih, List.cons_append]

theorem byteLength_append_le {u : UInt16} (hu : isHigh u = false) (a b : List UInt16) :
    byteLength (a ++ [u]) ≤ byteLength (a ++ u :: b) := by
  unfold byteLength
  rw [points_append hu a b, List.map_append, List.sum_append]
  exact Nat.le_add_right _ _

/-! ### The last index -/

theorem prefix_drop_of_lastUnitsOf {needle s : List UInt16} {i : Nat}
    (h : lastUnitsOf needle s = some i) : needle <+: s.drop i := by
  induction s generalizing i with
  | nil =>
      simp only [lastUnitsOf] at h
      split at h
      · next hneedle => simp [hneedle]
      · cases h
  | cons u us ih =>
      simp only [lastUnitsOf] at h
      split at h
      · next j hj =>
          obtain rfl := Option.some.inj h
          exact ih hj
      · split at h
        · next hprefix =>
            obtain rfl := Option.some.inj h
            exact hprefix
        · cases h

end Runir.Utf16
