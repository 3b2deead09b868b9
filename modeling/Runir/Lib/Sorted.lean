import Mathlib.Data.List.Sort

/-!
# Library — Sorted

Stable sorts of lists in two parts, over any relation.

* `insertionSort_append`: where the elements of one part come before those of another, each part is
  sorted by itself.
* `filter_append_filter`: a test that fails for good splits a list in what passes and what does not.
* `head?_insertionSort`: a sort puts first what is found first among those that none comes before.
* `falling`: by falling value, and by another relation where that is the same;
  `pairwise_insertionSort_falls`: a sort that compares values first.
* `mem_take_insertionSort`: what is among the first of a list sorted by falling value, by its `rank`.
-/

namespace Runir.Sorted
open List

variable {α : Type*}

section
variable {r : α → α → Prop} [DecidableRel r] {a : α} {xs ys : List α}

/-- What comes before a part is put before it. -/
theorem orderedInsert_append (h : ∀ y ∈ ys, r a y) :
    (xs ++ ys).orderedInsert r a = xs.orderedInsert r a ++ ys := by
  induction xs with
  | nil =>
      cases ys with
      | nil => rfl
      | cons y ys =>
          rw [nil_append, orderedInsert_cons, if_pos (h y mem_cons_self)]
          rfl
  | cons x xs ih =>
      rw [cons_append, orderedInsert_cons, orderedInsert_cons, ih]
      by_cases hax : r a x
      · simp only [if_pos hax, cons_append]
      · simp only [if_neg hax, cons_append]

/-- **A list whose parts are in order is sorted part by part.** -/
theorem insertionSort_append (h : ∀ x ∈ xs, ∀ y ∈ ys, r x y) :
    (xs ++ ys).insertionSort r = xs.insertionSort r ++ ys.insertionSort r := by
  induction xs with
  | nil => rfl
  | cons x xs ih =>
      have hrest := ih fun z hz => h z (mem_cons_of_mem x hz)
      rw [cons_append, insertionSort_cons, insertionSort_cons, hrest]
      refine orderedInsert_append fun y hy => ?_
      exact h x mem_cons_self y ((mem_insertionSort r).mp hy)

end

section
variable {p : α → Bool} {xs : List α}

/-- **A test that fails for good passes a first part of the list.** -/
theorem filter_append_filter (h : xs.Pairwise fun x y => p y = true → p x = true) :
    (xs.filter p) ++ (xs.filter fun x => !p x) = xs := by
  induction xs with
  | nil => rfl
  | cons x xs ih =>
      obtain ⟨hx, hxs⟩ := pairwise_cons.mp h
      cases hp : p x with
      | true => simp [hp, ih hxs]
      | false =>
          -- the test has failed, and passes nothing that follows
          have hnone : xs.filter p = [] := by
            refine filter_eq_nil_iff.mpr fun y hy hpy => ?_
            rw [hx y hy hpy] at hp
            cases hp
          have hall : (xs.filter fun x => !p x) = xs := by
            have hrest := ih hxs
            rwa [hnone, nil_append] at hrest
          simp [hp, hnone, hall]

end

/-! ### The head of a sort -/

section
variable {r : α → α → Prop} [DecidableRel r] {xs : List α}

/-- A sort puts first an element that no other comes before, where the relation orders the list. -/
theorem exists_head?_insertionSort (htotal : ∀ x ∈ xs, ∀ y ∈ xs, r x y ∨ r y x)
    (htrans : ∀ x ∈ xs, ∀ y ∈ xs, ∀ z ∈ xs, r x y → r y z → r x z) (hne : xs ≠ []) :
    ∃ a ∈ xs, (xs.insertionSort r).head? = some a ∧ ∀ y ∈ xs, r a y := by
  induction xs with
  | nil => exact absurd rfl hne
  | cons a xs ih =>
      have hself : r a a := (htotal a mem_cons_self a mem_cons_self).elim id id
      rw [insertionSort_cons]
      cases hsorted : xs.insertionSort r with
      | nil =>
          have hnil : xs = [] := by
            rw [← length_eq_zero_iff, ← length_insertionSort r xs, hsorted, length_nil]
          subst hnil
          exact ⟨a, mem_cons_self, rfl, by simpa using hself⟩
      | cons s rest =>
          have hxs : xs ≠ [] := by
            rintro rfl
            cases hsorted
          obtain ⟨s', hs', hhead, hfirst⟩ := ih
            (fun x hx y hy => htotal x (mem_cons_of_mem a hx) y (mem_cons_of_mem a hy))
            (fun x hx y hy z hz => htrans x (mem_cons_of_mem a hx) y (mem_cons_of_mem a hy) z
              (mem_cons_of_mem a hz)) hxs
          rw [hsorted] at hhead
          cases hhead
          have hs : s ∈ a :: xs := mem_cons_of_mem a hs'
          rw [orderedInsert_cons]
          by_cases has : r a s
          · rw [if_pos has]
            refine ⟨a, mem_cons_self, rfl, fun y hy => ?_⟩
            rcases mem_cons.mp hy with rfl | hmem
            · exact hself
            · exact htrans a mem_cons_self s hs y hy has (hfirst y hmem)
          · rw [if_neg has]
            refine ⟨s, hs, rfl, fun y hy => ?_⟩
            rcases mem_cons.mp hy with rfl | hmem
            · exact (htotal y mem_cons_self s hs).resolve_left has
            · exact hfirst y hmem

/-- **A sort puts first what is found first among those that no element comes before.** -/
theorem head?_insertionSort (htotal : ∀ x y, r x y ∨ r y x)
    (htrans : ∀ x y z, r x y → r y z → r x z) :
    (xs.insertionSort r).head? = xs.find? fun x => ∀ y ∈ xs, r x y := by
  induction xs with
  | nil => rfl
  | cons a xs ih =>
      have hself : r a a := (htotal a a).elim id id
      rw [insertionSort_cons]
      cases hsorted : xs.insertionSort r with
      | nil =>
          have hnil : xs = [] := by
            rw [← length_eq_zero_iff, ← length_insertionSort r xs, hsorted, length_nil]
          subst hnil
          simp [hself]
      | cons s rest =>
          rw [hsorted, head?_cons] at ih
          obtain ⟨hs, before, after, hsplit, hbefore⟩ := find?_eq_some_iff_append.mp ih.symm
          have hs : ∀ y ∈ xs, r s y := of_decide_eq_true hs
          rw [orderedInsert_cons]
          by_cases has : r a s
          · -- what comes before `s` comes before all
            have hall : ∀ y ∈ a :: xs, r a y := by
              intro y hy
              rcases mem_cons.mp hy with rfl | hy
              · exact hself
              · exact htrans a s y has (hs y hy)
            have hfound : decide (∀ y ∈ a :: xs, r a y) = true := decide_eq_true hall
            rw [if_pos has, head?_cons, find?_cons, hfound]
          · have hsa : r s a := (htotal a s).resolve_left has
            have hsmem : s ∈ xs := by
              rw [hsplit]
              exact mem_append_right before mem_cons_self
            have hnot : ¬∀ y ∈ a :: xs, r a y := fun h => has (h s (mem_cons_of_mem a hsmem))
            rw [if_neg has, head?_cons, find?_cons_of_neg (by simpa using hnot)]
            refine (find?_eq_some_iff_append.mpr ⟨?_, before, after, hsplit, ?_⟩).symm
            · refine decide_eq_true fun y hy => ?_
              rcases mem_cons.mp hy with rfl | hy
              · exact hsa
              · exact hs y hy
            · intro b hb
              have hnone := hbefore b hb
              simp only [Bool.not_eq_true', decide_eq_false_iff_not] at hnone ⊢
              exact fun h => hnone fun y hy => h y (mem_cons_of_mem a hy)

end

section
variable {β : Type*} [LinearOrder β] {value : α → β} {r : α → α → Prop}

/-- By falling value, and by `r` where the values are the same. -/
def falling (value : α → β) (r : α → α → Prop) (x y : α) : Prop :=
  if value x ≠ value y then value y < value x else r x y

instance [DecidableRel r] : DecidableRel (falling value r) := fun x y =>
  inferInstanceAs (Decidable (if value x ≠ value y then value y < value x else r x y))

theorem falling_iff {x y : α} : falling value r x y ↔
    value y < value x ∨ value x = value y ∧ r x y := by
  unfold falling
  by_cases h : value x = value y
  · simp [h]
  · simp [h]

theorem falling.le {x y : α} (h : falling value r x y) : value y ≤ value x := by
  rcases falling_iff.mp h with hlt | ⟨heq, -⟩
  · exact hlt.le
  · exact heq.ge

/-- Where the value does not fall, the rest decides. -/
theorem falling.rest {x y : α} (h : falling value r x y) (hle : value x ≤ value y) :
    value x = value y ∧ r x y :=
  (falling_iff.mp h).resolve_left hle.not_gt

theorem falling_total (h : ∀ x y, r x y ∨ r y x) (x y : α) :
    falling value r x y ∨ falling value r y x := by
  simp only [falling_iff]
  rcases lt_trichotomy (value x) (value y) with hlt | heq | hgt
  · exact .inr (.inl hlt)
  · rcases h x y with hxy | hyx
    · exact .inl (.inr ⟨heq, hxy⟩)
    · exact .inr (.inr ⟨heq.symm, hyx⟩)
  · exact .inl (.inl hgt)

theorem falling_trans (h : ∀ x y z, r x y → r y z → r x z) (x y z : α)
    (hxy : falling value r x y) (hyz : falling value r y z) : falling value r x z := by
  rw [falling_iff]
  rcases falling_iff.mp hxy with hlt | ⟨heq, hr⟩
  · exact .inl (hyz.le.trans_lt hlt)
  · rcases falling_iff.mp hyz with hlt' | ⟨heq', hr'⟩
    · exact .inl (heq ▸ hlt')
    · exact .inr ⟨heq.trans heq', h x y z hr hr'⟩

/-- Where a sort compares values first, they fall, whatever it compares then. -/
theorem pairwise_insertionSort_falls [DecidableRel r] (hfalls : ∀ x y, r x y → value y ≤ value x)
    (hrises : ∀ x y, ¬ r x y → value x ≤ value y) (xs : List α) :
    (xs.insertionSort r).Pairwise fun x y => value y ≤ value x := by
  induction xs with
  | nil => exact Pairwise.nil
  | cons a xs ih =>
      rw [insertionSort_cons]
      generalize xs.insertionSort r = ys at ih
      induction ys with
      | nil => exact pairwise_singleton _ _
      | cons y ys ihys =>
          obtain ⟨hy, hys⟩ := pairwise_cons.mp ih
          rw [orderedInsert_cons]
          by_cases h : r a y
          · rw [if_pos h]
            refine Pairwise.cons (fun z hz => ?_) ih
            rcases mem_cons.mp hz with rfl | hz
            · exact hfalls a z h
            · exact (hy z hz).trans (hfalls a y h)
          · rw [if_neg h]
            refine Pairwise.cons (fun z hz => ?_) (ihys hys)
            rcases (mem_orderedInsert r).mp hz with rfl | hz
            · exact hrises z y h
            · exact hy z hz

end

/-! ### The rank of an element -/

section
variable {α β : Type*} [DecidableEq α] [LinearOrder β] {value : α → β} {a x : α} {xs : List α}

/-- How many elements come before the first occurrence of one in a stable sort by falling value:
those that are worth more, and those that are worth the same and stand before it. -/
def rank (value : α → β) (xs : List α) (x : α) : Nat :=
  (xs.filter fun y => value x < value y).length +
    ((xs.takeWhile fun y => y ≠ x).filter fun y => value y = value x).length

theorem rank_cons_self : rank value (x :: xs) x = (xs.filter fun y => value x < value y).length := by
  simp [rank]

theorem rank_cons_of_ne (h : a ≠ x) :
    rank value (a :: xs) x = rank value xs x + if value x ≤ value a then 1 else 0 := by
  unfold rank
  rw [takeWhile_cons, if_pos (decide_eq_true h)]
  rcases lt_trichotomy (value x) (value a) with hlt | heq | hgt
  · simp [hlt, hlt.le, hlt.ne', Nat.add_right_comm]
  · simp [heq, Nat.add_assoc]
  · simp [hgt.le, hgt.ne, hgt]

/-- An element is put after what is worth more. -/
theorem idxOf_orderedInsert_self (h : xs.Pairwise fun y z => value z ≤ value y) :
    (xs.orderedInsert (fun y z => value z ≤ value y) a).idxOf a =
      (xs.filter fun y => value a < value y).length := by
  induction xs with
  | nil => simp
  | cons b xs ih =>
      obtain ⟨hb, hxs⟩ := pairwise_cons.mp h
      rw [orderedInsert_cons]
      by_cases hle : value b ≤ value a
      · have hnone : (b :: xs).filter (fun y => value a < value y) = [] := by
          refine filter_eq_nil_iff.mpr fun y hy => ?_
          have hya : value y ≤ value a := by
            rcases mem_cons.mp hy with rfl | hy
            · exact hle
            · exact (hb y hy).trans hle
          simpa using hya
        rw [if_pos hle, idxOf_cons_self, hnone, length_nil]
      · have hne : b ≠ a := by
          rintro rfl
          exact hle le_rfl
        rw [if_neg hle, idxOf_cons_ne _ hne, ih hxs]
        simp [not_le.mp hle]

/-- Another element moves where it is worth no more. -/
theorem idxOf_orderedInsert_of_ne (h : xs.Pairwise fun y z => value z ≤ value y) (hne : a ≠ x)
    (hx : x ∈ xs) : (xs.orderedInsert (fun y z => value z ≤ value y) a).idxOf x =
      xs.idxOf x + if value x ≤ value a then 1 else 0 := by
  induction xs with
  | nil => cases hx
  | cons b xs ih =>
      obtain ⟨hb, hxs⟩ := pairwise_cons.mp h
      rw [orderedInsert_cons]
      by_cases hle : value b ≤ value a
      · have hxa : value x ≤ value a := by
          rcases mem_cons.mp hx with rfl | hx
          · exact hle
          · exact (hb x hx).trans hle
        rw [if_pos hle, if_pos hxa, idxOf_cons_ne _ hne]
      · rw [if_neg hle]
        by_cases hbx : b = x
        · subst hbx
          rw [if_neg hle, idxOf_cons_self, idxOf_cons_self]
        · have hrest := ih hxs ((mem_cons.mp hx).resolve_left (Ne.symm hbx))
          rw [idxOf_cons_ne _ hbx, idxOf_cons_ne _ hbx, hrest, Nat.succ_add]

omit [DecidableEq α] in
theorem pairwise_insertionSort_value (value : α → β) (xs : List α) :
    (xs.insertionSort fun y z => value z ≤ value y).Pairwise fun y z => value z ≤ value y := by
  have : Std.Total fun y z : α => value z ≤ value y := ⟨fun y z => le_total (value z) (value y)⟩
  have : IsTrans α fun y z => value z ≤ value y := ⟨fun _ _ _ hxy hyz => hyz.trans hxy⟩
  exact pairwise_insertionSort _ xs

theorem idxOf_insertionSort (hx : x ∈ xs) :
    (xs.insertionSort fun y z => value z ≤ value y).idxOf x = rank value xs x := by
  induction xs with
  | nil => cases hx
  | cons a xs ih =>
      have hsorted := pairwise_insertionSort_value value xs
      have hperm := perm_insertionSort (fun y z => value z ≤ value y) xs
      rw [insertionSort_cons]
      by_cases hne : a = x
      · subst hne
        rw [idxOf_orderedInsert_self hsorted, rank_cons_self]
        exact (hperm.filter _).length_eq
      · have hmem : x ∈ xs := (mem_cons.mp hx).resolve_left (Ne.symm hne)
        rw [idxOf_orderedInsert_of_ne hsorted hne (hperm.mem_iff.mpr hmem), ih hmem,
          rank_cons_of_ne hne]

/-- **An element is among the first `n` exactly if its rank is less than `n`.** -/
theorem mem_take_insertionSort {n : Nat} (hx : x ∈ xs) :
    x ∈ (xs.insertionSort fun y z => value z ≤ value y).take n ↔ rank value xs x < n := by
  rw [mem_take_iff_idxOf_lt ((mem_insertionSort _).mpr hx), idxOf_insertionSort hx]

end

end Runir.Sorted
