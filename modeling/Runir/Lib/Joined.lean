import Mathlib.Data.List.Basic

/-!
# Library — Joined fields

Fields joined with a doubled mark between them, and when two lists of as many fields join to the
same.

* `Slides`: at the first field in which they differ, the one field goes on where the other ends,
  through the separator behind it.
* `intercalate_eq_iff`: two lists join to the same if they are the same, or slide.
-/

namespace Runir.Joined
variable {α : Type*}

/-- The field `y` goes on where `x` ends: through the separator, or through its first mark.  `xs`
and `ys` are the rests, joined. -/
def Overruns (c : α) (x xs y ys : List α) : Prop :=
  (∃ q, y = x ++ c :: c :: q ∧ xs = q ++ c :: c :: ys) ∨ (y = x ++ [c] ∧ xs = c :: ys)

def Slides (c : α) : List (List α) → List (List α) → Prop
  | x :: x' :: xs, y :: y' :: ys =>
      (x = y ∧ Slides c (x' :: xs) (y' :: ys)) ∨
        Overruns c x ([c, c].intercalate (x' :: xs)) y ([c, c].intercalate (y' :: ys)) ∨
        Overruns c y ([c, c].intercalate (y' :: ys)) x ([c, c].intercalate (x' :: xs))
  | _, _ => False

variable {c : α} {x xs y ys : List α}

theorem Overruns.joined_eq (h : Overruns c x xs y ys) :
    x ++ c :: c :: xs = y ++ c :: c :: ys := by
  rcases h with ⟨q, rfl, rfl⟩ | ⟨rfl, rfl⟩ <;> simp

/-- A field that ends before the other. -/
theorem Overruns.of_joined_eq {p : List α} (hp : p ≠ []) (hy : y = x ++ p)
    (h : c :: c :: xs = p ++ c :: c :: ys) : Overruns c x xs y ys := by
  subst hy
  match p with
  | [] => exact absurd rfl hp
  | [d] =>
      rw [List.singleton_append, List.cons.injEq, List.cons.injEq] at h
      obtain ⟨rfl, -, h⟩ := h
      exact .inr ⟨rfl, h⟩
  | d :: d' :: q =>
      rw [List.cons_append, List.cons_append, List.cons.injEq, List.cons.injEq] at h
      obtain ⟨rfl, rfl, h⟩ := h
      exact .inl ⟨q, rfl, h⟩

theorem Overruns.length_lt (h : Overruns c x xs y ys) : x.length < y.length := by
  rcases h with ⟨q, rfl, -⟩ | ⟨rfl, -⟩ <;> rw [List.length_append] <;> simp

/-- Fields do not slide over themselves. -/
theorem slides_irrefl {xs : List (List α)} : ¬ Slides c xs xs := by
  induction xs with
  | nil => exact id
  | cons x xs ih =>
      match xs with
      | [] => exact id
      | x' :: xs =>
          rintro (⟨-, h⟩ | h | h)
          · exact ih h
          · exact Nat.lt_irrefl _ h.length_lt
          · exact Nat.lt_irrefl _ h.length_lt

theorem joined_cons_eq_iff :
    x ++ c :: c :: xs = y ++ c :: c :: ys ↔
      (x = y ∧ xs = ys) ∨ Overruns c x xs y ys ∨ Overruns c y ys x xs := by
  constructor
  · intro h
    rcases List.append_eq_append_iff.mp h with ⟨p, hp, hrest⟩ | ⟨p, hp, hrest⟩ <;>
      rcases eq_or_ne p [] with rfl | hne
    · exact .inl ⟨by simpa using hp.symm, by simpa using hrest⟩
    · exact .inr (.inl (.of_joined_eq hne hp hrest))
    · exact .inl ⟨by simpa using hp, by simpa using hrest.symm⟩
    · exact .inr (.inr (.of_joined_eq hne hp hrest))
  · rintro (⟨rfl, rfl⟩ | h | h)
    · rfl
    · exact h.joined_eq
    · exact h.joined_eq.symm

/-- **Two joined keys are the same** when their fields are, or when these slide. -/
theorem intercalate_eq_iff {xs ys : List (List α)} (hlength : xs.length = ys.length) :
    [c, c].intercalate xs = [c, c].intercalate ys ↔ xs = ys ∨ Slides c xs ys := by
  induction xs generalizing ys with
  | nil =>
      rw [List.eq_nil_of_length_eq_zero hlength.symm]
      simp
  | cons x xs ih =>
      obtain ⟨y, ys, rfl⟩ := List.exists_cons_of_length_eq_add_one hlength.symm
      rw [List.length_cons, List.length_cons, Nat.add_right_cancel_iff] at hlength
      match xs, ys with
      | [], [] => simp [Slides]
      | x' :: xs, y' :: ys =>
          rw [List.intercalate_cons_cons, List.intercalate_cons_cons, List.append_assoc,
            List.append_assoc]
          change x ++ c :: c :: [c, c].intercalate (x' :: xs) =
            y ++ c :: c :: [c, c].intercalate (y' :: ys) ↔ _
          rw [joined_cons_eq_iff, ih hlength, and_or_left, or_assoc, List.cons.injEq x]
          rfl

end Runir.Joined
