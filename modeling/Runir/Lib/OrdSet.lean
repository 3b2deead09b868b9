import Mathlib.Data.Finset.Card

/-!
# Library — OrdSet

Sets that remember insertion order, as JavaScript's `Set` does: `add` puts a new element last and
does nothing else.  Elements are distinct by construction, so `size` counts them.
-/

namespace Runir

/-- An insertion-ordered set. -/
structure OrdSet (α : Type*) where
  elems : List α
  nodup : elems.Nodup

namespace OrdSet
variable {α : Type*}

def empty : OrdSet α := ⟨[], List.nodup_nil⟩

def size (s : OrdSet α) : Nat := s.elems.length

instance : Membership α (OrdSet α) := ⟨fun s a => a ∈ s.elems⟩

theorem mem_def {s : OrdSet α} {a : α} : a ∈ s ↔ a ∈ s.elems := Iff.rfl

theorem not_mem_empty {a : α} : a ∉ (empty : OrdSet α) := List.not_mem_nil

def toFinset (s : OrdSet α) : Finset α := ⟨s.elems, s.nodup⟩

@[simp] theorem mem_toFinset {s : OrdSet α} {a : α} : a ∈ s.toFinset ↔ a ∈ s := Iff.rfl

theorem card_toFinset (s : OrdSet α) : s.toFinset.card = s.size := rfl

variable [DecidableEq α]

instance : DecidableEq (OrdSet α) := fun s t =>
  decidable_of_iff (s.elems = t.elems)
    ⟨fun h => by cases s; cases t; cases h; rfl, fun h => congrArg elems h⟩

def has (s : OrdSet α) (a : α) : Bool := decide (a ∈ s.elems)

theorem has_iff {s : OrdSet α} {a : α} : s.has a = true ↔ a ∈ s := decide_eq_true_iff

/-- `set.add(a)`. -/
def add (s : OrdSet α) (a : α) : OrdSet α :=
  if h : a ∈ s.elems then s
  else
    ⟨s.elems ++ [a], List.nodup_append.mpr
      ⟨s.nodup, List.nodup_singleton a, fun _ hx _ hy heq => h (List.mem_singleton.mp hy ▸ heq ▸ hx)⟩⟩

theorem mem_add {s : OrdSet α} {a b : α} : b ∈ s.add a ↔ b ∈ s ∨ b = a := by
  unfold add
  split
  · next h =>
      refine ⟨Or.inl, fun hb => hb.elim id ?_⟩
      rintro rfl
      exact h
  · rw [mem_def, List.mem_append, List.mem_singleton, mem_def]

/-- The elements of a list, each once. -/
def ofList (xs : List α) : OrdSet α := xs.foldl add empty

theorem mem_foldl_add {xs : List α} {s : OrdSet α} {b : α} : b ∈ xs.foldl add s ↔ b ∈ s ∨ b ∈ xs := by
  induction xs generalizing s with
  | nil => simp
  | cons a xs ih => rw [List.foldl_cons, ih, mem_add, List.mem_cons, or_assoc]

/-- The elements that are also in `t`, counted. -/
def shared (s t : OrdSet α) : Nat := (s.elems.filter t.has).length

theorem shared_eq_card (s t : OrdSet α) : s.shared t = (s.toFinset ∩ t.toFinset).card := by
  have hfilter : (s.elems.filter t.has).toFinset = s.toFinset ∩ t.toFinset := by
    ext a
    rw [List.mem_toFinset, List.mem_filter, has_iff, Finset.mem_inter, mem_toFinset, mem_toFinset]
    rfl
  rw [← hfilter, List.toFinset_card_of_nodup (s.nodup.filter _), shared]

end OrdSet

end Runir
