import Mathlib.Data.List.Induction
import Runir.Lib.OrdMap

/-!
# Library — UniqueIndex

A second key of a map's values that no two entries share, as the unique index of a table is: the
entry found by it, and what `set` and `erase` do to what is found.
-/

namespace Runir.OrdMap
variable {κ ν ι : Type*} [DecidableEq ι]

/-- No two entries have one value of `key`. -/
def UniqueOn (key : ν → ι) (m : OrdMap κ ν) : Prop :=
  ∀ e ∈ m.entries, ∀ e' ∈ m.entries, key e.2 = key e'.2 → e = e'

/-- The first entry with a value of `key`. -/
def findOn (key : ν → ι) (m : OrdMap κ ν) (i : ι) : Option (κ × ν) :=
  m.entries.find? fun e => decide (key e.2 = i)

variable {key : ν → ι} {m : OrdMap κ ν}

omit [DecidableEq ι] in
theorem entries_nodup (m : OrdMap κ ν) : m.entries.Nodup := m.nodup.of_map _

variable {i : ι}

theorem findOn_eq_none : m.findOn key i = none ↔ ∀ e ∈ m.entries, key e.2 ≠ i := by
  simp [findOn]

variable {e : κ × ν}

theorem mem_of_findOn (h : m.findOn key i = some e) :
    e ∈ m.entries ∧ key e.2 = i := by
  unfold findOn at h
  exact ⟨List.mem_of_find?_eq_some h, by simpa using List.find?_some h⟩

theorem UniqueOn.findOn_eq_some (hm : m.UniqueOn key) :
    m.findOn key i = some e ↔ e ∈ m.entries ∧ key e.2 = i := by
  refine ⟨mem_of_findOn, fun ⟨he, hi⟩ => ?_⟩
  cases hfind : m.findOn key i with
  | none => exact absurd hi (findOn_eq_none.mp hfind e he)
  | some e' =>
      obtain ⟨he', hi'⟩ := mem_of_findOn hfind
      rw [hm e' he' e he (hi'.trans hi.symm)]

/-- Two maps of unique keys find the same once they find each other's entries. -/
theorem UniqueOn.findOn_congr {m' : OrdMap κ ν} (hm : m.UniqueOn key) (hm' : m'.UniqueOn key)
    (h : ∀ e, key e.2 = i → (e ∈ m.entries ↔ e ∈ m'.entries)) :
    m.findOn key i = m'.findOn key i := by
  refine Option.ext fun e => ?_
  rw [hm.findOn_eq_some, hm'.findOn_eq_some]
  exact ⟨fun ⟨he, hi⟩ => ⟨(h e hi).mp he, hi⟩, fun ⟨he, hi⟩ => ⟨(h e hi).mpr he, hi⟩⟩

variable [DecidableEq κ] {k : κ}

theorem mem_entries_erase :
    e ∈ (m.erase k).entries ↔ e ∈ m.entries ∧ e.1 ≠ k := by
  simp [erase, filter]

variable {v : ν}

theorem mem_entries_set :
    e ∈ (m.set k v).entries ↔ e = (k, v) ∨ (e ∈ m.entries ∧ e.1 ≠ k) := by
  obtain ⟨k₀, v₀⟩ := e
  rw [← get?_eq_some, get?_set, Prod.mk.injEq, ← get?_eq_some]
  split
  · rename_i h
    simp [h, eq_comm]
  · rename_i h
    simp [h]

omit [DecidableEq ι] in
theorem UniqueOn.erase (hm : m.UniqueOn key) (k : κ) : (m.erase k).UniqueOn key :=
  fun e he e' he' =>
    hm e (mem_entries_erase.mp he).1 e' (mem_entries_erase.mp he').1

/-- Erasing an entry takes what is found by its key, and nothing else. -/
theorem UniqueOn.findOn_erase (hm : m.UniqueOn key) (he : e ∈ m.entries) (i : ι) :
    (m.erase e.1).findOn key i = if i = key e.2 then none else m.findOn key i := by
  split
  · rename_i h
    refine findOn_eq_none.mpr fun e' he' hi => ?_
    obtain ⟨hm', hne⟩ := mem_entries_erase.mp he'
    exact hne (congrArg Prod.fst (hm e' hm' e he (hi.trans h)))
  · rename_i h
    refine (hm.erase e.1).findOn_congr hm fun e' hi => ?_
    rw [mem_entries_erase, and_iff_left_iff_imp]
    intro he' hk
    -- one entry for a key of the map
    have hsame : e'.2 = e.2 := by
      have hfind := get?_eq_some.mpr he'
      rw [hk, get?_eq_some.mpr he] at hfind
      exact (Option.some.inj hfind).symm
    exact h (hi.symm.trans (congrArg key hsame))

omit [DecidableEq ι] in
/-- A value goes where its key is found under no other key of the map. -/
theorem UniqueOn.set (hm : m.UniqueOn key)
    (hfree : ∀ e ∈ m.entries, key e.2 = key v → e.1 = k) : (m.set k v).UniqueOn key := by
  intro e he e' he' hkey
  rcases mem_entries_set.mp he with rfl | ⟨hm₁, hne₁⟩ <;>
    rcases mem_entries_set.mp he' with rfl | ⟨hm₂, hne₂⟩
  · rfl
  · exact absurd (hfree e' hm₂ hkey.symm) hne₂
  · exact absurd (hfree e hm₁ hkey) hne₁
  · exact hm e hm₁ e' hm₂ hkey

theorem UniqueOn.findOn_set (hm : m.UniqueOn key)
    (hfree : ∀ e ∈ m.entries, key e.2 = key v → e.1 = k)
    (hkept : ∀ v', m.get? k = some v' → key v' = key v) (i : ι) :
    (m.set k v).findOn key i = if i = key v then some (k, v) else m.findOn key i := by
  split
  · rename_i h
    exact (hm.set hfree).findOn_eq_some.mpr ⟨mem_entries_set.mpr (Or.inl rfl), h.symm⟩
  · rename_i h
    refine (hm.set hfree).findOn_congr hm fun e hi => ?_
    rw [mem_entries_set]
    constructor
    · rintro (rfl | ⟨he, -⟩)
      · exact absurd hi.symm h
      · exact he
    · intro he
      refine Or.inr ⟨he, fun hk => h ?_⟩
      exact hi.symm.trans (hkept e.2 (get?_eq_some.mpr (hk ▸ he)))

/-! ### Keys of one value -/

section
variable {α : Type*}

/-- The elements by a key, where a key that has come up before has none. -/
def soleIndex (key : α → κ) (xs : List α) : OrdMap κ (Option α) :=
  xs.foldl (fun m x => m.set (key x) (if m.has (key x) then none else some x)) empty

/-- What stands at a key: nothing, its one element, or that it has more than one. -/
theorem get?_soleIndex (key : α → κ) (xs : List α) (k : κ) :
    (soleIndex key xs).get? k =
      match xs.filter fun x => decide (key x = k) with
      | [] => none
      | [x] => some (some x)
      | _ => some none := by
  induction xs using List.reverseRecOn with
  | nil => rfl
  | append_singleton xs x ih =>
      rw [soleIndex, List.foldl_append, ← soleIndex, List.foldl_cons, List.foldl_nil, get?_set,
        List.filter_append]
      by_cases hk : key x = k
      · subst hk
        rw [if_pos rfl, has, ih, List.filter_cons_of_pos (by simp), List.filter_nil]
        cases xs.filter fun y => decide (key y = key x) with
        | nil => rfl
        | cons y ys =>
            cases ys with
            | nil => rfl
            | cons z zs => rfl
      · rw [if_neg (Ne.symm hk), ih, List.filter_cons_of_neg (by simpa using hk), List.filter_nil,
          List.append_nil]

/-- **A key leads to the one element that has it.** -/
theorem join_get?_soleIndex {key : α → κ} {xs : List α} (h : xs.Nodup) {x : α} :
    ((soleIndex key xs).get? k).join = some x ↔
      x ∈ xs ∧ key x = k ∧ ∀ y ∈ xs, key y = k → y = x := by
  have hmem : ∀ y, y ∈ xs.filter (fun x => decide (key x = k)) ↔ y ∈ xs ∧ key y = k := by simp
  rw [get?_soleIndex]
  cases hfilter : xs.filter fun x => decide (key x = k) with
  | nil =>
      rw [hfilter] at hmem
      constructor
      · intro hx
        cases hx
      · rintro ⟨hx, hk, -⟩
        exact absurd ((hmem x).mpr ⟨hx, hk⟩) (by simp)
  | cons y ys =>
      rw [hfilter] at hmem
      cases ys with
      | nil =>
          simp only [List.mem_singleton] at hmem
          constructor
          · intro hx
            cases hx
            obtain ⟨hx, hk⟩ := (hmem x).mp rfl
            exact ⟨hx, hk, fun z hz hzk => (hmem z).mpr ⟨hz, hzk⟩⟩
          · rintro ⟨-, -, hsole⟩
            obtain ⟨hy, hk⟩ := (hmem y).mp rfl
            rw [hsole y hy hk]
            rfl
      | cons z zs =>
          -- two elements have the key
          constructor
          · intro hx
            cases hx
          · rintro ⟨-, -, hsole⟩
            have hnodup : (y :: z :: zs).Nodup := by
              rw [← hfilter]
              exact h.filter _
            obtain ⟨hy, hyk⟩ := (hmem y).mp (by simp)
            obtain ⟨hz, hzk⟩ := (hmem z).mp (by simp)
            have hyz : y = z := (hsole y hy hyk).trans (hsole z hz hzk).symm
            rw [hyz] at hnodup
            simp at hnodup

end

end Runir.OrdMap
