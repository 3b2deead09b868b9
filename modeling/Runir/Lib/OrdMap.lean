import Mathlib.Algebra.GroupWithZero.Nat
import Runir.Lib.Lists

/-!
# Library — OrdMap

Maps that remember insertion order, as JavaScript's `Map` does: `set` keeps the place of a key
already present and puts a new one last, `erase` forgets the place.  Keys are distinct by
construction, so `get?` and membership of `entries` agree.

* `groupOn`: the elements of a list by a key.
-/

namespace Runir

/-- An insertion-ordered map. -/
structure OrdMap (κ ν : Type*) where
  entries : List (κ × ν)
  nodup : (entries.map Prod.fst).Nodup

namespace OrdMap
variable {κ ν : Type*}

@[ext] theorem ext {m m' : OrdMap κ ν} (h : m.entries = m'.entries) : m = m' := by
  cases m; cases m'; cases h; rfl

instance [DecidableEq κ] [DecidableEq ν] : DecidableEq (OrdMap κ ν) := fun m m' =>
  decidable_of_iff (m.entries = m'.entries) ⟨ext, fun h => h ▸ rfl⟩

def empty : OrdMap κ ν := ⟨[], List.nodup_nil⟩

instance : Inhabited (OrdMap κ ν) := ⟨empty⟩

def size (m : OrdMap κ ν) : Nat := m.entries.length

def keys (m : OrdMap κ ν) : List κ := m.entries.map Prod.fst

def values (m : OrdMap κ ν) : List ν := m.entries.map Prod.snd

theorem keys_nodup (m : OrdMap κ ν) : m.keys.Nodup := m.nodup

/-- The entries whose value satisfies `p`, in order. -/
def filter (p : κ → ν → Bool) (m : OrdMap κ ν) : OrdMap κ ν where
  entries := m.entries.filter fun e => p e.1 e.2
  nodup := (List.filter_sublist.map Prod.fst).nodup m.nodup

/-- The map with every value rewritten in place. -/
def mapValues {ν' : Type*} (f : ν → ν') (m : OrdMap κ ν) : OrdMap κ ν' where
  entries := m.entries.map fun e => (e.1, f e.2)
  nodup := by simpa only [List.map_map, Function.comp_def] using m.nodup

/-- As `mapValues`, with the key. -/
def mapEntries {ν' : Type*} (f : κ → ν → ν') (m : OrdMap κ ν) : OrdMap κ ν' where
  entries := m.entries.map fun e => (e.1, f e.1 e.2)
  nodup := by simpa only [List.map_map, Function.comp_def] using m.nodup

/-- A value satisfies `p`. -/
def any (p : ν → Bool) (m : OrdMap κ ν) : Bool := m.values.any p

variable [DecidableEq κ]

def find (k : κ) : List (κ × ν) → Option ν
  | [] => none
  | (k', v) :: es => if k' = k then some v else find k es

def setIn (k : κ) (v : ν) : List (κ × ν) → List (κ × ν)
  | [] => [(k, v)]
  | (k', v') :: es => if k' = k then (k, v) :: es else (k', v') :: setIn k v es

variable {v : ν} {es : List (κ × ν)}

theorem mem_keys_setIn {k k₀ : κ} :
    k₀ ∈ (setIn k v es).map Prod.fst ↔ k₀ = k ∨ k₀ ∈ es.map Prod.fst := by
  induction es with
  | nil => simp [setIn]
  | cons e es ih =>
      obtain ⟨k', v'⟩ := e
      by_cases hk : k' = k
      · subst hk; simp [setIn]
      · simp only [setIn, if_neg hk, List.map_cons, List.mem_cons, ih]
        tauto

variable {k : κ}

theorem nodup_setIn (h : (es.map Prod.fst).Nodup) :
    ((setIn k v es).map Prod.fst).Nodup := by
  induction es with
  | nil => simp [setIn]
  | cons e es ih =>
      obtain ⟨k', v'⟩ := e
      simp only [List.map_cons, List.nodup_cons] at h
      by_cases hk : k' = k
      · subst hk
        simpa [setIn] using h
      · simp only [setIn, if_neg hk, List.map_cons, List.nodup_cons, mem_keys_setIn]
        exact ⟨fun hm => hm.elim hk h.1, ih h.2⟩

def get? (m : OrdMap κ ν) (k : κ) : Option ν := find k m.entries

def has (m : OrdMap κ ν) (k : κ) : Bool := (m.get? k).isSome

/-- `map.set(k, v)`. -/
def set (m : OrdMap κ ν) (k : κ) (v : ν) : OrdMap κ ν := ⟨setIn k v m.entries, nodup_setIn m.nodup⟩

/-- `map.delete(k)`. -/
def erase (m : OrdMap κ ν) (k : κ) : OrdMap κ ν := m.filter fun k' _ => !decide (k' = k)

/-- `map.set` over a list of entries, in order. -/
def ofList (es : List (κ × ν)) : OrdMap κ ν := es.foldl (fun m e => m.set e.1 e.2) empty

/-! ### Reading -/

@[simp] theorem get?_empty (k : κ) : (empty : OrdMap κ ν).get? k = none := rfl

theorem find_setIn {k k₀ : κ} :
    find k₀ (setIn k v es) = if k₀ = k then some v else find k₀ es := by
  induction es with
  | nil => simp [setIn, find, eq_comm]
  | cons e es ih =>
      obtain ⟨k', v'⟩ := e
      by_cases hk : k' = k
      · subst hk
        by_cases h₀ : k₀ = k'
        · simp [setIn, find, h₀]
        · simp [setIn, find, h₀, Ne.symm h₀]
      · by_cases h₀ : k' = k₀
        · subst h₀; simp [setIn, find, hk]
        · simp only [setIn, if_neg hk, find, if_neg h₀, ih]

theorem get?_set (m : OrdMap κ ν) (k k₀ : κ) (v : ν) :
    (m.set k v).get? k₀ = if k₀ = k then some v else m.get? k₀ := find_setIn

@[simp] theorem get?_set_self (m : OrdMap κ ν) (k : κ) (v : ν) : (m.set k v).get? k = some v := by
  rw [get?_set, if_pos rfl]

theorem get?_set_ne (m : OrdMap κ ν) {k k₀ : κ} (v : ν) (h : k₀ ≠ k) :
    (m.set k v).get? k₀ = m.get? k₀ := by
  rw [get?_set, if_neg h]

theorem find_eq_some (h : (es.map Prod.fst).Nodup) :
    find k es = some v ↔ (k, v) ∈ es := by
  induction es with
  | nil => simp [find]
  | cons e es ih =>
      obtain ⟨k', v'⟩ := e
      simp only [List.map_cons, List.nodup_cons] at h
      by_cases hk : k' = k
      · subst hk
        have hno : (k', v) ∉ es := fun hm => h.1 (List.mem_map.mpr ⟨_, hm, rfl⟩)
        simp [find, hno, eq_comm]
      · simp [find, hk, Ne.symm hk, ih h.2]

variable {m : OrdMap κ ν}

theorem get?_eq_some : m.get? k = some v ↔ (k, v) ∈ m.entries :=
  find_eq_some m.nodup

theorem get?_eq_none : m.get? k = none ↔ k ∉ m.keys := by
  constructor
  · intro h hk
    obtain ⟨⟨k', v⟩, hm, rfl⟩ := List.mem_map.mp hk
    rw [get?_eq_some.mpr hm] at h
    cases h
  · intro h
    cases e : m.get? k with
    | none => rfl
    | some v => exact absurd (List.mem_map.mpr ⟨_, get?_eq_some.mp e, rfl⟩) h

theorem mem_values : v ∈ m.values ↔ ∃ k, m.get? k = some v := by
  constructor
  · intro h
    obtain ⟨⟨k, v'⟩, hm, rfl⟩ := List.mem_map.mp h
    exact ⟨k, get?_eq_some.mpr hm⟩
  · rintro ⟨k, h⟩
    exact List.mem_map.mpr ⟨(k, v), get?_eq_some.mp h, rfl⟩

theorem get?_filter (m : OrdMap κ ν) (p : κ → ν → Bool) (k : κ) :
    (m.filter p).get? k = (m.get? k).filter (p k) := by
  cases e : m.get? k with
  | none =>
      refine get?_eq_none.mpr fun h => get?_eq_none.mp e ?_
      exact (List.filter_sublist.map Prod.fst).subset h
  | some v =>
      have hm := get?_eq_some.mp e
      by_cases hp : p k v = true
      · rw [get?_eq_some.mpr (List.mem_filter.mpr ⟨hm, hp⟩)]
        simp [Option.filter, hp]
      · have hn : (m.filter p).get? k = none := by
          cases e' : (m.filter p).get? k with
          | none => rfl
          | some w =>
              obtain ⟨hm', hp'⟩ := List.mem_filter.mp (get?_eq_some.mp e')
              rw [get?_eq_some.mpr hm'] at e
              cases e
              exact absurd hp' hp
        rw [hn]
        simp [Option.filter, hp]

theorem get?_erase (m : OrdMap κ ν) (k k₀ : κ) :
    (m.erase k).get? k₀ = if k₀ = k then none else m.get? k₀ := by
  rw [erase, get?_filter]
  by_cases h : k₀ = k
  · subst h; cases m.get? k₀ <;> simp [Option.filter]
  · cases m.get? k₀ <;> simp [Option.filter, h]

theorem find_map {ν' : Type*} {f : ν → ν'} :
    find k (es.map fun e => (e.1, f e.2)) = (find k es).map f := by
  induction es with
  | nil => rfl
  | cons e es ih =>
      by_cases hk : e.1 = k
      · simp [find, hk]
      · simp [find, hk, ih]

@[simp] theorem get?_mapValues {ν' : Type*} (m : OrdMap κ ν) (f : ν → ν') (k : κ) :
    (m.mapValues f).get? k = (m.get? k).map f := find_map

@[simp] theorem get?_mapEntries {ν' : Type*} (m : OrdMap κ ν) (f : κ → ν → ν') (k : κ) :
    (m.mapEntries f).get? k = (m.get? k).map (f k) := by
  have h : ∀ es : List (κ × ν), find k (es.map fun e => (e.1, f e.1 e.2)) = (find k es).map (f k) := by
    intro es
    induction es with
    | nil => rfl
    | cons e es ih =>
        by_cases hk : e.1 = k
        · subst hk
          simp [find]
        · simp [find, hk, ih]
  exact h m.entries

theorem any_eq_true {p : ν → Bool} :
    m.any p = true ↔ ∃ k v, m.get? k = some v ∧ p v = true := by
  unfold any
  rw [List.any_eq_true]
  constructor
  · rintro ⟨v, hv, hp⟩
    obtain ⟨k, hk⟩ := mem_values.mp hv
    exact ⟨k, v, hk, hp⟩
  · rintro ⟨k, v, hk, hp⟩
    exact ⟨v, mem_values.mpr ⟨k, hk⟩, hp⟩

/-- Setting a key for every element of a list, in order: the last element with a key decides what
is found there. -/
theorem get?_foldl_set {α : Type*} (key : α → κ) (val : OrdMap κ ν → α → ν) (xs : List α)
    (m : OrdMap κ ν) (k : κ) :
    (xs.foldl (fun m x => m.set (key x) (val m x)) m).get? k = m.get? k ∧
        (∀ x ∈ xs, key x ≠ k) ∨
      ∃ pre x post m', xs = pre ++ x :: post ∧ key x = k ∧ (∀ y ∈ post, key y ≠ k) ∧
        (xs.foldl (fun m x => m.set (key x) (val m x)) m).get? k = some (val m' x) := by
  induction xs generalizing m with
  | nil => exact Or.inl ⟨rfl, by simp⟩
  | cons x xs ih =>
      rcases ih (m.set (key x) (val m x)) with ⟨e, hno⟩ | ⟨pre, y, post, m', rfl, hk, hpost, e⟩
      · by_cases hx : key x = k
        · refine Or.inr ⟨[], x, xs, m, rfl, hx, hno, ?_⟩
          rw [List.foldl_cons, e, ← hx, get?_set_self]
        · refine Or.inl ⟨?_, List.forall_mem_cons.mpr ⟨hx, hno⟩⟩
          rw [List.foldl_cons, e, get?_set_ne _ _ (Ne.symm hx)]
      · exact Or.inr ⟨x :: pre, y, post, m', rfl, hk, hpost, e⟩

/-- `set` over entries with distinct keys reads them first. -/
theorem get?_foldl_set_entries (h : (es.map Prod.fst).Nodup) (m : OrdMap κ ν) (k : κ) :
    (es.foldl (fun m e => m.set e.1 e.2) m).get? k = (find k es).or (m.get? k) := by
  induction es generalizing m with
  | nil => rfl
  | cons e es ih =>
      obtain ⟨k', v⟩ := e
      obtain ⟨hk', hes⟩ := List.nodup_cons.mp h
      rw [List.foldl_cons, ih hes, get?_set]
      by_cases hk : k = k'
      · subst hk
        -- the key does not occur again
        have hnone : find k es = none := get?_eq_none (m := ⟨es, hes⟩).mpr hk'
        rw [find, if_pos rfl, hnone, if_pos rfl]
        rfl
      · rw [find, if_neg (Ne.symm hk), if_neg hk]

theorem get?_ofList_of_nodup (h : (es.map Prod.fst).Nodup) (k : κ) :
    (ofList es).get? k = find k es :=
  (get?_foldl_set_entries h empty k).trans Option.or_none

theorem isSome_find : (find k es).isSome = true ↔ k ∈ es.map Prod.fst := by
  induction es with
  | nil => simp [find]
  | cons e es ih =>
      by_cases hk : e.1 = k
      · simp [find, hk]
      · simp [find, hk, ih, Ne.symm hk]

theorem find_append (k : κ) (es es' : List (κ × ν)) :
    find k (es ++ es') = (find k es).or (find k es') := by
  induction es with
  | nil => rfl
  | cons e es ih =>
      by_cases hk : e.1 = k
      · simp [find, hk]
      · simp [find, hk, ih]

/-- What is found in a map built from a list is the last entry with that key. -/
theorem get?_ofList (es : List (κ × ν)) (k : κ) :
    (ofList es).get? k = (latest (fun e => decide (e.1 = k)) es).map Prod.snd := by
  have hnone : ∀ {q : List (κ × ν)}, (∀ e ∈ q, e.1 ≠ k) →
      q.filter (fun e => decide (e.1 = k)) = [] := fun h =>
    List.filter_eq_nil_iff.mpr fun e he => by simpa using h e he
  rcases get?_foldl_set Prod.fst (fun _ e => e.2) es empty k with
      ⟨e, hno⟩ | ⟨pre, x, post, m', rfl, hk, hpost, e⟩
  · rw [latest, hnone hno]
    exact e
  · rw [latest, List.filter_append, List.filter_cons_of_pos (by simpa using hk), hnone hpost,
      List.getLast?_append]
    exact e

theorem mem_of_get?_ofList (h : (ofList es).get? k = some v) : (k, v) ∈ es := by
  rw [get?_ofList, Option.map_eq_some_iff] at h
  obtain ⟨e, he, rfl⟩ := h
  obtain ⟨hm, hk⟩ := latest_mem he
  rw [← of_decide_eq_true hk]
  exact hm

/-! ### Places -/

theorem setIn_eq_append (h : k ∉ es.map Prod.fst) :
    setIn k v es = es ++ [(k, v)] := by
  induction es with
  | nil => rfl
  | cons e es ih =>
      simp only [List.map_cons, List.mem_cons, not_or] at h
      simp [setIn, Ne.symm h.1, ih h.2]

/-- A new key goes last. -/
theorem entries_set_of_none (h : m.get? k = none) (v : ν) :
    (m.set k v).entries = m.entries ++ [(k, v)] := setIn_eq_append (get?_eq_none.mp h)

theorem size_set_of_none (h : m.get? k = none) (v : ν) :
    (m.set k v).size = m.size + 1 := by
  rw [size, entries_set_of_none h, List.length_append, List.length_singleton, size]

theorem setIn_split {v v' : ν} {pre post : List (κ × ν)} (h : k ∉ pre.map Prod.fst) :
    setIn k v' (pre ++ (k, v) :: post) = pre ++ (k, v') :: post := by
  induction pre with
  | nil => simp [setIn]
  | cons e pre ih =>
      simp only [List.map_cons, List.mem_cons, not_or] at h
      simp [setIn, Ne.symm h.1, ih h.2]

/-- A key that is present splits the entries into those before it and those after. -/
theorem exists_split (h : m.get? k = some v) :
    ∃ pre post, m.entries = pre ++ (k, v) :: post ∧ k ∉ pre.map Prod.fst ∧
      k ∉ post.map Prod.fst := by
  obtain ⟨pre, post, e⟩ := List.append_of_mem (get?_eq_some.mp h)
  have hn := m.nodup
  rw [e, List.map_append, List.map_cons, List.nodup_append] at hn
  obtain ⟨-, hpost, hdis⟩ := hn
  refine ⟨pre, post, e, fun hk => hdis _ hk _ List.mem_cons_self rfl, ?_⟩
  exact (List.nodup_cons.mp hpost).1

/-- A key already present keeps its place. -/
theorem entries_set_of_split {pre post : List (κ × ν)}
    (e : m.entries = pre ++ (k, v) :: post) (h : k ∉ pre.map Prod.fst) (v' : ν) :
    (m.set k v').entries = pre ++ (k, v') :: post := by
  change setIn k v' m.entries = _
  rw [e, setIn_split h]

/-- Entries with distinct keys are those of the map built from them. -/
theorem entries_ofList_of_nodup (h : (es.map Prod.fst).Nodup) :
    (ofList es).entries = es := by
  have hfold : ∀ (es : List (κ × ν)) (m : OrdMap κ ν),
      ((m.entries ++ es).map Prod.fst).Nodup →
      (es.foldl (fun m e => m.set e.1 e.2) m).entries = m.entries ++ es := by
    intro es
    induction es with
    | nil => exact fun m _ => (List.append_nil _).symm
    | cons e es ih =>
        intro m hm
        have hnone : m.get? e.1 = none := by
          refine get?_eq_none.mpr fun hmem => ?_
          rw [List.map_append, List.nodup_append] at hm
          exact hm.2.2 _ hmem _ List.mem_cons_self rfl
        have hentries := entries_set_of_none hnone e.2
        rw [List.append_cons, ← hentries] at hm
        rw [List.foldl_cons, ih _ hm, hentries, ← List.append_cons]
  exact hfold es empty h

theorem setIn_setIn {v v' : ν} :
    setIn k v' (setIn k v es) = setIn k v' es := by
  induction es with
  | nil => simp [setIn]
  | cons e es ih =>
      by_cases hk : e.1 = k
      · simp [setIn, hk]
      · simp [setIn, hk, ih]

@[simp] theorem set_set (m : OrdMap κ ν) (k : κ) (v v' : ν) :
    (m.set k v).set k v' = m.set k v' := ext setIn_setIn

theorem keys_set_of_has (h : m.get? k = some v) (v' : ν) :
    (m.set k v').keys = m.keys := by
  obtain ⟨pre, post, e, hpre, -⟩ := exists_split h
  simp [keys, entries_set_of_split e hpre, e]

/-- Erasing a key leaves the entries on either side of it. -/
theorem entries_erase_of_split {pre post : List (κ × ν)}
    (e : m.entries = pre ++ (k, v) :: post) (hpre : k ∉ pre.map Prod.fst)
    (hpost : k ∉ post.map Prod.fst) : (m.erase k).entries = pre ++ post := by
  have hkeep : ∀ {es : List (κ × ν)}, k ∉ es.map Prod.fst →
      es.filter (fun e => !decide (e.1 = k)) = es := fun h => by
    refine List.filter_eq_self.mpr fun a ha => ?_
    simp only [Bool.not_eq_true', decide_eq_false_iff_not]
    rintro rfl
    exact h (List.mem_map.mpr ⟨a, ha, rfl⟩)
  change m.entries.filter _ = _
  rw [e, List.filter_append, List.filter_cons_of_neg (by simp), hkeep hpre, hkeep hpost]

/-- Erasing the first key drops the first entry. -/
theorem entries_erase_head (e : m.entries = (k, v) :: es) : (m.erase k).entries = es := by
  have hn := m.nodup
  rw [e, List.map_cons, List.nodup_cons] at hn
  have e' : m.entries = [] ++ (k, v) :: es := e
  exact entries_erase_of_split e' (by simp) hn.1

@[simp] theorem erase_erase (m : OrdMap κ ν) (k : κ) : (m.erase k).erase k = m.erase k := by
  refine ext ?_
  simp [erase, filter]

theorem size_erase_of_some (h : m.get? k = some v) :
    (m.erase k).size + 1 = m.size := by
  obtain ⟨pre, post, e, hpre, hpost⟩ := exists_split h
  simp only [size, entries_erase_of_split e hpre hpost, e, List.length_append, List.length_cons]
  omega

/-! ### Totals -/

theorem sum_setIn (f : ν → Nat) :
    (((setIn k v es).map Prod.snd).map f).sum + ((find k es).map f).getD 0 =
      ((es.map Prod.snd).map f).sum + f v := by
  induction es with
  | nil => simp [setIn, find]
  | cons e es ih =>
      obtain ⟨k', v'⟩ := e
      by_cases hk : k' = k
      · simp only [setIn, find, if_pos hk, List.map_cons, List.sum_cons, Option.map_some,
          Option.getD_some]
        omega
      · simp only [setIn, find, if_neg hk, List.map_cons, List.sum_cons]
        omega

/-- What a total over the values gains and loses by a `set`. -/
theorem sum_set (f : ν → Nat) (m : OrdMap κ ν) (k : κ) (v : ν) :
    ((m.set k v).values.map f).sum + ((m.get? k).map f).getD 0 =
      (m.values.map f).sum + f v := sum_setIn f

end OrdMap

/-! ### Groups -/

section
variable {α κ : Type*} [DecidableEq κ]

/-- Each key with its elements, in their order; elements without a key are left out. -/
def groupOn (key : α → Option κ) (xs : List α) : OrdMap κ (List α) :=
  xs.foldl (fun (groups : OrdMap κ (List α)) x =>
    match key x with
    | none => groups
    | some k => groups.set k ((groups.get? k).getD [] ++ [x])) .empty

/-- The elements of a key are those of the list that have it. -/
theorem get?_groupOn (key : α → Option κ) (xs : List α) (k : κ) :
    (groupOn key xs).get? k =
      if xs.filter (fun x => key x = some k) = [] then none
      else some (xs.filter fun x => key x = some k) := by
  refine foldl_from_nil (P := fun seen (groups : OrdMap κ (List α)) => groups.get? k =
    if seen.filter (fun x => key x = some k) = [] then none
    else some (seen.filter fun x => key x = some k)) ?_ xs rfl
  intro seen groups x h
  rw [List.filter_append]
  cases hx : key x with
  | none =>
      rw [List.filter_cons_of_neg (by simp [hx]), List.filter_nil, List.append_nil]
      exact h
  | some k' =>
      dsimp only
      rw [OrdMap.get?_set]
      by_cases hk : k = k'
      · rw [if_pos hk, List.filter_cons_of_pos (by simp [hx, hk]), List.filter_nil, if_neg (by simp),
          ← hk, h]
        split
        · rename_i hnil
          rw [hnil]
          rfl
        · rfl
      · have hk' : key x ≠ some k := fun h => hk (Option.some.inj (h.symm.trans hx))
        rw [if_neg hk, List.filter_cons_of_neg (by simpa using hk'), List.filter_nil, List.append_nil]
        exact h

end

end Runir
