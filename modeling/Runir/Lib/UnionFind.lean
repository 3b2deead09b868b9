import Mathlib.Data.List.Perm.Subperm
import Runir.Lib.OrdMap

/-!
# Library — UnionFind

A union-find over a map of parents, without ranks and with path compression.

* `Forest parent ρ d`: the parents lead from `x` to its representative `ρ x`, and the depth `d` falls
  on the way.
* `find_eq`, `union_eq`, `getGroups_eq`: under it the operations answer, and keep it.  A find needs
  no more fuel than there are elements, since it meets no element twice.
* `Joins ρ R`: the representatives agree exactly on what `R` connects.  A union adds its pair to `R`
  (`Joins.merge`).
-/

namespace Runir

variable {κ : Type*} [DecidableEq κ]

structure UnionFind (κ : Type*) where
  parent : OrdMap κ κ

namespace UnionFind

/-- `find`: the root of `x`, and the parents after the path to it is compressed. -/
def findWithin : Nat → OrdMap κ κ → κ → Option (κ × OrdMap κ κ)
  | 0, _, _ => none
  | fuel + 1, parent, x =>
      let parent := if parent.has x then parent else parent.set x x
      let p := (parent.get? x).getD x
      if p = x then some (x, parent)
      else (findWithin fuel parent p).map fun (root, parent) => (root, parent.set x root)

/-- A path has no more elements than the map, and `x` itself may be new. -/
def find (uf : UnionFind κ) (x : κ) : Option (κ × UnionFind κ) :=
  (findWithin (uf.parent.size + 1) uf.parent x).map fun (root, parent) => (root, ⟨parent⟩)

def union (uf : UnionFind κ) (x y : κ) : Option (UnionFind κ) := do
  let (rx, uf) ← uf.find x
  let (ry, uf) ← uf.find y
  if rx ≠ ry then some ⟨uf.parent.set rx ry⟩ else some uf

def getGroups (uf : UnionFind κ) : Option (OrdMap κ (List κ)) :=
  (uf.parent.keys.foldlM (fun (acc : UnionFind κ × OrdMap κ (List κ)) id =>
      (acc.1.find id).map fun (root, uf) =>
        (uf, acc.2.set root ((acc.2.get? root).getD [] ++ [id])))
    (uf, .empty)).map Prod.snd

/-! ### Forests -/

/-- The parents lead from each element to its representative, and downwards in depth. -/
structure Forest (parent : OrdMap κ κ) (ρ : κ → κ) (d : κ → Nat) : Prop where
  has_parent : ∀ {x p}, parent.get? x = some p → (parent.get? p).isSome
  same : ∀ {x p}, parent.get? x = some p → ρ p = ρ x
  root : ∀ {x}, parent.get? x = some x → ρ x = x
  falls : ∀ {x p}, parent.get? x = some p → p ≠ x → d p < d x
  alone : ∀ {x}, parent.get? x = none → ρ x = x

theorem forest_empty : Forest (.empty : OrdMap κ κ) id fun _ => 0 where
  has_parent := fun h => nomatch h
  same := fun h => nomatch h
  root := fun _ => rfl
  falls := fun h => nomatch h
  alone := fun _ => rfl

variable {parent : OrdMap κ κ} {ρ : κ → κ} {d : κ → Nat}

variable {x p : κ}

/-- The representative of an element is a root, not higher than the element. -/
theorem Forest.get?_rep (h : Forest parent ρ d) (hx : parent.get? x = some p) :
    parent.get? (ρ x) = some (ρ x) ∧ (ρ x ≠ x → d (ρ x) < d x) := by
  induction hd : d x using Nat.strong_induction_on generalizing x p with
  | _ n ih =>
      by_cases hpx : p = x
      · subst hpx
        rw [h.root hx]
        exact ⟨hx, fun hne => absurd rfl hne⟩
      · have hfalls := h.falls hx hpx
        obtain ⟨q, hq⟩ := Option.isSome_iff_exists.mp (h.has_parent hx)
        obtain ⟨hroot, hlow⟩ := ih (d p) (hd ▸ hfalls) hq rfl
        rw [h.same hx] at hroot hlow
        refine ⟨hroot, fun _ => ?_⟩
        by_cases hρ : ρ x = p
        · rw [hρ, ← hd]
          exact hfalls
        · exact hd ▸ (hlow hρ).trans hfalls

theorem Forest.rep_rep (h : Forest parent ρ d) (x : κ) : ρ (ρ x) = ρ x := by
  cases hx : parent.get? x with
  | none => rw [h.alone hx, h.alone hx]
  | some p => exact h.root (h.get?_rep hx).1

/-- A new element is a tree of its own. -/
theorem Forest.insert (h : Forest parent ρ d) {x : κ} (hx : parent.get? x = none) :
    Forest (parent.set x x) ρ d where
  has_parent := by
    intro y p hy
    rw [OrdMap.get?_set] at hy ⊢
    split
    · rfl
    · next hpx =>
        split at hy
        · exact absurd (Option.some.inj hy).symm hpx
        · exact h.has_parent hy
  same := by
    intro y p hy
    rw [OrdMap.get?_set] at hy
    split at hy
    · next hyx => rw [← Option.some.inj hy, hyx]
    · exact h.same hy
  root := by
    intro y hy
    rw [OrdMap.get?_set] at hy
    split at hy
    · next hyx => exact hyx ▸ h.alone hx
    · exact h.root hy
  falls := by
    intro y p hy hpy
    rw [OrdMap.get?_set] at hy
    split at hy
    · next hyx => exact absurd ((Option.some.inj hy).symm.trans hyx.symm) hpy
    · exact h.falls hy hpy
  alone := by
    intro y hy
    rw [OrdMap.get?_set] at hy
    split at hy
    · cases hy
    · exact h.alone hy

/-- An element may point to its representative. -/
theorem Forest.compress (h : Forest parent ρ d) (hx : parent.get? x = some p) :
    Forest (parent.set x (ρ x)) ρ d := by
  obtain ⟨hroot, hlow⟩ := h.get?_rep hx
  refine ⟨?_, ?_, ?_, ?_, ?_⟩
  · intro y q hy
    rw [OrdMap.get?_set] at hy ⊢
    split
    · rfl
    · split at hy
      · rw [← Option.some.inj hy, hroot]
        rfl
      · exact h.has_parent hy
  · intro y q hy
    rw [OrdMap.get?_set] at hy
    split at hy
    · next hyx => rw [← Option.some.inj hy, hyx, h.rep_rep]
    · exact h.same hy
  · intro y hy
    rw [OrdMap.get?_set] at hy
    split at hy
    · next hyx => rw [hyx]; exact (Option.some.inj hy).trans hyx
    · exact h.root hy
  · intro y q hy hqy
    rw [OrdMap.get?_set] at hy
    split at hy
    · next hyx =>
        obtain rfl := Option.some.inj hy
        rw [hyx] at hqy ⊢
        exact hlow hqy
    · exact h.falls hy hqy
  · intro y hy
    rw [OrdMap.get?_set] at hy
    split at hy
    · cases hy
    · exact h.alone hy

/-- One root points to another. -/
def merge (ρ : κ → κ) (a b : κ) (x : κ) : κ := if ρ x = a then b else ρ x

theorem Forest.link (h : Forest parent ρ d) {a b : κ} (ha : parent.get? a = some a)
    (hb : parent.get? b = some b) (hne : a ≠ b) :
    Forest (parent.set a b) (merge ρ a b) fun x => if ρ x = a then d x + d b + 1 else d x := by
  have hρa := h.root ha
  have hρb : ρ b ≠ a := fun heq => hne (heq.symm.trans (h.root hb))
  refine ⟨?_, ?_, ?_, ?_, ?_⟩
  · intro x p hx
    rw [OrdMap.get?_set] at hx ⊢
    split
    · rfl
    · split at hx
      · rw [← Option.some.inj hx, hb]
        rfl
      · exact h.has_parent hx
  · intro x p hx
    rw [OrdMap.get?_set] at hx
    unfold merge
    split at hx
    · next hxa => rw [← Option.some.inj hx, hxa, if_neg hρb, if_pos hρa, h.root hb]
    · rw [h.same hx]
  · intro x hx
    rw [OrdMap.get?_set] at hx
    split at hx
    · next hxa => exact absurd (hxa.symm.trans (Option.some.inj hx).symm) hne
    · next hxa =>
        have hρx := h.root hx
        rw [merge, hρx, if_neg hxa]
  · intro x p hx hpx
    rw [OrdMap.get?_set] at hx
    split at hx
    · next hxa =>
        obtain rfl := Option.some.inj hx
        simp only [hxa, if_pos hρa, if_neg hρb]
        omega
    · have hlt := h.falls hx hpx
      have hsame := h.same hx
      simp only [hsame]
      split
      · omega
      · exact hlt
  · intro x hx
    rw [OrdMap.get?_set] at hx
    split at hx
    · cases hx
    · next hxa =>
        have hρx := h.alone hx
        rw [merge, hρx, if_neg hxa]

/-! ### The operations -/

/-- A list of distinct keys is no longer than the map. -/
theorem length_le_size {xs : List κ} (hnodup : xs.Nodup) (hmem : ∀ x ∈ xs, (parent.get? x).isSome) :
    xs.length ≤ parent.size := by
  have hkeys : ∀ x ∈ xs, x ∈ parent.keys := fun x hx => by
    by_contra hnot
    have hsome := hmem x hx
    rw [OrdMap.get?_eq_none.mpr hnot] at hsome
    cases hsome
  have hle := (List.subperm_of_subset hnodup hkeys).length_le
  rwa [OrdMap.keys, List.length_map] at hle

/-- A find visits elements of falling depth, so it never runs out of fuel. -/
theorem Forest.findWithin_eq (h : Forest parent ρ d) {fuel : Nat} {visited : List κ}
    (hx : parent.get? x = some p) (hnodup : visited.Nodup)
    (hvisited : ∀ v ∈ visited, (parent.get? v).isSome ∧ d x < d v)
    (hfuel : visited.length + fuel = parent.size + 1) :
    ∃ parent', findWithin fuel parent x = some (ρ x, parent') ∧ Forest parent' ρ d ∧
      parent'.keys = parent.keys := by
  induction fuel generalizing visited x p with
  | zero =>
      have hle := length_le_size hnodup fun v hv => (hvisited v hv).1
      omega
  | succ fuel ih =>
      have hhas : parent.has x = true := by rw [OrdMap.has, hx]; rfl
      by_cases hpx : p = x
      · subst hpx
        refine ⟨parent, ?_, h, rfl⟩
        simp [findWithin, hhas, hx, h.root hx]
      · obtain ⟨q, hq⟩ := Option.isSome_iff_exists.mp (h.has_parent hx)
        have hfalls := h.falls hx hpx
        have hfresh : x ∉ visited := fun hmem => absurd (hvisited x hmem).2 (Nat.lt_irrefl _)
        have hdeeper : ∀ v ∈ x :: visited, (parent.get? v).isSome ∧ d p < d v := by
          intro v hv
          rcases List.mem_cons.mp hv with rfl | hv
          · exact ⟨by rw [hx]; rfl, hfalls⟩
          · exact ⟨(hvisited v hv).1, hfalls.trans (hvisited v hv).2⟩
        obtain ⟨parent', hfind, hforest, hkeys⟩ :=
          ih hq (List.nodup_cons.mpr ⟨hfresh, hnodup⟩) hdeeper (by rw [List.length_cons]; omega)
        rw [h.same hx] at hfind
        have hx' : ∃ p', parent'.get? x = some p' := by
          cases hget : parent'.get? x with
          | some p' => exact ⟨p', rfl⟩
          | none =>
              have hnot := OrdMap.get?_eq_none.mp hget
              rw [hkeys] at hnot
              exact absurd (OrdMap.get?_eq_none.mpr hnot) (by rw [hx]; exact Option.some_ne_none p)
        obtain ⟨p', hp'⟩ := hx'
        refine ⟨parent'.set x (ρ x), ?_, hforest.compress hp', ?_⟩
        · simp [findWithin, hhas, hx, hpx, hfind]
        · rw [OrdMap.keys_set_of_has hp', hkeys]

variable {uf : UnionFind κ}

theorem find_eq (h : Forest uf.parent ρ d) {x : κ} (hx : x ∈ uf.parent.keys) :
    ∃ uf', uf.find x = some (ρ x, uf') ∧ Forest uf'.parent ρ d ∧ uf'.parent.keys = uf.parent.keys := by
  obtain ⟨p, hp⟩ := Option.ne_none_iff_exists'.mp fun hnone => OrdMap.get?_eq_none.mp hnone hx
  obtain ⟨parent', hfind, hforest, hkeys⟩ := h.findWithin_eq hp List.nodup_nil
    (fun v hv => nomatch hv) (Nat.zero_add _)
  exact ⟨⟨parent'⟩, by rw [find, hfind]; rfl, hforest, hkeys⟩

/-- A find of a new element adds it. -/
theorem find_new (h : Forest uf.parent ρ d) {x : κ} (hx : uf.parent.get? x = none) :
    uf.find x = some (x, ⟨uf.parent.set x x⟩) ∧ Forest (uf.parent.set x x) ρ d := by
  refine ⟨?_, h.insert hx⟩
  simp [find, findWithin, OrdMap.has, hx]

theorem merge_self (ρ : κ → κ) (a : κ) : merge ρ a a = ρ := by
  funext x
  unfold merge
  split
  · next h => exact h.symm
  · rfl

theorem union_eq (h : Forest uf.parent ρ d) {x y : κ} (hx : x ∈ uf.parent.keys)
    (hy : y ∈ uf.parent.keys) :
    ∃ uf' d', uf.union x y = some uf' ∧ Forest uf'.parent (merge ρ (ρ x) (ρ y)) d' ∧
      uf'.parent.keys = uf.parent.keys := by
  obtain ⟨uf₁, hfind₁, h₁, hkeys₁⟩ := find_eq h hx
  obtain ⟨uf₂, hfind₂, h₂, hkeys₂⟩ := find_eq h₁ (hkeys₁ ▸ hy)
  have hget : ∀ z ∈ uf.parent.keys, uf₂.parent.get? (ρ z) = some (ρ z) := by
    intro z hz
    rw [← hkeys₁, ← hkeys₂] at hz
    obtain ⟨p, hp⟩ := Option.ne_none_iff_exists'.mp fun hnone => OrdMap.get?_eq_none.mp hnone hz
    exact (h₂.get?_rep hp).1
  by_cases hne : ρ x = ρ y
  · refine ⟨uf₂, d, ?_, ?_, hkeys₂.trans hkeys₁⟩
    · simp [union, hfind₁, hfind₂, hne]
    · rw [hne, merge_self]
      exact h₂
  · refine ⟨⟨uf₂.parent.set (ρ x) (ρ y)⟩, _, ?_, h₂.link (hget x hx) (hget y hy) hne, ?_⟩
    · simp [union, hfind₁, hfind₂, hne]
    · exact (OrdMap.keys_set_of_has (hget x hx) _).trans (hkeys₂.trans hkeys₁)

/-- The groups are the elements by their representatives. -/
theorem getGroups_eq (h : Forest uf.parent ρ d) :
    uf.getGroups = some (groupOn (fun x => some (ρ x)) uf.parent.keys) := by
  have hfold : ∀ (ids : List κ) (uf' : UnionFind κ) (groups : OrdMap κ (List κ)),
      Forest uf'.parent ρ d → (∀ id ∈ ids, id ∈ uf'.parent.keys) →
      (ids.foldlM (fun (acc : UnionFind κ × OrdMap κ (List κ)) id =>
          (acc.1.find id).map fun (root, uf) =>
            (uf, acc.2.set root ((acc.2.get? root).getD [] ++ [id]))) (uf', groups)).map Prod.snd =
        some (ids.foldl (fun groups x => groups.set (ρ x) ((groups.get? (ρ x)).getD [] ++ [x]))
          groups) := by
    intro ids
    induction ids with
    | nil => intro uf' groups _ _; rfl
    | cons id ids ih =>
        intro uf' groups h' hmem
        obtain ⟨uf'', hfind, hforest, hkeys⟩ := find_eq h' (hmem id List.mem_cons_self)
        rw [List.foldlM_cons, List.foldl_cons, hfind]
        exact ih uf'' _ hforest fun x hx => hkeys ▸ hmem x (List.mem_cons_of_mem _ hx)
  exact hfold uf.parent.keys uf .empty h fun _ hx => hx

/-! ### What is joined -/

/-- The representatives agree exactly on what the relation connects. -/
def Joins (ρ : κ → κ) (R : κ → κ → Prop) : Prop := ∀ a b, ρ a = ρ b ↔ Relation.EqvGen R a b

omit [DecidableEq κ] in
theorem joins_id : Joins (id : κ → κ) fun _ _ => False := by
  intro a b
  constructor
  · rintro rfl
    exact .refl _
  · intro h
    induction h with
    | rel _ _ h => exact h.elim
    | refl => rfl
    | symm _ _ _ ih => exact ih.symm
    | trans _ _ _ _ _ ih₁ ih₂ => exact ih₁.trans ih₂

omit [DecidableEq κ] in
theorem Joins.congr {R S : κ → κ → Prop} (h : Joins ρ R)
    (hiff : ∀ a b, Relation.EqvGen R a b ↔ Relation.EqvGen S a b) : Joins ρ S :=
  fun a b => (h a b).trans (hiff a b)

/-- A union joins its pair. -/
theorem Joins.merge {R : κ → κ → Prop} (h : Joins ρ R) (x y : κ) :
    Joins (merge ρ (ρ x) (ρ y)) fun a b => R a b ∨ (a = x ∧ b = y) := by
  set S : κ → κ → Prop := fun a b => R a b ∨ (a = x ∧ b = y)
  have hold : ∀ a b, ρ a = ρ b → Relation.EqvGen S a b := fun a b hab =>
    Relation.EqvGen.mono (fun _ _ hr => Or.inl hr) a b ((h a b).mp hab)
  have hnew : Relation.EqvGen S x y := .rel _ _ (Or.inr ⟨rfl, rfl⟩)
  intro a b
  constructor
  · intro hab
    unfold UnionFind.merge at hab
    by_cases ha : ρ a = ρ x
    · rw [if_pos ha] at hab
      have hay : Relation.EqvGen S a y := (hold a x ha).trans _ _ _ hnew
      by_cases hb : ρ b = ρ x
      · exact (hold a b (ha.trans hb.symm))
      · rw [if_neg hb] at hab
        exact hay.trans _ _ _ (hold y b hab)
    · rw [if_neg ha] at hab
      by_cases hb : ρ b = ρ x
      · rw [if_pos hb] at hab
        exact (hold a y hab).trans _ _ _ ((hnew.symm _ _).trans _ _ _ ((hold b x hb).symm _ _))
      · rw [if_neg hb] at hab
        exact hold a b hab
  · intro hab
    induction hab with
    | rel a b hab =>
        rcases hab with hab | ⟨rfl, rfl⟩
        · have hρ : ρ a = ρ b := (h a b).mpr (.rel _ _ hab)
          unfold UnionFind.merge
          rw [hρ]
        · unfold UnionFind.merge
          rw [if_pos rfl]
          split
          · rfl
          · rfl
    | refl => rfl
    | symm _ _ _ ih => exact ih.symm
    | trans _ _ _ _ _ ih₁ ih₂ => exact ih₁.trans ih₂

end UnionFind

end Runir
