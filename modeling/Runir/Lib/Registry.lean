import Runir.Lib.OrdMap

/-!
# Library — Registry

Two maps over one set of records: `byOwner` finds a record by who owns it, `byName` by its own
name.  `Inverse owner name byOwner byName` says that each finds exactly what the other does.

* `Inverse.add`, `Inverse.remove`, `Inverse.replace`: the three updates that keep it so, each with
  what it has to look up first.
-/

namespace Runir.Registry
variable {κ ι ρ : Type*} [DecidableEq κ] [DecidableEq ι]

/-- Either map finds what the other does, each under the record's own key. -/
structure Inverse (owner : ρ → κ) (name : ρ → ι) (byOwner : OrdMap κ ρ) (byName : OrdMap ι ρ) :
    Prop where
  of_owner : ∀ k r, byOwner.get? k = some r → owner r = k ∧ byName.get? (name r) = some r
  of_name : ∀ i r, byName.get? i = some r → name r = i ∧ byOwner.get? (owner r) = some r

variable {owner : ρ → κ} {name : ρ → ι} {byOwner : OrdMap κ ρ} {byName : OrdMap ι ρ}

theorem inverse_empty : Inverse owner name .empty .empty where
  of_owner k r h := by cases h
  of_name i r h := by cases h

namespace Inverse

/-- A record whose owner and name are both new. -/
theorem add (h : Inverse owner name byOwner byName) {r : ρ} (hk : byOwner.get? (owner r) = none)
    (hi : byName.get? (name r) = none) :
    Inverse owner name (byOwner.set (owner r) r) (byName.set (name r) r) where
  of_owner k r' hr' := by
    rw [OrdMap.get?_set] at hr'
    split at hr'
    · next hkr =>
        cases hr'
        exact ⟨hkr.symm, OrdMap.get?_set_self ..⟩
    · obtain ⟨hown, hname⟩ := h.of_owner k r' hr'
      refine ⟨hown, ?_⟩
      rw [OrdMap.get?_set_ne]
      · exact hname
      · intro he
        rw [he, hi] at hname
        cases hname
  of_name i r' hr' := by
    rw [OrdMap.get?_set] at hr'
    split at hr'
    · next hir =>
        cases hr'
        exact ⟨hir.symm, OrdMap.get?_set_self ..⟩
    · obtain ⟨hnam, hown⟩ := h.of_name i r' hr'
      refine ⟨hnam, ?_⟩
      rw [OrdMap.get?_set_ne]
      · exact hown
      · intro he
        rw [he, hk] at hown
        cases hown

/-- A record is forgotten under its name and its owner. -/
theorem remove (h : Inverse owner name byOwner byName) {i : ι} {r : ρ}
    (hr : byName.get? i = some r) :
    Inverse owner name (byOwner.erase (owner r)) (byName.erase i) where
  of_owner k r' hr' := by
    rw [OrdMap.get?_erase] at hr'
    split at hr'
    · cases hr'
    next hk =>
    obtain ⟨hown, hname⟩ := h.of_owner k r' hr'
    refine ⟨hown, ?_⟩
    rw [OrdMap.get?_erase, if_neg]
    · exact hname
    · rintro rfl
      rw [hr] at hname
      cases hname
      exact hk hown.symm
  of_name j r' hr' := by
    rw [OrdMap.get?_erase] at hr'
    split at hr'
    · cases hr'
    next hj =>
    obtain ⟨hnam, hown⟩ := h.of_name j r' hr'
    refine ⟨hnam, ?_⟩
    rw [OrdMap.get?_erase, if_neg]
    · exact hown
    · intro he
      -- one owner would have two records
      rw [he, (h.of_name i r hr).2] at hown
      cases hown
      exact hj (hnam.symm.trans (h.of_name i r hr).1)

/-- A record takes the place of the one of its name, and its owner has none other. -/
theorem replace (h : Inverse owner name byOwner byName) {r current : ρ}
    (hcurrent : byName.get? (name r) = some current)
    (hfree : ∀ r', byOwner.get? (owner r) = some r' → name r' = name r) :
    Inverse owner name ((byOwner.erase (owner current)).set (owner r) r) (byName.set (name r) r) where
  of_owner k r' hr' := by
    rw [OrdMap.get?_set] at hr'
    split at hr'
    · next hkr =>
        cases hr'
        exact ⟨hkr.symm, OrdMap.get?_set_self ..⟩
    next hkr =>
    rw [OrdMap.get?_erase] at hr'
    split at hr'
    · cases hr'
    next hkc =>
    obtain ⟨hown, hname⟩ := h.of_owner k r' hr'
    refine ⟨hown, ?_⟩
    rw [OrdMap.get?_set_ne]
    · exact hname
    · intro he
      rw [he, hcurrent] at hname
      cases hname
      exact hkc hown.symm
  of_name i r' hr' := by
    rw [OrdMap.get?_set] at hr'
    split at hr'
    · next hir =>
        cases hr'
        exact ⟨hir.symm, OrdMap.get?_set_self ..⟩
    next hir =>
    obtain ⟨hnam, hown⟩ := h.of_name i r' hr'
    refine ⟨hnam, ?_⟩
    rw [OrdMap.get?_set_ne, OrdMap.get?_erase, if_neg]
    · exact hown
    · intro he
      -- the record replaced is the only one of its owner
      rw [he, (h.of_name _ _ hcurrent).2] at hown
      cases hown
      exact hir (hnam.symm.trans (h.of_name _ _ hcurrent).1)
    · intro he
      rw [he] at hown
      exact hir (hnam.symm.trans (hfree r' hown))

end Inverse

end Runir.Registry
