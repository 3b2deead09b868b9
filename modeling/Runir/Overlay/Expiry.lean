import Mathlib.Algebra.Order.BigOperators.Group.List
import Mathlib.Algebra.Order.Group.Nat
import Runir.Overlay.Store

/-!
# Overlay — Expiry

Lazy expiry, and the number of entries a registry holds.  A store or a registry is *settled* at an
instant when nothing in it has expired by then; every operation that looks at sizes or heads first
settles what it looks at.
-/

namespace Runir

/-! ### One tenant -/

variable {now : Int} {s : PerTenantStore}

namespace PerTenantStore

@[ext] theorem ext {s s' : PerTenantStore} (h : s.entries = s'.entries) : s = s' := by
  cases s; cases s'; cases h; rfl

@[simp] theorem lazyExpire_lazyExpire (now : Int) (s : PerTenantStore) :
    (s.lazyExpire now).lazyExpire now = s.lazyExpire now := by
  refine ext (OrdMap.ext ?_)
  simp [lazyExpire, OrdMap.filter]

/-- No entry has expired. -/
def Settled (now : Int) (s : PerTenantStore) : Prop := s.lazyExpire now = s

theorem settled_lazyExpire (now : Int) (s : PerTenantStore) : Settled now (s.lazyExpire now) :=
  lazyExpire_lazyExpire now s

theorem settled_iff :
    Settled now s ↔ ∀ e ∈ s.entries.entries, now < e.2.expiresAtMs := by
  constructor
  · intro h e he
    rw [← h] at he
    exact of_decide_eq_true (List.mem_filter.mp he).2
  · intro h
    exact ext (OrdMap.ext (List.filter_eq_self.mpr fun e he => decide_eq_true (h e he)))

theorem size_lazyExpire_le (now : Int) (s : PerTenantStore) :
    (s.lazyExpire now).entries.size ≤ s.entries.size :=
  List.length_filter_le _ _

/-- Erasing a key drops at most what it held. -/
theorem size_erase_le (s : PerTenantStore) (k : String) :
    (s.entries.erase k).size ≤ s.entries.size :=
  List.length_filter_le _ _

/-- Evicting the head of a settled store drops its first entry. -/
theorem evictLruHead_cons (hs : Settled now s)
    {k : String} {e : OverlayEntry} {es : List (String × OverlayEntry)}
    (he : s.entries.entries = (k, e) :: es) :
    (s.evictLruHead now).1 = true ∧ (s.evictLruHead now).2.entries.entries = es := by
  have hk : s.entries.keys = k :: es.map Prod.fst := by simp [OrdMap.keys, he]
  simp only [evictLruHead, show s.lazyExpire now = s from hs, hk]
  exact ⟨trivial, OrdMap.entries_erase_head he⟩

theorem settled_of_subset {s s' : PerTenantStore} (hs : Settled now s)
    (h : ∀ e ∈ s'.entries.entries, e ∈ s.entries.entries) : Settled now s' :=
  settled_iff.mpr fun e he => settled_iff.mp hs e (h e he)

theorem Settled.evictLruHead (hs : Settled now s) :
    (s.evictLruHead now).2.Settled now := by
  cases he : s.entries.entries with
  | nil =>
      have hk : s.entries.keys = [] := by simp [OrdMap.keys, he]
      simp only [PerTenantStore.evictLruHead, show s.lazyExpire now = s from hs, hk]
      exact hs
  | cons e es =>
      refine settled_of_subset hs fun a ha => ?_
      rw [(evictLruHead_cons hs he).2] at ha
      rw [he]
      exact List.mem_cons_of_mem _ ha

/-- `get` drops an expired entry or moves a live one. -/
theorem size_get_le (now : Int) (lockKey : OverlayLockKey) (s : PerTenantStore) :
    (s.get now lockKey).2.entries.size ≤ s.entries.size := by
  cases hk : s.entries.get? (serializeLockKey lockKey) with
  | none => simp only [get, hk, le_refl]
  | some e =>
      have hsize := OrdMap.size_erase_of_some hk
      have hnone : (s.entries.erase (serializeLockKey lockKey)).get? (serializeLockKey lockKey) =
          none := by rw [OrdMap.get?_erase, if_pos rfl]
      by_cases hexp : e.expiresAtMs ≤ now
      · simp only [get, hk, if_pos hexp]
        omega
      · simp only [get, hk, if_neg hexp, OrdMap.size_set_of_none hnone]
        omega

end PerTenantStore

namespace OverlayRegistry

@[simp] theorem store_setStore_self (r : OverlayRegistry) (u : String) (s : PerTenantStore) :
    (r.setStore u s).store u = s := by
  simp [store, setStore]

theorem store_setStore_ne (r : OverlayRegistry) {u v : String} (s : PerTenantStore) (h : v ≠ u) :
    (r.setStore u s).store v = r.store v := by
  simp [store, setStore, OrdMap.get?_set_ne _ _ h]

@[simp] theorem expireAll_expireAll (now : Int) (r : OverlayRegistry) :
    (r.expireAll now).expireAll now = r.expireAll now := by
  simp only [expireAll, OrdMap.mapValues, List.map_map, Function.comp_def,
    PerTenantStore.lazyExpire_lazyExpire]

theorem store_expireAll (now : Int) (r : OverlayRegistry) (u : String) :
    (r.expireAll now).store u = (r.store u).lazyExpire now := by
  simp only [store, expireAll, OrdMap.get?_mapValues]
  cases r.tenants.get? u with
  | none => rfl
  | some s => rfl

/-- No entry of any tenant has expired. -/
def Settled (now : Int) (r : OverlayRegistry) : Prop := r.expireAll now = r

theorem settled_expireAll (now : Int) (r : OverlayRegistry) : Settled now (r.expireAll now) :=
  expireAll_expireAll now r

variable {r : OverlayRegistry}

theorem Settled.store (h : Settled now r) (u : String) :
    (r.store u).Settled now := by
  have hu := store_expireAll now r u
  rw [h] at hu
  exact hu.symm

theorem expireAll_setStore (now : Int) (r : OverlayRegistry) (u : String) (s : PerTenantStore) :
    (r.setStore u s).expireAll now = (r.expireAll now).setStore u (s.lazyExpire now) := by
  simp only [expireAll, setStore, mk.injEq]
  refine OrdMap.ext ?_
  change (OrdMap.setIn u s r.tenants.entries).map _ = OrdMap.setIn u _ (r.tenants.entries.map _)
  induction r.tenants.entries with
  | nil => rfl
  | cons t ts ih =>
      by_cases ht : t.1 = u
      · simp [OrdMap.setIn, ht]
      · simp [OrdMap.setIn, ht, ih]

theorem Settled.setStore (h : Settled now r) {u : String}
    (hs : s.Settled now) : Settled now (r.setStore u s) := by
  rw [Settled, expireAll_setStore, h, hs]

/-! ### What a registry holds -/

/-- What replacing a tenant's store adds to the registry and takes from it. -/
theorem held_setStore (r : OverlayRegistry) (u : String) (s : PerTenantStore) :
    (r.setStore u s).held + (r.store u).entries.size = r.held + s.entries.size := by
  have h := OrdMap.sum_set (fun s : PerTenantStore => s.entries.size) r.tenants u s
  simp only [held, setStore, store]
  cases hu : r.tenants.get? u with
  | none =>
      rw [hu] at h
      simpa [PerTenantStore.empty, OrdMap.empty, OrdMap.size] using h
  | some s₀ =>
      rw [hu] at h
      simpa using h

theorem held_expireAll_le (now : Int) (r : OverlayRegistry) : (r.expireAll now).held ≤ r.held := by
  simp only [held, expireAll, OrdMap.values, OrdMap.mapValues, List.map_map, Function.comp_def]
  exact List.sum_le_sum fun t _ => PerTenantStore.size_lazyExpire_le now t.2

theorem globalSize_eq (now : Int) (r : OverlayRegistry) :
    r.globalSize now = ((r.expireAll now).held, r.expireAll now) := by
  simp only [globalSize, held, expireAll, OrdMap.values, OrdMap.mapValues, List.map_map,
    Function.comp_def, PerTenantStore.size]

/-- Within both caps, expired entries counted. -/
def Capped (opts : OverlayRegistryOptions) (r : OverlayRegistry) : Prop :=
  r.held ≤ opts.globalAggregateCap ∧ ∀ u, (r.store u).entries.size ≤ opts.perTenantCap

variable {opts : OverlayRegistryOptions}

theorem capped_expireAll (now : Int) (h : Capped opts r) : Capped opts (r.expireAll now) := by
  refine ⟨(held_expireAll_le now r).trans h.1, fun u => ?_⟩
  rw [store_expireAll]
  exact (PerTenantStore.size_lazyExpire_le now _).trans (h.2 u)

/-- A tenant's store may be replaced by one that holds no more. -/
theorem capped_setStore {u : String}
    (h : Capped opts r) (hs : s.entries.size ≤ (r.store u).entries.size) :
    Capped opts (r.setStore u s) := by
  refine ⟨?_, fun v => ?_⟩
  · have := held_setStore r u s
    have := h.1
    omega
  · by_cases hv : v = u
    · subst hv
      rw [store_setStore_self]
      exact hs.trans (h.2 v)
    · rw [store_setStore_ne r s hv]
      exact h.2 v

theorem store_forUser (r : OverlayRegistry) (u v : String) :
    (r.forUser u).store v = r.store v := by
  unfold forUser
  by_cases hu : r.tenants.has u = true
  · rw [if_pos hu]
  · rw [if_neg hu]
    by_cases hv : v = u
    · subst hv
      have hn : r.tenants.get? v = none := by
        simpa [OrdMap.has] using hu
      simp [store, setStore, hn]
    · exact store_setStore_ne r _ hv

theorem held_forUser (r : OverlayRegistry) (u : String) : (r.forUser u).held = r.held := by
  unfold forUser
  by_cases hu : r.tenants.has u = true
  · rw [if_pos hu]
  · rw [if_neg hu]
    have hn : r.tenants.get? u = none := by
      simpa [OrdMap.has] using hu
    have := held_setStore r u .empty
    simpa [store, hn] using this

theorem capped_forUser (u : String) (h : Capped opts r) : Capped opts (r.forUser u) :=
  ⟨(held_forUser r u).symm ▸ h.1, fun v => (store_forUser r u v).symm ▸ h.2 v⟩

end OverlayRegistry

end Runir
