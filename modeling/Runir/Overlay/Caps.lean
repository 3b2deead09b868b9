import Runir.Overlay.Passes

/-!
# Overlay — Caps

What the eviction passes of `afterPut` leave.  Before a call the registry holds no more than its
caps allow, so a `put` exceeds each of them by at most one entry and each pass evicts at most
once.

* `capped_serveAll`: after any history of calls no cap is exceeded.
* `put_caps_and_survival`: a `put` keeps the caps, and the entry it inserted is lost exactly when
  the registry was full, its tenant held nothing else, and its tenant wins the comparison of
  `registryLruHead` against every other tenant's head (`Crowded`).
-/

namespace Runir

namespace OverlayRegistry

/-! ### A put -/

/-- The registry a `put` adds to: the tenant registered, the entry under the same lock key gone,
and everything that has expired gone. -/
def vacated (now : Int) (u : String) (lockKey : OverlayLockKey) (r : OverlayRegistry) :
    OverlayRegistry :=
  let r := r.forUser u
  (r.setStore u ⟨(r.store u).entries.erase (serializeLockKey lockKey)⟩).expireAll now

/-- The heads of the tenants registered before `u`. -/
def headsBefore (r : OverlayRegistry) (u : String) : List OverlayEntry :=
  (r.tenants.entries.takeWhile fun t => !decide (t.1 = u)).filterMap
    fun t => t.2.entries.values.head?

/-- The heads of the tenants registered after `u`. -/
def headsAfter (r : OverlayRegistry) (u : String) : List OverlayEntry :=
  ((r.tenants.entries.dropWhile fun t => !decide (t.1 = u)).drop 1).filterMap
    fun t => t.2.entries.values.head?

/-- There is no room for `entry`: the registry is full, `u` holds nothing else to give up, and
every other tenant's head was accessed later, or at the same instant by a tenant registered after
`u`. -/
def Crowded (opts : OverlayRegistryOptions) (u : String) (entry : OverlayEntry)
    (r : OverlayRegistry) : Prop :=
  r.held = opts.globalAggregateCap ∧ (r.store u).entries.size = 0 ∧
    (∀ h ∈ r.headsBefore u, entry.lastAccessedAtMs < h.lastAccessedAtMs) ∧
    (∀ h ∈ r.headsAfter u, entry.lastAccessedAtMs ≤ h.lastAccessedAtMs)

instance (opts : OverlayRegistryOptions) (u : String) (entry : OverlayEntry)
    (r : OverlayRegistry) : Decidable (Crowded opts u entry r) :=
  inferInstanceAs (Decidable (_ ∧ _ ∧ _ ∧ _))

variable {r : OverlayRegistry} {now : Int}

theorem Settled.of_mem (hr : Settled now r)
    {t : String × PerTenantStore} (ht : t ∈ r.tenants.entries) : t.2.Settled now := by
  have hu : r.tenants.get? t.1 = some t.2 := OrdMap.get?_eq_some.mpr ht
  have hst : r.store t.1 = t.2 := by simp [OverlayRegistry.store, hu]
  exact hst ▸ hr.store t.1

variable {u : String}

/-- `Picked` on a settled registry, in terms of the registration order. -/
theorem picked_iff (hr : Settled now r) {h : OverlayEntry} :
    Picked now r.tenants.entries u h ↔
      (r.store u).entries.values.head? = some h ∧
        (∀ h' ∈ r.headsBefore u, h.lastAccessedAtMs < h'.lastAccessedAtMs) ∧
        (∀ h' ∈ r.headsAfter u, h.lastAccessedAtMs ≤ h'.lastAccessedAtMs) := by
  have hheads : ∀ {ts : List (String × PerTenantStore)} {P : OverlayEntry → Prop},
      (∀ t ∈ ts, t ∈ r.tenants.entries) →
      ((∀ h' ∈ ts.filterMap fun t => t.2.entries.values.head?, P h') ↔
        ∀ t ∈ ts, ∀ h' ∈ (t.2.lruHead now).1, P h') := by
    intro ts P hts
    simp only [List.mem_filterMap]
    constructor
    · intro hall t ht h' hh
      exact hall h' ⟨t, ht, lruHead_eq (hr.of_mem (hts t ht)) ▸ hh⟩
    · rintro hall h' ⟨t, ht, hh⟩
      exact hall t ht h' ((lruHead_eq (hr.of_mem (hts t ht))).symm ▸ hh)
  rw [headsBefore, headsAfter, hheads fun t ht => List.takeWhile_subset _ ht,
    hheads fun t ht => (List.dropWhile_sublist _).subset ((List.drop_sublist _ _).subset ht)]
  cases hu : r.tenants.get? u with
  | none =>
      refine iff_of_false ?_ (by simp [store, hu, PerTenantStore.empty, OrdMap.empty, OrdMap.values])
      rintro ⟨pre, s, post, e, -⟩
      have hs : r.tenants.get? u = some s := OrdMap.get?_eq_some.mpr (by simp [e])
      rw [hu] at hs
      cases hs
  | some s₀ =>
      obtain ⟨pre, post, e, hpre, -⟩ := OrdMap.exists_split hu
      have htw : ∀ {q : List (String × PerTenantStore)}, u ∉ q.map Prod.fst →
          ∀ t ∈ q, (!decide (t.1 = u)) = true := fun hq t ht => by
        simp only [Bool.not_eq_true', decide_eq_false_iff_not]
        rintro rfl
        exact hq (List.mem_map.mpr ⟨t, ht, rfl⟩)
      have hst : r.store u = s₀ := by simp [store, hu]
      have hhead := lruHead_eq (hr.store u)
      rw [hst] at hhead ⊢
      rw [← hhead, e, List.takeWhile_append_of_pos (htw hpre),
        List.dropWhile_append_of_pos (htw hpre)]
      simp only [List.takeWhile_cons, List.dropWhile_cons, decide_true, Bool.not_true,
        Bool.false_eq_true, if_false, List.append_nil, List.drop_one, List.tail_cons]
      constructor
      · rintro ⟨pre', s, post', e', hs, hb, ha⟩
        have hnd := r.tenants.nodup
        rw [e, e', List.map_append, List.map_cons, List.nodup_append] at hnd
        have hpre' : u ∉ pre'.map Prod.fst := fun hm => hnd.2.2 _ hm _ List.mem_cons_self rfl
        have e₁ := congrArg (List.takeWhile fun t => !decide (t.1 = u)) e'
        have e₂ := congrArg (List.dropWhile fun t => !decide (t.1 = u)) e'
        rw [List.takeWhile_append_of_pos (htw hpre), List.takeWhile_append_of_pos (htw hpre')] at e₁
        rw [List.dropWhile_append_of_pos (htw hpre), List.dropWhile_append_of_pos (htw hpre')] at e₂
        simp only [List.takeWhile_cons, List.dropWhile_cons, decide_true, Bool.not_true,
          Bool.false_eq_true, if_false, List.append_nil, List.cons.injEq, Prod.mk.injEq,
          true_and] at e₁ e₂
        obtain ⟨rfl, rfl⟩ := e₂
        subst e₁
        exact ⟨hs, hb, ha⟩
      · rintro ⟨hs, hb, ha⟩
        exact ⟨pre, s₀, post, rfl, hs, hb, ha⟩

@[simp] theorem setStore_setStore (r : OverlayRegistry) (u : String) (s s' : PerTenantStore) :
    (r.setStore u s).setStore u s' = r.setStore u s' := by
  simp [setStore]

theorem get?_setStore_self (r : OverlayRegistry) (u : String) (s : PerTenantStore) :
    (r.setStore u s).tenants.get? u = some s := by
  simp [setStore]

theorem get?_setStore_isSome (v : String) (s : PerTenantStore)
    (h : r.tenants.get? u = some (r.store u)) :
    (r.setStore v s).tenants.get? u = some ((r.setStore v s).store u) := by
  by_cases hv : u = v
  · subst hv; rw [get?_setStore_self, store_setStore_self]
  · rw [store_setStore_ne r s hv, ← h, setStore, OrdMap.get?_set_ne _ _ hv]

theorem settled_vacated (now : Int) (u : String) (lockKey : OverlayLockKey)
    (r : OverlayRegistry) : Settled now (r.vacated now u lockKey) :=
  settled_expireAll now _

variable {opts : OverlayRegistryOptions}

theorem capped_vacated (h : Capped opts r) (now : Int) (u : String) (lockKey : OverlayLockKey) :
    Capped opts (r.vacated now u lockKey) :=
  capped_expireAll now (capped_setStore (capped_forUser u h) (PerTenantStore.size_erase_le _ _))

/-- `u`'s store once `entry` is in it and everything that has expired is gone. -/
def grown (now : Int) (u : String) (lockKey : OverlayLockKey) (entry : OverlayEntry)
    (r : OverlayRegistry) : PerTenantStore :=
  ((r.store u).insert lockKey entry).lazyExpire now

/-- The registry with `entry` in it, before `afterPut`. -/
def inserted (u : String) (lockKey : OverlayLockKey) (entry : OverlayEntry)
    (r : OverlayRegistry) : OverlayRegistry :=
  (r.forUser u).setStore u (((r.forUser u).store u).insert lockKey entry)

/-- The registry pass 1 works on: the vacated one with `u`'s store grown. -/
def filled (now : Int) (u : String) (lockKey : OverlayLockKey) (entry : OverlayEntry)
    (r : OverlayRegistry) : OverlayRegistry :=
  (r.vacated now u lockKey).setStore u ((r.forUser u).grown now u lockKey entry)

theorem expireAll_inserted (now : Int) (u : String) (lockKey : OverlayLockKey)
    (entry : OverlayEntry) (r : OverlayRegistry) :
    (r.inserted u lockKey entry).expireAll now = r.filled now u lockKey entry := by
  rw [inserted, filled, vacated, expireAll_setStore, expireAll_setStore, setStore_setStore, grown]

/-- An entry that has not expired goes last. -/
theorem entries_grown {lockKey : OverlayLockKey} {entry : OverlayEntry}
    (hlive : now < entry.expiresAtMs) :
    ((r.forUser u).grown now u lockKey entry).entries.entries =
      ((r.vacated now u lockKey).store u).entries.entries ++
        [(serializeLockKey lockKey, entry)] := by
  have hset := OrdMap.entries_set_of_none (m := ((r.forUser u).store u).entries.erase
    (serializeLockKey lockKey)) (by rw [OrdMap.get?_erase, if_pos rfl]) entry
  rw [vacated, store_expireAll, store_setStore_self]
  simp only [grown, PerTenantStore.insert, PerTenantStore.lazyExpire, OrdMap.filter, hset,
    List.filter_append, List.filter_cons, decide_eq_true hlive, if_true, List.filter_nil]

theorem size_grown_le (now : Int) (u : String) (lockKey : OverlayLockKey) (entry : OverlayEntry)
    (r : OverlayRegistry) :
    ((r.forUser u).grown now u lockKey entry).entries.size ≤
      ((r.vacated now u lockKey).store u).entries.size + 1 := by
  have hset := OrdMap.entries_set_of_none (m := ((r.forUser u).store u).entries.erase
    (serializeLockKey lockKey)) (by rw [OrdMap.get?_erase, if_pos rfl]) entry
  rw [vacated, store_expireAll, store_setStore_self]
  simp only [grown, PerTenantStore.insert, PerTenantStore.lazyExpire, OrdMap.filter, hset,
    List.filter_append, OrdMap.size, List.length_append]
  exact Nat.add_le_add_left (List.length_filter_le _ _) _

section
variable {opts : OverlayRegistryOptions} {now : Int} {u : String} {lockKey : OverlayLockKey}
  {entry : OverlayEntry} {r : OverlayRegistry}

/-- A `put` drops nothing of a tenant but what has expired and its oldest entries. -/
theorem suffix_put (v : String) :
    ((r.put opts now u lockKey entry).store v).entries.entries <:+
      (((r.inserted u lockKey entry).expireAll now).store v).entries.entries := by
  change ((afterPut opts now u (r.inserted u lockKey entry)).store v).entries.entries <:+ _
  unfold afterPut
  obtain ⟨hset, hsuf⟩ := suffix_evictGlobally opts
    ((r.inserted u lockKey entry).held + 1) (settled_expireAll now (r.inserted u lockKey entry))
  rw [← evictGlobally_expireAll] at hset hsuf
  generalize evictGlobally opts now ((r.inserted u lockKey entry).held + 1)
    (r.inserted u lockKey entry) = r₁ at hset hsuf
  cases hu : r₁.tenants.get? u with
  | none => simpa only [hu] using hsuf v
  | some s =>
      have hst : r₁.store u = s := by simp [store, hu]
      simp only [hu]
      by_cases hv : v = u
      · subst hv
        rw [store_setStore_self]
        refine (suffix_evictLocally _ (hst ▸ hset.store v)).trans ?_
        rw [← hst]
        exact hsuf v
      · rw [store_setStore_ne _ _ hv]
        exact hsuf v

theorem suffix_put_ne {v : String} (hv : v ≠ u) :
    ((r.put opts now u lockKey entry).store v).entries.entries <:+
      ((r.store v).lazyExpire now).entries.entries := by
  have h : ((r.put opts now u lockKey entry).store v).entries.entries <:+
      (((r.inserted u lockKey entry).expireAll now).store v).entries.entries := suffix_put v
  rwa [store_expireAll, inserted, store_setStore_ne _ _ hv, store_forUser] at h

/-- A `put` leaves the tenant some of its newest unexpired entries under other keys, with the new
entry, unless it has expired, after them. -/
theorem suffix_put_self :
    ((r.put opts now u lockKey entry).store u).entries.entries <:+
      (((r.store u).entries.erase (serializeLockKey lockKey)).entries ++
        [(serializeLockKey lockKey, entry)]).filter fun e => decide (now < e.2.expiresAtMs) := by
  have hset := OrdMap.entries_set_of_none (m := (r.store u).entries.erase
    (serializeLockKey lockKey)) (by rw [OrdMap.get?_erase, if_pos rfl]) entry
  have h : ((r.put opts now u lockKey entry).store u).entries.entries <:+
      (((r.inserted u lockKey entry).expireAll now).store u).entries.entries := suffix_put u
  rw [store_expireAll, inserted, store_setStore_self, store_forUser] at h
  simpa only [PerTenantStore.lazyExpire, PerTenantStore.insert, OrdMap.filter, hset] using h

variable {s : PerTenantStore}

/-- The registry a `put` leaves, from the one pass 1 leaves. -/
theorem put_eq {r₁ : OverlayRegistry}
    (h₁ : evictGlobally opts now ((r.inserted u lockKey entry).held + 1)
      (r.inserted u lockKey entry) = r₁) (hs : r₁.tenants.get? u = some s) (hset : s.Settled now)
    (hle : s.entries.size ≤ opts.perTenantCap + 1) :
    r.put opts now u lockKey entry = r₁.setStore u (trimmed opts now s) := by
  change afterPut opts now u (r.inserted u lockKey entry) = _
  rw [afterPut, h₁]
  simp only [hs, evictLocally_spec hset hle]

/-- Pass 2 leaves the store within its cap and adds nothing to it. -/
theorem size_trimmed (hset : s.Settled now) (hle : s.entries.size ≤ opts.perTenantCap + 1) :
    (trimmed opts now s).entries.size ≤ opts.perTenantCap ∧
      (trimmed opts now s).entries.size ≤ s.entries.size := by
  unfold trimmed
  by_cases hlt : opts.perTenantCap < s.entries.size
  · rw [if_pos hlt]
    cases he : s.entries.entries with
    | nil => simp [OrdMap.size, he] at hlt
    | cons t es =>
        have h₁ := (PerTenantStore.evictLruHead_cons hset he).2
        simp only [OrdMap.size, h₁, he, List.length_cons] at hle ⊢
        omega
  · rw [if_neg hlt]
    omega

/-- Pass 2 keeps the last entry, as it only ever drops the first of at least two. -/
theorem get?_trimmed (hp : 1 ≤ opts.perTenantCap) (hset : s.Settled now)
    {k : String} {es : List (String × OverlayEntry)} (he : s.entries.entries = es ++ [(k, entry)]) :
    (trimmed opts now s).entries.get? k = some entry := by
  unfold trimmed
  by_cases hlt : opts.perTenantCap < s.entries.size
  · rw [if_pos hlt, OrdMap.get?_eq_some]
    cases es with
    | nil =>
        rw [OrdMap.size, he, List.nil_append, List.length_singleton] at hlt
        omega
    | cons t es =>
        rw [(PerTenantStore.evictLruHead_cons hset he).2]
        simp
  · rw [if_neg hlt, OrdMap.get?_eq_some, he]
    simp

theorem get?_vacated : (r.vacated now u lockKey).tenants.get? u =
    some ((r.vacated now u lockKey).store u) := by
  rw [vacated, expireAll_setStore, get?_setStore_self, store_setStore_self]

theorem settled_grown : (r.grown now u lockKey entry).Settled now :=
  PerTenantStore.settled_lazyExpire now _

/-- The other tenants' heads are those of the vacated registry. -/
theorem heads_setStore :
    ((r.vacated now u lockKey).setStore u s).headsBefore u =
        (r.vacated now u lockKey).headsBefore u ∧
      ((r.vacated now u lockKey).setStore u s).headsAfter u =
        (r.vacated now u lockKey).headsAfter u := by
  have hget : (r.vacated now u lockKey).tenants.get? u =
      some ((r.vacated now u lockKey).store u) := get?_vacated
  obtain ⟨pre, post, e, hpre, -⟩ := OrdMap.exists_split hget
  have e' := OrdMap.entries_set_of_split e hpre s
  have htw : ∀ t ∈ pre, (!decide (t.1 = u)) = true := fun t ht => by
    simp only [Bool.not_eq_true', decide_eq_false_iff_not]
    rintro rfl
    exact hpre (List.mem_map.mpr ⟨t, ht, rfl⟩)
  unfold headsBefore headsAfter setStore
  simp only [e', e, List.takeWhile_append_of_pos htw, List.dropWhile_append_of_pos htw,
    List.takeWhile_cons, List.dropWhile_cons, decide_true, Bool.not_true, Bool.false_eq_true,
    if_false, List.drop_one, List.tail_cons, and_self]

theorem settled_filled : Settled now (r.filled now u lockKey entry) :=
  (settled_vacated now u lockKey r).setStore settled_grown

theorem store_filled :
    (r.filled now u lockKey entry).store u = (r.forUser u).grown now u lockKey entry :=
  store_setStore_self _ _ _

theorem get?_filled : (r.filled now u lockKey entry).tenants.get? u =
    some ((r.filled now u lockKey entry).store u) := by
  rw [filled, get?_setStore_self, store_setStore_self]

theorem held_filled (hlive : now < entry.expiresAtMs) :
    (r.filled now u lockKey entry).held = (r.vacated now u lockKey).held + 1 := by
  have h := held_setStore (r.vacated now u lockKey) u ((r.forUser u).grown now u lockKey entry)
  simp only [OrdMap.size, entries_grown hlive, List.length_append, List.length_singleton] at h
  unfold filled
  omega

theorem held_filled_le (h : Capped opts r) :
    (r.filled now u lockKey entry).held ≤ opts.globalAggregateCap + 1 := by
  have hv := (capped_vacated h now u lockKey).1
  have hheld := held_setStore (r.vacated now u lockKey) u
    ((r.forUser u).grown now u lockKey entry)
  have hsize := size_grown_le now u lockKey entry r
  unfold filled
  omega

/-- **`Crowded`, as pass 1 sees it**: it must evict, it picks the inserting tenant, and that
tenant holds nothing but the new entry. -/
theorem crowded_iff (hlive : now < entry.expiresAtMs) :
    Crowded opts u entry (r.vacated now u lockKey) ↔
      (r.filled now u lockKey entry).held = opts.globalAggregateCap + 1 ∧
        ((r.vacated now u lockKey).store u).entries.entries = [] ∧
        Picked now (r.filled now u lockKey entry).tenants.entries u entry := by
  rw [picked_iff settled_filled, store_filled, held_filled hlive, filled, heads_setStore.1,
    heads_setStore.2, Crowded, OrdMap.size, List.length_eq_zero_iff, OrdMap.values,
    entries_grown hlive]
  constructor
  · rintro ⟨h₁, h₂, h₃⟩
    exact ⟨by omega, h₂, by simp [h₂], h₃⟩
  · rintro ⟨h₁, h₂, -, h₃⟩
    exact ⟨by omega, h₂, h₃⟩

/-- What pass 1 makes of `w`: `w` itself when it fits, otherwise `w` with one tenant's head
evicted. -/
def Pass1 (opts : OverlayRegistryOptions) (now : Int) (w r₁ : OverlayRegistry) : Prop :=
  (w.held ≤ opts.globalAggregateCap ∧ r₁ = w) ∨
    (w.held = opts.globalAggregateCap + 1 ∧
      ∃ o x, Picked now w.tenants.entries o x ∧ r₁ = w.dropHead now o)

theorem pass1_inserted (h : Capped opts r) :
    Pass1 opts now (r.filled now u lockKey entry)
      (evictGlobally opts now ((r.inserted u lockKey entry).held + 1)
        (r.inserted u lockKey entry)) := by
  have hle : (r.filled now u lockKey entry).held ≤ opts.globalAggregateCap + 1 := held_filled_le h
  rw [← expireAll_inserted] at hle
  have hspec := evictGlobally_spec hle
  rw [expireAll_inserted] at hspec
  exact hspec

theorem Pass1.held_le {r₁ : OverlayRegistry} {w : OverlayRegistry} (hset : Settled now w)
    (h : Pass1 opts now w r₁) : r₁.held ≤ opts.globalAggregateCap := by
  rcases h with ⟨hle, rfl⟩ | ⟨heq, o, x, hp, rfl⟩
  · exact hle
  · obtain ⟨k, es, hes⟩ := hp.entries_eq hset
    have := held_dropHead hset hes
    omega

/-- Pass 1 leaves every store no larger and the tenants registered. -/
theorem Pass1.stores {w r₁ : OverlayRegistry} (hset : Settled now w)
    (hu : w.tenants.get? u = some (w.store u)) (h : Pass1 opts now w r₁) :
    Settled now r₁ ∧ r₁.tenants.get? u = some (r₁.store u) ∧
      ∀ v, (r₁.store v).entries.size ≤ (w.store v).entries.size := by
  rcases h with ⟨-, rfl⟩ | ⟨-, o, x, hp, rfl⟩
  · exact ⟨hset, hu, fun _ => le_refl _⟩
  · obtain ⟨k, es, hes⟩ := hp.entries_eq hset
    refine ⟨settled_dropHead hset o, get?_setStore_isSome o _ hu, fun v => ?_⟩
    by_cases hv : v = o
    · subst hv
      rw [dropHead, store_setStore_self, OrdMap.size, OrdMap.size, hes,
        (PerTenantStore.evictLruHead_cons (hset.store v) hes).2, List.length_cons]
      exact Nat.le_succ _
    · rw [dropHead, store_setStore_ne _ _ hv]

/-- **Survival**: pass 1 takes the new entry exactly when it is `Crowded` out, and pass 2 never
does. -/
theorem Pass1.survival (hp : 1 ≤ opts.perTenantCap) (hlive : now < entry.expiresAtMs)
    {r₁ : OverlayRegistry} (h : Pass1 opts now (r.filled now u lockKey entry) r₁) :
    (trimmed opts now (r₁.store u)).entries.get? (serializeLockKey lockKey) =
      if Crowded opts u entry (r.vacated now u lockKey) then none else some entry := by
  have hes : ((r.forUser u).grown now u lockKey entry).entries.entries =
      ((r.vacated now u lockKey).store u).entries.entries ++
        [(serializeLockKey lockKey, entry)] := entries_grown hlive
  rcases h with ⟨hle, rfl⟩ | ⟨heq, o, x, hpick, rfl⟩
  · rw [if_neg fun hc => by have := ((crowded_iff hlive).mp hc).1; omega, store_filled]
    exact get?_trimmed hp settled_grown hes
  · by_cases ho : u = o
    · subst ho
      rw [dropHead, store_setStore_self, store_filled]
      cases hv : ((r.vacated now u lockKey).store u).entries.entries with
      | nil =>
          rw [hv, List.nil_append] at hes
          have hx : x = entry := by
            have := ((picked_iff settled_filled).mp hpick).1
            rw [store_filled, OrdMap.values, hes] at this
            simpa using this.symm
          have hnil := (PerTenantStore.evictLruHead_cons settled_grown hes).2
          rw [if_pos ((crowded_iff hlive).mpr ⟨heq, hv, hx ▸ hpick⟩), trimmed, if_neg]
          · exact OrdMap.get?_eq_none.mpr (by simp [OrdMap.keys, hnil])
          · rw [OrdMap.size, hnil, List.length_nil]
            exact Nat.not_lt_zero _
      | cons t es =>
          rw [hv, List.cons_append] at hes
          have htail := (PerTenantStore.evictLruHead_cons settled_grown hes).2
          rw [if_neg fun hc => by
            have := ((crowded_iff hlive).mp hc).2.1
            rw [hv] at this
            cases this]
          exact get?_trimmed hp settled_grown.evictLruHead htail
    · rw [dropHead, store_setStore_ne _ _ ho, store_filled, if_neg]
      · exact get?_trimmed hp settled_grown hes
      · intro hc
        -- `registryLruHead` has one answer
        have hu := (foldl_older_eq_some _).mpr ((crowded_iff hlive).mp hc).2.2
        rw [(foldl_older_eq_some _).mpr hpick] at hu
        cases hu
        exact ho rfl

/-- **A `put` keeps the caps**, and keeps the entry it inserted unless it is `Crowded` out. -/
theorem put_outcome (h : Capped opts r) (hp : 1 ≤ opts.perTenantCap) :
    Capped opts (r.put opts now u lockKey entry) ∧
      (now < entry.expiresAtMs →
        ((r.put opts now u lockKey entry).store u).entries.get? (serializeLockKey lockKey) =
          if Crowded opts u entry (r.vacated now u lockKey) then none else some entry) := by
  have hpass : Pass1 opts now (r.filled now u lockKey entry)
      (evictGlobally opts now ((r.inserted u lockKey entry).held + 1)
        (r.inserted u lockKey entry)) := pass1_inserted h
  generalize h₁ : evictGlobally opts now ((r.inserted u lockKey entry).held + 1)
    (r.inserted u lockKey entry) = r₁ at hpass
  have hv := capped_vacated h now u lockKey
  obtain ⟨hset₁, hreg₁, hsize₁⟩ := hpass.stores settled_filled get?_filled
  have hle : (r₁.store u).entries.size ≤ opts.perTenantCap + 1 := by
    refine (hsize₁ u).trans ?_
    rw [store_filled]
    exact (size_grown_le now u lockKey entry r).trans (Nat.succ_le_succ (hv.2 u))
  obtain ⟨hcap, hshrink⟩ := size_trimmed (hset₁.store u) hle
  rw [put_eq h₁ hreg₁ (hset₁.store u) hle]
  refine ⟨⟨?_, fun v => ?_⟩, fun hlive => ?_⟩
  · have := held_setStore r₁ u (trimmed opts now (r₁.store u))
    have := hpass.held_le settled_filled
    omega
  · by_cases hvu : v = u
    · subst hvu
      rw [store_setStore_self]
      exact hcap
    · rw [store_setStore_ne _ _ hvu]
      refine (hsize₁ v).trans ?_
      rw [filled, store_setStore_ne _ _ hvu]
      exact hv.2 v
  · rw [store_setStore_self]
    exact hpass.survival hp hlive

end

/-! ### Histories -/

/-- Every call keeps the caps. -/
theorem capped_serve (hp : 1 ≤ opts.perTenantCap) (h : Capped opts r) (now : Int) (c : Call) :
    Capped opts (r.serve opts now c) := by
  cases c with
  | put u lockKey entry => exact (put_outcome h hp).1
  | get u lockKey =>
      exact capped_setStore (capped_forUser u h) (PerTenantStore.size_get_le _ _ _)
  | delete u lockKey =>
      exact capped_setStore (capped_forUser u h) (PerTenantStore.size_erase_le _ _)
  | snapshot u =>
      exact capped_setStore (capped_forUser u h) (PerTenantStore.size_lazyExpire_le _ _)
  | size u => exact capped_setStore (capped_forUser u h) (PerTenantStore.size_lazyExpire_le _ _)
  | globalSize => exact capped_expireAll now h
  | tenantCount => exact capped_expireAll now h
  | evictExpired => exact capped_expireAll now h

theorem capped_empty (opts : OverlayRegistryOptions) : Capped opts empty :=
  ⟨Nat.zero_le _, fun _ => Nat.zero_le _⟩

/-- **No cap is exceeded after any history of calls**, whatever the clock shows. -/
theorem capped_serveAll (hp : 1 ≤ opts.perTenantCap)
    (calls : List (Int × Call)) : Capped opts (serveAll opts calls) := by
  unfold serveAll
  generalize empty = r₀, capped_empty opts = h₀
  induction calls generalizing r₀ with
  | nil => exact h₀
  | cons c calls ih => exact ih _ (capped_serve hp h₀ c.1 c.2)

/-- What `get` answers, read off the tenant's store. -/
theorem get_fst (now : Int) (u : String) (lockKey : OverlayLockKey) (r : OverlayRegistry) :
    (r.get now u lockKey).1 =
      ((r.store u).entries.get? (serializeLockKey lockKey)).bind fun e =>
        if e.expiresAtMs ≤ now then none else some { e with lastAccessedAtMs := now } := by
  simp only [get, store_forUser, PerTenantStore.get]
  cases (r.store u).entries.get? (serializeLockKey lockKey) with
  | none => rfl
  | some e => by_cases he : e.expiresAtMs ≤ now <;> simp [he]

theorem size_fst_le (now : Int) (u : String) (r : OverlayRegistry) :
    (r.size now u).1 ≤ (r.store u).entries.size := by
  simp only [size, store_forUser, PerTenantStore.size]
  exact PerTenantStore.size_lazyExpire_le now _

/-- **A `put` after any history of calls.**  The live entries are within the global cap and each
tenant's within its own; and an unexpired entry is still there for `get` at that instant exactly
when it was not `Crowded` out. -/
theorem put_caps_and_survival (opts : OverlayRegistryOptions) (hp : 1 ≤ opts.perTenantCap)
    (history : List (Int × Call)) (now : Int) (u : String) (lockKey : OverlayLockKey)
    (entry : OverlayEntry) :
    let r := serveAll opts history
    let r' := r.put opts now u lockKey entry
    ((r'.globalSize now).1 ≤ opts.globalAggregateCap ∧
      ∀ v, (r'.size now v).1 ≤ opts.perTenantCap) ∧
    ((now < entry.expiresAtMs →
        (r'.get now u lockKey).1 = some { entry with lastAccessedAtMs := now }) ↔
      (now < entry.expiresAtMs → ¬ Crowded opts u entry (r.vacated now u lockKey))) := by
  intro r r'
  obtain ⟨hcap, hsurv⟩ : Capped opts r' ∧ (now < entry.expiresAtMs →
      (r'.store u).entries.get? (serializeLockKey lockKey) =
        if Crowded opts u entry (r.vacated now u lockKey) then none else some entry) :=
    put_outcome (capped_serveAll hp history) hp
  refine ⟨⟨?_, fun v => ?_⟩, forall_congr' fun hlive => ?_⟩
  · rw [globalSize_eq]
    exact (held_expireAll_le now _).trans hcap.1
  · exact (size_fst_le now v _).trans (hcap.2 v)
  · rw [get_fst, hsurv hlive]
    by_cases hc : Crowded opts u entry (r.vacated now u lockKey)
    · rw [if_pos hc]
      simp [hc]
    · rw [if_neg hc]
      simp [hc, hlive]

/-- An entry as `buildOverlayEntry` stamps it at the instant `5`. -/
def stampedAt5 (userId memoryId : String) : OverlayEntry :=
  ⟨memoryId, "text", ⟨"fact", "subject"⟩, userId, 1, 5, 65, 5, true, .create⟩

theorem put_caps_and_survival_stamped :
    let opts : OverlayRegistryOptions := ⟨2, 1⟩
    let r := serveAll opts [(5, .put "b" ⟨"fact", "subject"⟩ (stampedAt5 "b" "m1"))]
    let r' := r.put opts 5 "a" ⟨"fact", "subject"⟩ (stampedAt5 "a" "m2")
    1 ≤ opts.perTenantCap ∧ (r'.globalSize 5).1 ≤ 1 ∧
      (r'.get 5 "a" ⟨"fact", "subject"⟩).1 = some (stampedAt5 "a" "m2") := by
  have h := put_caps_and_survival ⟨2, 1⟩ (by decide)
    [(5, .put "b" ⟨"fact", "subject"⟩ (stampedAt5 "b" "m1"))] 5 "a" ⟨"fact", "subject"⟩
    (stampedAt5 "a" "m2")
  exact ⟨by decide, h.1.1, h.2.mpr (fun _ => by decide +kernel) (by decide +kernel)⟩

/-- Tenant `a` is known to the registry before `b`; both put at one instant with room for one
entry, and `a`'s put removes its own. -/
theorem put_lost_at_tie :
    let opts : OverlayRegistryOptions := ⟨1, 1⟩
    let r := serveAll opts
      [(0, .snapshot "a"), (5, .put "b" ⟨"fact", "subject"⟩ (stampedAt5 "b" "m1"))]
    let r' := r.put opts 5 "a" ⟨"fact", "subject"⟩ (stampedAt5 "a" "m2")
    5 < (stampedAt5 "a" "m2").expiresAtMs ∧ (r'.get 5 "a" ⟨"fact", "subject"⟩).1 = none := by
  decide +kernel

end OverlayRegistry

end Runir
