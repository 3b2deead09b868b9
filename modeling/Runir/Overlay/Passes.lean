import Mathlib.Data.List.Induction
import Runir.Overlay.Expiry

/-!
# Overlay — Passes

The two eviction passes of `afterPut`.  `foldl_older_eq_some` says which tenant pass 1 takes from;
`evictGlobally_spec` and `evictLocally_spec` say what a pass makes of a registry or a store that
exceeds its cap by at most one entry, and `suffix_evictGlobally` and `suffix_evictLocally` that
no pass ever does more to a tenant than drop its oldest entries.
-/

namespace Runir

namespace OverlayRegistry

/-! ### The passes -/

variable {now : Int} {r : OverlayRegistry} {opts : OverlayRegistryOptions}

/-- Pass 1 stops once the live entries fit. -/
theorem evictGlobally_of_le (n : Nat) (h : (r.expireAll now).held ≤ opts.globalAggregateCap) :
    evictGlobally opts now (n + 1) r = r.expireAll now := by
  simp only [evictGlobally, globalSize_eq, if_neg (Nat.not_lt.mpr h)]

/-- The store of `u` after its first entry is dropped. -/
def dropHead (r : OverlayRegistry) (now : Int) (u : String) : OverlayRegistry :=
  r.setStore u ((r.store u).evictLruHead now).2

theorem registryLruHead_settled (h : Settled now r) :
    r.registryLruHead now = (r.tenants.entries.foldl (older now) none, r) := by
  rw [registryLruHead, h]

variable {s : PerTenantStore}

theorem lruHead_eq (h : s.Settled now) :
    (s.lruHead now).1 = s.entries.values.head? := by
  simp only [PerTenantStore.lruHead, show s.lazyExpire now = s from h]

/-- `u`'s head `h` was accessed strictly before the head of every tenant registered earlier and
no later than the head of every tenant registered after. -/
def Picked (now : Int) (ts : List (String × PerTenantStore)) (u : String) (h : OverlayEntry) :
    Prop :=
  ∃ pre s post, ts = pre ++ (u, s) :: post ∧ (s.lruHead now).1 = some h ∧
    (∀ t ∈ pre, ∀ h' ∈ (t.2.lruHead now).1, h.lastAccessedAtMs < h'.lastAccessedAtMs) ∧
    (∀ t ∈ post, ∀ h' ∈ (t.2.lruHead now).1, h.lastAccessedAtMs ≤ h'.lastAccessedAtMs)

variable {u : String} {h : OverlayEntry} {ts : List (String × PerTenantStore)}

variable {t : String × PerTenantStore}

theorem Picked.le (hp : Picked now ts u h) (ht : t ∈ ts)
    {h' : OverlayEntry} (hh : h' ∈ (t.2.lruHead now).1) :
    h.lastAccessedAtMs ≤ h'.lastAccessedAtMs := by
  obtain ⟨pre, s, post, rfl, hs, hpre, hpost⟩ := hp
  rcases List.mem_append.mp ht with ht | ht
  · exact (hpre t ht h' hh).le
  · rcases List.mem_cons.mp ht with rfl | ht
    · rw [Option.mem_def, hs] at hh
      cases hh
      exact le_refl _
    · exact hpost t ht h' hh

theorem Picked.exists_head (hp : Picked now ts u h) : ∃ t ∈ ts, h ∈ (t.2.lruHead now).1 := by
  obtain ⟨pre, s, post, rfl, hs, -, -⟩ := hp
  exact ⟨(u, s), by simp, hs⟩

theorem picked_concat :
    Picked now (ts ++ [t]) u h ↔
      (Picked now ts u h ∧
        ∀ h' ∈ (t.2.lruHead now).1, h.lastAccessedAtMs ≤ h'.lastAccessedAtMs) ∨
      (t.1 = u ∧ (t.2.lruHead now).1 = some h ∧
        ∀ t' ∈ ts, ∀ h' ∈ (t'.2.lruHead now).1, h.lastAccessedAtMs < h'.lastAccessedAtMs) := by
  constructor
  · rintro ⟨pre, s, post, e, hs, hpre, hpost⟩
    rcases List.eq_nil_or_concat post with rfl | ⟨post, t', rfl⟩
    · obtain ⟨rfl, ht⟩ := List.append_inj' e rfl
      cases ht
      exact Or.inr ⟨rfl, hs, hpre⟩
    · rw [List.concat_eq_append] at e hpost
      rw [← List.cons_append, ← List.append_assoc] at e
      obtain ⟨rfl, ht⟩ := List.append_inj' e rfl
      cases ht
      refine Or.inl ⟨⟨pre, s, post, rfl, hs, hpre, fun t₀ h₀ => hpost t₀ (by simp [h₀])⟩, ?_⟩
      exact hpost t (by simp)
  · rintro (⟨⟨pre, s, post, rfl, hs, hpre, hpost⟩, ht⟩ | ⟨rfl, hs, hts⟩)
    · refine ⟨pre, s, post ++ [t], by simp, hs, hpre, fun t₀ h₀ => ?_⟩
      rcases List.mem_append.mp h₀ with h₀ | h₀
      · exact hpost t₀ h₀
      · cases List.mem_singleton.mp h₀
        exact ht
    · exact ⟨ts, t.2, [], rfl, hs, hts, by simp⟩

theorem foldl_older_eq_none (ts : List (String × PerTenantStore)) :
    ts.foldl (older now) none = none ↔ ∀ t ∈ ts, (t.2.lruHead now).1 = none := by
  induction ts using List.reverseRecOn with
  | nil => simp
  | append_singleton ts t ih =>
      rw [List.foldl_append, List.foldl_cons, List.foldl_nil, older]
      cases ht : (t.2.lruHead now).1 with
      | none =>
          simp only [ih, List.mem_append, List.mem_singleton]
          exact ⟨fun h t' ht' => ht'.elim (h t') fun e => e ▸ ht, fun h t' ht' => h t' (.inl ht')⟩
      | some h' =>
          have hne : ¬ ∀ t' ∈ ts ++ [t], (t'.2.lruHead now).1 = none := fun h => by
            simpa [ht] using h t (by simp)
          refine iff_of_false ?_ hne
          cases ts.foldl (older now) none with
          | none => simp
          | some b => by_cases hlt : h'.lastAccessedAtMs < b.2.lastAccessedAtMs <;> simp [hlt]

/-- **The choice of `registryLruHead`.**  It picks the leftmost of the heads accessed least
recently. -/
theorem foldl_older_eq_some (ts : List (String × PerTenantStore))
    : ts.foldl (older now) none = some (u, h) ↔ Picked now ts u h := by
  induction ts using List.reverseRecOn generalizing u h with
  | nil => simp [Picked]
  | append_singleton ts t ih =>
      rw [List.foldl_append, picked_concat, ← ih, List.foldl_cons, List.foldl_nil, older]
      cases ht : (t.2.lruHead now).1 with
      | none => simp
      | some h' =>
          cases hb : ts.foldl (older now) none with
          | none =>
              have hno := (foldl_older_eq_none ts).mp hb
              have hvac : ∀ t' ∈ ts, ∀ h₀ ∈ (t'.2.lruHead now).1,
                  h.lastAccessedAtMs < h₀.lastAccessedAtMs := fun t' ht' h₀ hh => by
                rw [hno t' ht'] at hh
                cases hh
              simpa using fun _ _ v t' hv h₀ hh => hvac (v, t') hv h₀ hh
          | some b =>
              obtain ⟨o, x⟩ := b
              have hp : Picked now ts o x := ih.mp hb
              by_cases hlt : h'.lastAccessedAtMs < x.lastAccessedAtMs
              · have hall : ∀ t' ∈ ts, ∀ h₀ ∈ (t'.2.lruHead now).1,
                    h'.lastAccessedAtMs < h₀.lastAccessedAtMs :=
                  fun t' ht' h₀ hh => hlt.trans_le (hp.le ht' hh)
                simp only [if_pos hlt, Option.some.injEq, Prod.mk.injEq, Option.mem_def]
                constructor
                · rintro ⟨rfl, rfl⟩
                  exact Or.inr ⟨rfl, rfl, hall⟩
                · rintro (⟨⟨-, rfl⟩, hle⟩ | ⟨rfl, rfl, -⟩)
                  · exact absurd (hle h' rfl) (not_le.mpr hlt)
                  · exact ⟨rfl, rfl⟩
              · simp only [if_neg hlt, Option.some.injEq, Prod.mk.injEq, Option.mem_def]
                constructor
                · rintro ⟨rfl, rfl⟩
                  exact Or.inl ⟨⟨rfl, rfl⟩, fun h₀ e => e ▸ not_lt.mp hlt⟩
                · rintro (⟨e, -⟩ | ⟨-, rfl, hall⟩)
                  · exact e
                  · obtain ⟨t', ht', hx⟩ := hp.exists_head
                    exact absurd (hall t' ht' x hx) hlt

theorem Picked.entries_eq (hr : Settled now r) (hp : Picked now r.tenants.entries u h) :
    ∃ k es, (r.store u).entries.entries = (k, h) :: es := by
  obtain ⟨pre, s, post, e, hs, -, -⟩ := hp
  have hu : r.tenants.get? u = some s := OrdMap.get?_eq_some.mpr (by simp [e])
  have hst : r.store u = s := by simp [store, hu]
  rw [lruHead_eq (hst ▸ hr.store u)] at hs
  cases hes : s.entries.entries with
  | nil => simp [OrdMap.values, hes] at hs
  | cons t es =>
      simp only [OrdMap.values, hes, List.map_cons, List.head?_cons, Option.some.injEq] at hs
      subst hs
      exact ⟨t.1, es, hst ▸ hes⟩

theorem settled_dropHead (hr : Settled now r) (u : String) :
    Settled now (r.dropHead now u) :=
  hr.setStore (hr.store u).evictLruHead

theorem held_dropHead (hr : Settled now r) {u k : String}
    {e : OverlayEntry} {es : List (String × OverlayEntry)}
    (he : (r.store u).entries.entries = (k, e) :: es) : (r.dropHead now u).held + 1 = r.held := by
  have h := held_setStore r u ((r.store u).evictLruHead now).2
  have h₁ := (PerTenantStore.evictLruHead_cons (hr.store u) he).2
  simp only [OrdMap.size, h₁, he, List.length_cons] at h
  unfold dropHead
  omega

theorem held_eq_zero (hr : Settled now r)
    (h : ∀ t ∈ r.tenants.entries, (t.2.lruHead now).1 = none) : r.held = 0 := by
  refine List.sum_eq_zero fun n hn => ?_
  simp only [OrdMap.values, List.map_map, List.mem_map, Function.comp_def] at hn
  obtain ⟨t, ht, rfl⟩ := hn
  have hu : r.tenants.get? t.1 = some t.2 := OrdMap.get?_eq_some.mpr ht
  have hst : r.store t.1 = t.2 := by simp [store, hu]
  have hn := h t ht
  rw [lruHead_eq (hst ▸ hr.store t.1), OrdMap.values, List.head?_eq_none_iff,
    List.map_eq_nil_iff] at hn
  rw [OrdMap.size, hn, List.length_nil]

/-- **Pass 1**, when the live entries exceed the global cap by at most one. -/
theorem evictGlobally_spec (h : (r.expireAll now).held ≤ opts.globalAggregateCap + 1) :
    ((r.expireAll now).held ≤ opts.globalAggregateCap ∧
      evictGlobally opts now (r.held + 1) r = r.expireAll now) ∨
    ((r.expireAll now).held = opts.globalAggregateCap + 1 ∧
      ∃ o h, Picked now (r.expireAll now).tenants.entries o h ∧
        evictGlobally opts now (r.held + 1) r = (r.expireAll now).dropHead now o) := by
  have hset := settled_expireAll now r
  by_cases hle : (r.expireAll now).held ≤ opts.globalAggregateCap
  · exact Or.inl ⟨hle, evictGlobally_of_le _ hle⟩
  · have hheld := held_expireAll_le now r
    obtain ⟨n, hn⟩ : ∃ n, r.held = n + 1 := ⟨r.held - 1, by omega⟩
    refine Or.inr ⟨by omega, ?_⟩
    rw [hn, evictGlobally, globalSize_eq]
    simp only [if_pos (Nat.lt_of_not_le hle), registryLruHead_settled hset]
    cases hb : (r.expireAll now).tenants.entries.foldl (older now) none with
    | none =>
        have := held_eq_zero hset ((foldl_older_eq_none _).mp hb)
        omega
    | some b =>
        obtain ⟨o, x⟩ := b
        have hp := (foldl_older_eq_some _).mp hb
        obtain ⟨k, es, he⟩ := hp.entries_eq hset
        have hheld' := held_dropHead hset he
        have hset' := settled_dropHead hset o
        refine ⟨o, x, hp, ?_⟩
        change evictGlobally opts now (n + 1) ((r.expireAll now).dropHead now o) = _
        rw [evictGlobally_of_le n (by rw [hset']; omega), hset']

/-- What pass 2 makes of a store that exceeds its cap by at most one. -/
def trimmed (opts : OverlayRegistryOptions) (now : Int) (s : PerTenantStore) : PerTenantStore :=
  if opts.perTenantCap < s.entries.size then (s.evictLruHead now).2 else s

/-- **Pass 2**, when the store exceeds its cap by at most one. -/
theorem evictLocally_spec (hs : s.Settled now) (h : s.entries.size ≤ opts.perTenantCap + 1) :
    evictLocally opts now (s.entries.size + 1) s = trimmed opts now s := by
  have hsize : s.size now = (s.entries.size, s) := by
    simp only [PerTenantStore.size, show s.lazyExpire now = s from hs]
  rw [evictLocally, hsize, trimmed]
  by_cases hlt : opts.perTenantCap < s.entries.size
  · obtain ⟨n, hn⟩ : ∃ n, s.entries.size = n + 1 := ⟨s.entries.size - 1, by omega⟩
    cases he : s.entries.entries with
    | nil =>
        rw [OrdMap.size, he, List.length_nil] at hn
        omega
    | cons t es =>
        obtain ⟨hfst, hsnd⟩ := PerTenantStore.evictLruHead_cons hs he
        have hes : es.length = n := by
          simpa [OrdMap.size, he] using hn
        have hs' := hs.evictLruHead
        simp only [if_pos hlt]
        rw [show s.evictLruHead now = (true, (s.evictLruHead now).2) from Prod.ext hfst rfl]
        simp only [hn, evictLocally, PerTenantStore.size,
          show (s.evictLruHead now).2.lazyExpire now = (s.evictLruHead now).2 from hs']
        rw [if_neg]
        rw [OrdMap.size, hsnd, hes]
        omega
  · simp only [if_neg hlt]

/-! ### What a pass may take from a tenant -/

theorem suffix_evictLruHead (hs : s.Settled now) :
    (s.evictLruHead now).2.entries.entries <:+ s.entries.entries := by
  cases he : s.entries.entries with
  | nil =>
      have hk : s.entries.keys = [] := by simp [OrdMap.keys, he]
      simp only [PerTenantStore.evictLruHead, show s.lazyExpire now = s from hs, hk, he]
      exact List.suffix_rfl
  | cons e es =>
      rw [(PerTenantStore.evictLruHead_cons hs he).2]
      exact List.suffix_cons e es

theorem evictGlobally_expireAll (n : Nat) (r : OverlayRegistry) :
    evictGlobally opts now (n + 1) r = evictGlobally opts now (n + 1) (r.expireAll now) := by
  simp only [evictGlobally, globalSize_eq, expireAll_expireAll]

/-- Pass 1 drops nothing of a tenant but its oldest entries. -/
theorem suffix_evictGlobally (opts : OverlayRegistryOptions) (n : Nat) (hr : Settled now r) :
    Settled now (evictGlobally opts now n r) ∧
      ∀ u, ((evictGlobally opts now n r).store u).entries.entries <:+
        (r.store u).entries.entries := by
  induction n generalizing r with
  | zero => exact ⟨hr, fun _ => List.suffix_rfl⟩
  | succ n ih =>
      rw [evictGlobally, globalSize_eq, hr]
      by_cases hlt : opts.globalAggregateCap < r.held
      · simp only [if_pos hlt, registryLruHead_settled hr]
        cases r.tenants.entries.foldl (older now) none with
        | none => exact ⟨hr, fun _ => List.suffix_rfl⟩
        | some b =>
            obtain ⟨hset, hsuf⟩ := ih (settled_dropHead hr b.1)
            refine ⟨hset, fun u => (hsuf u).trans ?_⟩
            by_cases hu : u = b.1
            · subst hu
              rw [dropHead, store_setStore_self]
              exact suffix_evictLruHead (hr.store _)
            · simp only [dropHead, store_setStore_ne _ _ hu]
              exact List.suffix_rfl
      · simp only [if_neg hlt]
        exact ⟨hr, fun _ => List.suffix_rfl⟩

/-- Pass 2 drops nothing but the oldest entries. -/
theorem suffix_evictLocally (n : Nat) (hs : s.Settled now) :
    (evictLocally opts now n s).entries.entries <:+ s.entries.entries := by
  induction n generalizing s with
  | zero => exact List.suffix_rfl
  | succ n ih =>
      have hsize : s.size now = (s.entries.size, s) := by
        simp only [PerTenantStore.size, show s.lazyExpire now = s from hs]
      rw [evictLocally, hsize]
      by_cases hlt : opts.perTenantCap < s.entries.size
      · simp only [if_pos hlt]
        have hsuf := suffix_evictLruHead hs
        have hset := hs.evictLruHead
        generalize s.evictLruHead now = b at hsuf hset
        obtain ⟨removed, s'⟩ := b
        cases removed with
        | false => exact hsuf
        | true => exact (ih hset).trans hsuf
      · simp only [if_neg hlt]
        exact List.suffix_rfl

end OverlayRegistry

end Runir
