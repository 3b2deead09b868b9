import Runir.Lib.Runs
import Runir.Overlay.Caps
import Runir.Overlay.Lifecycle
import Runir.Overlay.MergeFacts

/-!
# Overlay — ReadYourWrites

Sessions of one user: committed writes with their overlay step, in the order of the clock, with
calls of other tenants and reads in between.  The overlay is keyed by lock key and the merge by
memory id, so an entry goes stale when its memory is rewritten under no lock key, or under another
one that is taken over later.

* `Rewrites`: an event does neither.
* `exec_accurate`: along commits that satisfy it, the newest unexpired entry naming an active
  memory carries the text last committed to it.
* `read_your_writes`: hence every hit the merge returns for an active memory does.
-/

namespace Runir.Session

/-- What the durable store holds of a memory: the text last committed to it and its activity. -/
structure CommittedRow where
  text : String
  active : Bool
  deriving DecidableEq

structure State where
  clock : Int
  rows : OrdMap String CommittedRow
  registry : OverlayRegistry

inductive CommitKind where
  | create
  | mergeUpdate
  | supersede (previous : String)

structure Commit where
  kind : CommitKind
  id : String
  text : String
  metadata : Option Metadata

def CommitKind.outcome : CommitKind → OverlayOutcome
  | .create => .create
  | .mergeUpdate => .mergeUpdate
  | .supersede _ => .supersede

/-- A commit that succeeds: a create or a supersede has a fresh id, a merge or a supersede an
existing row to work on. -/
def Commit.succeeds (c : Commit) (rows : OrdMap String CommittedRow) : Bool :=
  match c.kind with
  | .create => !rows.has c.id
  | .mergeUpdate => rows.has c.id
  | .supersede previous => !rows.has c.id && rows.has previous

/-- The rows with what a supersede replaces retired. -/
def Commit.retire (c : Commit) (rows : OrdMap String CommittedRow) : OrdMap String CommittedRow :=
  match c.kind with
  | .supersede previous =>
      match rows.get? previous with
      | some row => rows.set previous { row with active := false }
      | none => rows
  | _ => rows

/-- The durable effect of a commit.  A merge reactivates its row. -/
def Commit.durable (c : Commit) (rows : OrdMap String CommittedRow) : OrdMap String CommittedRow :=
  (c.retire rows).set c.id ⟨c.text, true⟩

inductive Event where
  | commit (c : Commit)
  | call (c : OverlayRegistry.Call)

/-- Reads of any tenant, and everything other tenants do. -/
def foreign (userId : String) : OverlayRegistry.Call → Bool
  | .put u _ _ => u != userId
  | .get u _ => u != userId
  | .delete u _ => u != userId
  | _ => true

variable (opts : OverlayRegistryOptions) (ttlMs : Int) (userId : String)

/-- One event at the instant `now`; refused when the clock would run back, when the commit fails
and when a call is not foreign. -/
def step (s : State) (e : Int × Event) : Option State :=
  if s.clock ≤ e.1 then
    match e.2 with
    | .commit c =>
        if c.succeeds s.rows then
          some ⟨e.1, c.durable s.rows, commitToOverlay opts ttlMs e.1 userId c.id c.text c.metadata
            c.kind.outcome s.registry⟩
        else none
    | .call c => if foreign userId c then some ⟨e.1, s.rows, s.registry.serve opts e.1 c⟩ else none
  else none

/-! ### Accuracy -/

/-- The entries a tenant holds, by serialized lock key. -/
def held (registry : OverlayRegistry) (userId : String) : List (String × OverlayEntry) :=
  (registry.store userId).entries.entries

def live (now : Int) (es : List (String × OverlayEntry)) : List (String × OverlayEntry) :=
  es.filter fun e => decide (now < e.2.expiresAtMs)

/-- The newest entry naming a memory. -/
def newest (id : String) (es : List (String × OverlayEntry)) : Option OverlayEntry :=
  (latest (fun e : String × OverlayEntry => decide (e.2.memoryId = id)) es).map Prod.snd

/-- What a commit must find of the unexpired entries `es`, under the lock key `k` it has, so as to
leave no stale entry newest.  Without a lock key, the newest entry naming its memory, if there is
one, already carries its text.  With one, the entry it takes the place of is not the newest of
several naming a memory that stays active, unless the one before it carries that memory's text. -/
def KeepsNewest (es : List (String × OverlayEntry)) (rows : OrdMap String CommittedRow)
    (c : Commit) : Option String → Prop
  | none => ∀ entry ∈ newest c.id es, entry.text = c.text
  | some k =>
      ∀ old ∈ es, old.1 = k → old.2.memoryId ≠ c.id →
        ∀ row ∈ (c.durable rows).get? old.2.memoryId, row.active = true →
          ∀ entry ∈ newest old.2.memoryId (es.filter fun e => !decide (e.1 = k)),
            entry.text = row.text

instance (es : List (String × OverlayEntry)) (rows : OrdMap String CommittedRow) (c : Commit) :
    (k : Option String) → Decidable (KeepsNewest es rows c k)
  | none => inferInstanceAs (Decidable (∀ entry ∈ newest c.id es, entry.text = c.text))
  | some k =>
      inferInstanceAs (Decidable (∀ old ∈ es, old.1 = k → old.2.memoryId ≠ c.id →
        ∀ row ∈ (c.durable rows).get? old.2.memoryId, row.active = true →
          ∀ entry ∈ newest old.2.memoryId (es.filter fun e => !decide (e.1 = k)),
            entry.text = row.text))

/-- An event leaves no stale entry newest. -/
def Rewrites (userId : String) (s : State) : Int × Event → Prop
  | (_, .call _) => True
  | (now, .commit c) =>
      KeepsNewest (live now (held s.registry userId)) s.rows c
        ((lockKeyFromMetadata c.metadata).map serializeLockKey)

instance (userId : String) (s : State) : (e : Int × Event) → Decidable (Rewrites userId s e)
  | (_, .call _) => isTrue trivial
  | (_, .commit _) => inferInstanceAs (Decidable (KeepsNewest _ _ _ _))

/-- Entries in the order they expire, of one user, naming known memories, the newest unexpired one
naming an active memory carrying its text. -/
structure Accurate (ttlMs : Int) (userId : String) (now : Int) (rows : OrdMap String CommittedRow)
    (es : List (String × OverlayEntry)) : Prop where
  sorted : es.Pairwise fun a b => a.2.expiresAtMs ≤ b.2.expiresAtMs
  bound : ∀ e ∈ es, e.2.expiresAtMs ≤ now + ttlMs
  own : ∀ e ∈ es, e.2.userId = userId
  known : ∀ e ∈ es, rows.has e.2.memoryId = true
  text : ∀ id row, rows.get? id = some row → row.active = true →
    ∀ entry, newest id (live now es) = some entry → entry.text = row.text

variable {opts ttlMs userId} {id : String} {es : List (String × OverlayEntry)}

theorem newest_mem {entry : OverlayEntry}
    (h : newest id es = some entry) : ∃ e ∈ es, e.2 = entry ∧ entry.memoryId = id := by
  obtain ⟨e, he, rfl⟩ := Option.map_eq_some_iff.mp h
  obtain ⟨hm, hid⟩ := latest_mem he
  exact ⟨e, hm, rfl, of_decide_eq_true hid⟩

theorem newest_of_suffix {es es' : List (String × OverlayEntry)}
    {entry : OverlayEntry} (hs : es' <:+ es) (h : newest id es' = some entry) :
    newest id es = some entry := by
  obtain ⟨e, he, rfl⟩ := Option.map_eq_some_iff.mp h
  exact Option.map_eq_some_iff.mpr ⟨e, latest_of_suffix hs he, rfl⟩

theorem newest_concat (id : String) (es : List (String × OverlayEntry))
    (e : String × OverlayEntry) :
    newest id (es ++ [e]) = if e.2.memoryId = id then some e.2 else newest id es := by
  rw [newest, latest_concat]
  by_cases hid : e.2.memoryId = id <;> simp [hid, newest]

theorem live_suffix {es es' : List (String × OverlayEntry)} (now : Int) (hs : es' <:+ es) :
    live now es' <:+ live now es :=
  hs.filter _

/-- What is unexpired later is an end of what is unexpired now. -/
theorem live_suffix_live {now now' : Int} (hle : now ≤ now')
    (hs : es.Pairwise fun a b => a.2.expiresAtMs ≤ b.2.expiresAtMs) :
    live now' es <:+ live now es := by
  have e : live now' es = live now' (live now es) := by
    rw [live, live, live, List.filter_filter]
    refine List.filter_congr fun e _ => ?_
    by_cases hlt : now' < e.2.expiresAtMs
    · simp [hlt, hle.trans_lt hlt]
    · simp [hlt]
  rw [e]
  exact suffix_filter_of_sorted (hs.sublist List.filter_sublist) now'

theorem live_concat {now : Int} {e : String × OverlayEntry}
    (hlt : now < e.2.expiresAtMs) : live now (es ++ [e]) = live now es ++ [e] := by
  simp [live, List.filter_append, hlt]

section
variable {now now' : Int} {rows : OrdMap String CommittedRow} {es es' : List (String × OverlayEntry)}

/-- Dropping the oldest entries keeps the rest accurate. -/
theorem Accurate.shrink (h : Accurate ttlMs userId now rows es) (hs : es' <:+ es) :
    Accurate ttlMs userId now rows es' where
  sorted := h.sorted.sublist hs.sublist
  bound e he := h.bound e (hs.subset he)
  own e he := h.own e (hs.subset he)
  known e he := h.known e (hs.subset he)
  text id row hrow hact entry hn :=
    h.text id row hrow hact entry (newest_of_suffix (live_suffix now hs) hn)

/-- So does the passing of time. -/
theorem Accurate.advance (h : Accurate ttlMs userId now rows es) (hle : now ≤ now') :
    Accurate ttlMs userId now' rows es where
  sorted := h.sorted
  bound e he := (h.bound e he).trans (by omega)
  own := h.own
  known := h.known
  text id row hrow hact entry hn :=
    h.text id row hrow hact entry (newest_of_suffix (live_suffix_live hle h.sorted) hn)

end

/-! ### The durable side of a commit -/

theorem durable_get?_self (c : Commit) (rows : OrdMap String CommittedRow) :
    (c.durable rows).get? c.id = some ⟨c.text, true⟩ :=
  OrdMap.get?_set_self _ _ _

theorem has_set {m : OrdMap String CommittedRow} (k : String) (v : CommittedRow)
    (h : m.has id = true) : (m.set k v).has id = true := by
  unfold OrdMap.has at h ⊢
  rw [OrdMap.get?_set]
  by_cases hk : id = k <;> simp [hk, h]

variable {rows : OrdMap String CommittedRow} {c : Commit}

theorem retire_has (h : rows.has id = true) : (c.retire rows).has id = true := by
  unfold Commit.retire
  cases c.kind with
  | create => exact h
  | mergeUpdate => exact h
  | supersede previous =>
      cases hp : rows.get? previous with
      | none => simpa only [hp] using h
      | some row => simpa only [hp] using has_set _ _ h

theorem durable_has (h : rows.has id = true) : (c.durable rows).has id = true :=
  has_set _ _ (retire_has h)

/-- What stays active was not retired. -/
theorem retire_get?_of_active
    {row : CommittedRow} (h : (c.retire rows).get? id = some row) (hact : row.active = true) :
    rows.get? id = some row := by
  unfold Commit.retire at h
  cases hk : c.kind with
  | create => rwa [hk] at h
  | mergeUpdate => rwa [hk] at h
  | supersede previous =>
      cases hp : rows.get? previous with
      | none => simpa only [hk, hp] using h
      | some prev =>
          simp only [hk, hp] at h
          by_cases hid : id = previous
          · subst hid
            rw [OrdMap.get?_set_self] at h
            cases h
            cases hact
          · rwa [OrdMap.get?_set_ne _ _ hid] at h

/-- A commit leaves the rows that stay active, its own aside, as they were. -/
theorem durable_get?_of_active
    {row : CommittedRow} (hne : id ≠ c.id) (h : (c.durable rows).get? id = some row)
    (hact : row.active = true) : rows.get? id = some row := by
  rw [Commit.durable, OrdMap.get?_set_ne _ _ hne] at h
  exact retire_get?_of_active h hact

/-! ### Steps -/

section
variable {now : Int} {rows : OrdMap String CommittedRow} {es : List (String × OverlayEntry)}

/-- A commit with no lock key leaves the overlay as it is. -/
theorem Accurate.commit_unlocked (h : Accurate ttlMs userId now rows es) (c : Commit)
    (hok : KeepsNewest (live now es) rows c none) :
    Accurate ttlMs userId now (c.durable rows) es where
  sorted := h.sorted
  bound := h.bound
  own := h.own
  known e he := durable_has (h.known e he)
  text id row hrow hact entry hn := by
    by_cases hid : id = c.id
    · subst hid
      rw [durable_get?_self] at hrow
      cases hrow
      exact hok entry hn
    · exact h.text id row (durable_get?_of_active hid hrow hact) hact entry hn

/-- A commit with a lock key puts its entry last and takes the place of the entry under that
key. -/
theorem Accurate.commit_locked (h : Accurate ttlMs userId now rows es) (c : Commit)
    (k : String) (lockKey : OverlayLockKey) (outcome : OverlayOutcome)
    (hok : KeepsNewest (live now es) rows c (some k)) :
    Accurate ttlMs userId now (c.durable rows)
      (es.filter (fun e => !decide (e.1 = k)) ++
        [(k, buildOverlayEntry ttlMs now userId c.id c.text lockKey outcome)]) where
  sorted := by
    rw [List.pairwise_append]
    refine ⟨h.sorted.sublist List.filter_sublist, List.pairwise_singleton _ _, ?_⟩
    intro a ha b hb
    cases List.mem_singleton.mp hb
    exact h.bound a (List.mem_filter.mp ha).1
  bound e he := by
    rcases List.mem_append.mp he with he | he
    · exact h.bound e (List.mem_filter.mp he).1
    · cases List.mem_singleton.mp he
      exact le_refl _
  own e he := by
    rcases List.mem_append.mp he with he | he
    · exact h.own e (List.mem_filter.mp he).1
    · cases List.mem_singleton.mp he
      rfl
  known e he := by
    rcases List.mem_append.mp he with he | he
    · exact durable_has (h.known e (List.mem_filter.mp he).1)
    · cases List.mem_singleton.mp he
      rw [OrdMap.has, show (buildOverlayEntry ttlMs now userId c.id c.text lockKey
        outcome).memoryId = c.id from rfl, durable_get?_self]
      rfl
  text id row hrow hact entry hn := by
    by_cases httl : 0 < ttlMs
    · have hnew : now < (buildOverlayEntry ttlMs now userId c.id c.text lockKey
          outcome).expiresAtMs := by
        change now < now + ttlMs
        omega
      have hlive : live now (es.filter fun e => !decide (e.1 = k)) =
          (live now es).filter fun e => !decide (e.1 = k) := by
        simp only [live, List.filter_filter, Bool.and_comm]
      rw [live_concat hnew, hlive] at hn
      by_cases hid : c.id = id
      · subst hid
        rw [newest_concat, buildOverlayEntry_memoryId, if_pos rfl, Option.some.injEq] at hn
        rw [durable_get?_self] at hrow
        cases hrow
        rw [← hn]
        rfl
      · rw [newest_concat, buildOverlayEntry_memoryId, if_neg hid] at hn
        by_cases hold : ∃ old, (k, old) ∈ live now es ∧ old.memoryId = id
        · obtain ⟨old, hm, rfl⟩ := hold
          exact hok _ hm rfl (Ne.symm hid) row hrow hact entry hn
        · -- the place taken was not that of an entry naming `id`
          rw [newest, latest_filter] at hn
          · exact h.text id row (durable_get?_of_active (Ne.symm hid) hrow hact) hact entry hn
          · intro e he hname
            simp only [Bool.not_eq_true', decide_eq_false_iff_not]
            rintro rfl
            exact hold ⟨e.2, he, of_decide_eq_true hname⟩
    · -- nothing outlives the instant it is put at
      obtain ⟨e, he, -, -⟩ := newest_mem hn
      obtain ⟨hm, hexp⟩ := List.mem_filter.mp he
      have hexp := of_decide_eq_true hexp
      rcases List.mem_append.mp hm with hm | hm
      · have := h.bound e (List.mem_filter.mp hm).1
        omega
      · cases List.mem_singleton.mp hm
        change now < now + ttlMs at hexp
        omega

/-- The overlay step of a commit leaves its user an end of what `Accurate.commit_locked`
describes. -/
theorem held_commitToOverlay {r : OverlayRegistry} {memoryId text : String}
    {metadata : Option Metadata} {outcome : OverlayOutcome} {lockKey : OverlayLockKey}
    (hk : lockKeyFromMetadata metadata = some lockKey) :
    held (commitToOverlay opts ttlMs now userId memoryId text metadata outcome r) userId <:+
      live now ((held r userId).filter (fun e => !decide (e.1 = serializeLockKey lockKey)) ++
        [(serializeLockKey lockKey,
          buildOverlayEntry ttlMs now userId memoryId text lockKey outcome)]) := by
  have hput : ∀ (r' : OverlayRegistry),
      (r'.store userId).entries.erase (serializeLockKey lockKey) =
        (r.store userId).entries.erase (serializeLockKey lockKey) →
      held (r'.put opts now userId lockKey
          (buildOverlayEntry ttlMs now userId memoryId text lockKey outcome)) userId <:+
        live now ((held r userId).filter (fun e => !decide (e.1 = serializeLockKey lockKey)) ++
          [(serializeLockKey lockKey,
            buildOverlayEntry ttlMs now userId memoryId text lockKey outcome)]) := by
    intro r' hr'
    have h : held (r'.put opts now userId lockKey
        (buildOverlayEntry ttlMs now userId memoryId text lockKey outcome)) userId <:+
        (((r'.store userId).entries.erase (serializeLockKey lockKey)).entries ++
          [(serializeLockKey lockKey,
            buildOverlayEntry ttlMs now userId memoryId text lockKey outcome)]).filter
          fun e => decide (now < e.2.expiresAtMs) := OverlayRegistry.suffix_put_self
    rw [hr'] at h
    exact h
  unfold commitToOverlay
  simp only [hk]
  cases outcome with
  | create => exact hput r rfl
  | mergeUpdate => exact hput r rfl
  | supersede =>
      refine hput _ ?_
      simp only [OverlayRegistry.delete, PerTenantStore.delete,
        OverlayRegistry.store_setStore_self, OverlayRegistry.store_forUser, OrdMap.erase_erase]

/-- A foreign call leaves the user an end of what it holds. -/
theorem held_serve {r : OverlayRegistry} {c : OverlayRegistry.Call} (hf : foreign userId c = true)
    (hs : (held r userId).Pairwise fun a b => a.2.expiresAtMs ≤ b.2.expiresAtMs) :
    held (r.serve opts now c) userId <:+ held r userId := by
  have hexp : held (r.expireAll now) userId <:+ held r userId := by
    rw [held, OverlayRegistry.store_expireAll]
    exact suffix_filter_of_sorted hs now
  have hset : ∀ {u : String} {s : PerTenantStore}, u ≠ userId →
      held ((r.forUser u).setStore u s) userId <:+ held r userId := fun hu => by
    rw [held, OverlayRegistry.store_setStore_ne _ _ (Ne.symm hu), OverlayRegistry.store_forUser]
    exact List.suffix_rfl
  have hread : ∀ {u : String},
      held ((r.forUser u).setStore u (((r.forUser u).store u).lazyExpire now)) userId <:+
        held r userId := fun {u} => by
    by_cases hu : u = userId
    · subst hu
      rw [held, OverlayRegistry.store_setStore_self, OverlayRegistry.store_forUser]
      exact suffix_filter_of_sorted hs now
    · exact hset hu
  cases c with
  | put u lockKey entry =>
      refine (OverlayRegistry.suffix_put_ne (Ne.symm (bne_iff_ne.mp hf))).trans ?_
      exact suffix_filter_of_sorted hs now
  | get u lockKey => exact hset (bne_iff_ne.mp hf)
  | delete u lockKey => exact hset (bne_iff_ne.mp hf)
  | snapshot u => exact hread
  | size u => exact hread
  | globalSize => exact hexp
  | tenantCount => exact hexp
  | evictExpired => exact hexp

end

/-- **One event keeps the overlay accurate**, a commit that `Rewrites` included. -/
theorem step_accurate {s s' : State} {e : Int × Event}
    (h : Accurate ttlMs userId s.clock s.rows (held s.registry userId))
    (hok : Rewrites userId s e) (hstep : step opts ttlMs userId s e = some s') :
    Accurate ttlMs userId s'.clock s'.rows (held s'.registry userId) := by
  obtain ⟨now, ev⟩ := e
  unfold step at hstep
  by_cases hle : s.clock ≤ now
  · rw [if_pos hle] at hstep
    have hnow := h.advance hle
    cases ev with
    | call c =>
        cases hf : foreign userId c with
        | false => simp [hf] at hstep
        | true =>
            simp only [hf, if_true, Option.some.injEq] at hstep
            subst hstep
            exact hnow.shrink (held_serve hf h.sorted)
    | commit c =>
        cases hc : c.succeeds s.rows with
        | false => simp [hc] at hstep
        | true =>
            simp only [hc, if_true, Option.some.injEq] at hstep
            subst hstep
            cases hk : lockKeyFromMetadata c.metadata with
            | none =>
                simp only [Rewrites, hk, Option.map_none] at hok
                simp only [commitToOverlay, hk]
                exact hnow.commit_unlocked c hok
            | some lockKey =>
                simp only [Rewrites, hk, Option.map_some] at hok
                have hM := hnow.commit_locked c _ lockKey c.kind.outcome hok
                exact (hM.shrink (suffix_filter_of_sorted hM.sorted now)).shrink
                  (held_commitToOverlay hk)
  · rw [if_neg hle] at hstep
    cases hstep

/-- A session begins with nothing in the overlay. -/
theorem accurate_empty (clock : Int) (rows : OrdMap String CommittedRow) :
    Accurate ttlMs userId clock rows (held .empty userId) where
  sorted := List.Pairwise.nil
  bound e he := by cases he
  own e he := by cases he
  known e he := by cases he
  text id row _ _ entry hn := by cases hn

/-- **Along commits that rewrite, the overlay stays accurate.** -/
theorem exec_accurate {clock : Int} {es : List (Int × Event)}
    {s : State} (hok : Runs.Along (step opts ttlMs userId) (Rewrites userId) ⟨clock, rows, .empty⟩ es)
    (h : Runs.exec (step opts ttlMs userId) ⟨clock, rows, .empty⟩ es = some s) :
    Accurate ttlMs userId s.clock s.rows (held s.registry userId) :=
  Runs.exec_invariant (I := fun s => Accurate ttlMs userId s.clock s.rows (held s.registry userId))
    (fun _ _ _ h hok hstep => step_accurate h hok hstep) (accurate_empty clock rows) hok h

/-! ### Retrieval -/

theorem snapshot_eq (now : Int) (registry : OverlayRegistry) :
    (registry.snapshot now userId).1 = (live now (held registry userId)).map Prod.snd := by
  simp only [OverlayRegistry.snapshot, OverlayRegistry.store_forUser]
  rfl

/-- The merge keeps all the entries naming a memory or none, so the newest kept is the newest. -/
theorem latest_filteredOverlay {durableHits : List SearchHit} {rows : OrdMap String ValidatedRow}
    {snapshot : List OverlayEntry} (hown : ∀ e ∈ snapshot, e.userId = userId) {entry : OverlayEntry}
    (h : latest (fun e : OverlayEntry => decide (e.memoryId = id))
      (filteredOverlay userId durableHits rows snapshot) = some entry) :
    latest (fun e : OverlayEntry => decide (e.memoryId = id)) snapshot = some entry := by
  rw [filteredOverlay, latest_append] at h
  have hkeep : ∀ {q : OverlayEntry → Bool}, (∀ e ∈ snapshot, e.memoryId = id → q e = true) →
      latest (fun e : OverlayEntry => decide (e.memoryId = id)) (snapshot.filter q) =
        latest (fun e : OverlayEntry => decide (e.memoryId = id)) snapshot := fun hq =>
    latest_filter fun e he hid => hq e he (of_decide_eq_true hid)
  have hdrop : ∀ (es : List OverlayEntry), (∀ e ∈ es, e.memoryId ≠ id) →
      latest (fun e : OverlayEntry => decide (e.memoryId = id)) es = none := fun _ hq =>
    latest_eq_none fun e he hid => hq e he (of_decide_eq_true hid)
  cases hd : (durableActiveByMemId durableHits).get? id with
  | some b =>
      rw [hdrop (List.filter _ (tentativeKeepers _ _ _)), Option.none_or] at h
      · cases b with
        | true =>
            rwa [durableKeepers, hkeep] at h
            intro e he hid
            simp [hown e he, hid, hd]
        | false =>
            rw [hdrop] at h
            · cases h
            · rintro e he rfl
              simp [durableKeepers, hd] at he
      · rintro e he rfl
        simp [tentativeKeepers, hd] at he
  | none =>
      rw [hdrop (durableKeepers _ _ _), Option.or_none] at h
      · cases hr : rows.has id with
        | true =>
            rw [latest_filter, tentativeKeepers, hkeep] at h
            · exact h
            · intro e he hid
              simp [hown e he, hid, hd]
            · intro e he hid
              rw [of_decide_eq_true hid]
              exact hr
        | false =>
            rw [hdrop] at h
            · cases h
            · rintro e he rfl
              simp [hr] at he
      · rintro e he rfl
        simp [durableKeepers, hd] at he

/-- **Read-your-writes.**  After commits that leave no stale entry newest, every hit the merge
returns for an active memory carries the text last committed to it, provided the durable hits
do. -/
theorem read_your_writes {host : Host} {clock now : Int} {rows : OrdMap String CommittedRow}
    {events : List (Int × Event)} {s : State}
    (hok : Runs.Along (step opts ttlMs userId) (Rewrites userId) ⟨clock, rows, .empty⟩ events)
    (hrun : Runs.exec (step opts ttlMs userId) ⟨clock, rows, .empty⟩ events = some s)
    (hnow : s.clock ≤ now) {durableHits : List SearchHit}
    {query : List String → List OverlayDurableRow}
    (hdurable : ∀ hit ∈ durableHits, ∀ row ∈ s.rows.get? hit.id, hit.text = row.text) :
    ∀ hit ∈ (mergeOverlayLeg host now s.registry userId durableHits query).1,
      ∀ row ∈ s.rows.get? hit.id, row.active = true → hit.text = row.text := by
  intro hit hhit row hrow hact
  have hacc := (exec_accurate hok hrun).advance hnow
  unfold mergeOverlayLeg at hhit
  simp only [snapshot_eq] at hhit
  have hown : ∀ e ∈ (live now (held s.registry userId)).map Prod.snd, e.userId = userId := by
    intro e he
    obtain ⟨e', he', rfl⟩ := List.mem_map.mp he
    exact hacc.own e' (List.mem_filter.mp he').1
  unfold mergeSnapshot at hhit
  split at hhit
  · exact hdurable hit hhit row hrow
  · rw [mem_fuse] at hhit
    rcases fuse_get? durableHits _ _ hit.id with
      ⟨e, -⟩ | ⟨pre, entry, post, fused, hk, hid, hpost, e⟩
    · exact hdurable hit (lastDurableHit_id (e.symm.trans hhit)).1 row hrow
    · have hnew := latest_of_split (p := fun e : OverlayEntry => decide (e.memoryId = hit.id)) pre
        (decide_eq_true hid) fun e he => by simpa using hpost e he
      rw [← hk] at hnew
      have hsnap := latest_filteredOverlay hown hnew
      rw [latest_map] at hsnap
      cases hhit.symm.trans e
      exact hacc.text _ row hrow hact entry hsnap

/-- The lock key metadata of one fact. -/
def keyed : Metadata := .ofList [("factKey", .str "fact"), ("continuitySubjectKey", .str "subject")]

def durableHit (id text : String) : SearchHit :=
  ⟨id, text, 1, none, none, some true, none, .empty, none⟩

/-- A session of the user `u` from an empty store. -/
def sessionOf (events : List (Int × Event)) : Option State :=
  Runs.exec (step ⟨8, 8⟩ 60 "u") ⟨0, .empty, .empty⟩ events

/-- Two writes under one lock key. -/
def keyedRewrite : List (Int × Event) :=
  [(1, .commit ⟨.create, "m", "one", some keyed⟩),
    (2, .commit ⟨.mergeUpdate, "m", "two", some keyed⟩)]

/-- A write under a lock key, then a merge without one. -/
def unkeyedRewrite : List (Int × Event) :=
  [(1, .commit ⟨.create, "m", "one", some keyed⟩), (2, .commit ⟨.mergeUpdate, "m", "two", none⟩)]

/-- The hits answered after a session, when the durable leg finds `m` with its second text. -/
def answered (s : State) : List SearchHit :=
  (mergeOverlayLeg .ascii 3 s.registry "u" [durableHit "m" "two"] fun _ => []).1

theorem read_your_writes_keyed :
    ∃ s, sessionOf keyedRewrite = some s ∧ (answered s).length = 1 ∧
      ∀ hit ∈ answered s, ∀ row ∈ s.rows.get? hit.id, row.active = true → hit.text = row.text := by
  have hrun := Runs.eq_some_getD (o := sessionOf keyedRewrite) ⟨0, .empty, .empty⟩
    (by decide +kernel)
  exact ⟨_, hrun, by decide +kernel,
    read_your_writes (by decide +kernel) hrun (by decide +kernel) (by decide +kernel)⟩

/-- The merge answers with the first text, though the durable hit has the second. -/
theorem stale_overlay_text :
    ∃ s, sessionOf unkeyedRewrite = some s ∧ s.rows.get? "m" = some ⟨"two", true⟩ ∧
      (answered s).map (fun hit => (hit.id, hit.text)) = [("m", "one")] := by
  have hrun := Runs.eq_some_getD (o := sessionOf unkeyedRewrite) ⟨0, .empty, .empty⟩
    (by decide +kernel)
  exact ⟨_, hrun, by decide +kernel, by decide +kernel⟩

end Runir.Session
