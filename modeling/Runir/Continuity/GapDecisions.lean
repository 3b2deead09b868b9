import Runir.Continuity.GapStore

/-!
# Continuity — Decided gaps

Calls of `upsertContinuityGap` and `setGapStatus` in flight on one table.

* `KeepsDecided`: no row that is dismissed or materialized is turned back.
* `readsDecision`: an update of a decided row comes from a call that has last read a decision.
* `gaps_decided_iff`: in every run, the upserts keep decided rows decided exactly where the updates
  read the decision, and no step changes when a gap was first seen.
-/

namespace Runir
open Shared

/-! ### Rows -/

/-- What a user has decided, or what has come of the gap. -/
def ContinuityGapStatus.decided (status : ContinuityGapStatus) : Bool :=
  status == .dismissed || status == .materialized

/-- An update writes a decision exactly where it has read one. -/
theorem nextGapStatus_decided (reopenIfSuperseded : Bool) (existing : Option ContinuityGapStatus) :
    (nextGapStatus reopenIfSuperseded existing).decided =
      existing.any ContinuityGapStatus.decided := by
  cases reopenIfSuperseded <;> rcases existing with _ | status <;> try cases status
  all_goals rfl

namespace GapTable
variable {s s' : GapTable}

def KeepsDecided (s s' : GapTable) : Prop :=
  ∀ id row, s.get? id = some row → row.status.decided = true →
    ∃ row', s'.get? id = some row' ∧ row'.status.decided = true

def KeepsFirstSeen (s s' : GapTable) : Prop :=
  ∀ id row, s.get? id = some row →
    ∃ row', s'.get? id = some row' ∧ row'.firstSeenAt = row.firstSeenAt

theorem keepsDecided_refl (s : GapTable) : KeepsDecided s s := fun _ row hrow hdecided =>
  ⟨row, hrow, hdecided⟩

theorem keepsFirstSeen_refl (s : GapTable) : KeepsFirstSeen s s := fun _ row hrow =>
  ⟨row, hrow, rfl⟩

/-- A row that is written over. -/
theorem keepsDecided_set {id : String} {old row : ContinuityGapRow} (hold : s.get? id = some old) :
    KeepsDecided s (s.set id row) ↔ (old.status.decided = true → row.status.decided = true) := by
  constructor
  · intro hkeeps hdecided
    obtain ⟨row', hrow', hdecided'⟩ := hkeeps id old hold hdecided
    rw [OrdMap.get?_set_self] at hrow'
    rwa [← Option.some.inj hrow'] at hdecided'
  · intro h id' row' hrow' hdecided
    by_cases hid : id' = id
    · subst hid
      rw [hold] at hrow'
      obtain rfl := Option.some.inj hrow'
      exact ⟨row, OrdMap.get?_set_self s id' row, h hdecided⟩
    · exact ⟨row', (OrdMap.get?_set_ne s row hid).trans hrow', hdecided⟩

theorem keepsFirstSeen_set {id : String} {old row : ContinuityGapRow} (hold : s.get? id = some old)
    (h : row.firstSeenAt = old.firstSeenAt) : KeepsFirstSeen s (s.set id row) := by
  intro id' row' hrow'
  by_cases hid : id' = id
  · subst hid
    rw [hold] at hrow'
    obtain rfl := Option.some.inj hrow'
    exact ⟨row, OrdMap.get?_set_self s id' row, h⟩
  · exact ⟨row', (OrdMap.get?_set_ne s row hid).trans hrow', rfl⟩

/-- A row that is new leaves the others. -/
theorem get?_set_new {id : String} {row : ContinuityGapRow} (hnew : s.get? id = none) {id' : String}
    {row' : ContinuityGapRow} (hrow' : s.get? id' = some row') :
    OrdMap.get? (s.set id row) id' = some row' := by
  have hid : id' ≠ id := by
    rintro rfl
    rw [hnew] at hrow'
    exact nomatch hrow'
  exact (OrdMap.get?_set_ne s row hid).trans hrow'

/-- No query changes when a gap was first seen. -/
theorem perform_keepsFirstSeen (caller : Nat) (q : GapQuery) (s : GapTable) :
    KeepsFirstSeen s (perform caller q s).1 := by
  cases q with
  | find recordId => exact keepsFirstSeen_refl s
  | create recordId row =>
      simp only [perform]
      split
      · exact keepsFirstSeen_refl s
      · rename_i hfree
        rw [Bool.or_eq_true, not_or, Option.not_isSome_iff_eq_none] at hfree
        exact fun id row hrow => ⟨row, get?_set_new hfree.1 hrow, rfl⟩
  | update recordId columns status lastSeenAt =>
      simp only [perform]
      cases hold : s.get? recordId with
      | none => exact keepsFirstSeen_refl s
      | some old => exact keepsFirstSeen_set hold rfl
  | read recordId => exact keepsFirstSeen_refl s
  | setStatus gapId status =>
      simp only [perform]
      cases hold : s.get? gapId with
      | none => exact keepsFirstSeen_refl s
      | some old => exact keepsFirstSeen_set hold rfl

/-- Of the queries of an upsert only the update touches a row that is there. -/
theorem perform_keepsDecided (caller : Nat) {q : GapQuery} (s : GapTable)
    (hset : ∀ gapId status, q ≠ .setStatus gapId status) :
    KeepsDecided s (perform caller q s).1 ↔
      ∀ recordId columns status lastSeenAt, q = .update recordId columns status lastSeenAt →
        ∀ row, s.get? recordId = some row → row.status.decided = true → status.decided = true := by
  cases q with
  | find recordId => exact iff_of_true (keepsDecided_refl s) fun _ _ _ _ h => by cases h
  | create recordId row =>
      refine iff_of_true ?_ fun _ _ _ _ h => by cases h
      simp only [perform]
      split
      · exact keepsDecided_refl s
      · rename_i hfree
        rw [Bool.or_eq_true, not_or, Option.not_isSome_iff_eq_none] at hfree
        exact fun id row hrow hdecided => ⟨row, get?_set_new hfree.1 hrow, hdecided⟩
  | update recordId columns status lastSeenAt =>
      simp only [perform]
      constructor
      · rintro hkeeps _ _ _ _ ⟨⟩ row hrow
        rw [hrow] at hkeeps
        exact (keepsDecided_set hrow).mp hkeeps
      · intro h
        cases hold : s.get? recordId with
        | none => exact keepsDecided_refl s
        | some old => exact (keepsDecided_set hold).mpr (h _ _ _ _ rfl old hold)
  | read recordId => exact iff_of_true (keepsDecided_refl s) fun _ _ _ _ h => by cases h
  | setStatus gapId status => exact absurd rfl (hset gapId status)

end GapTable

/-! ### What a call has read -/

/-- The status a call has last read. -/
def lastStatus : Heard GapQuery GapQuery.Reply → Option ContinuityGapStatus
  | [] => none
  | ⟨.find _, some status⟩ :: _ => status
  | _ :: h => lastStatus h

/-- A call writes over the status it has last read. -/
def GapCall.Asks : GapCall → Heard GapQuery GapQuery.Reply → GapQuery → Prop
  | .upsert _ _ reopenIfSuperseded, h, .update _ _ status _ =>
      status = nextGapStatus reopenIfSuperseded (lastStatus h)
  | .upsert _ _ _, _, .setStatus _ _ => False
  | .setStatus _ _, _, .update _ _ _ _ => False
  | _, _, _ => True

theorem asks_updateGapRow {now : String} {write : ContinuityGapWrite} {recordId : String}
    {columns : GapColumns} {lastSeenAt : String} {reopen : Bool}
    {h : Heard GapQuery GapQuery.Reply} {existing : Option ContinuityGapStatus}
    (hread : lastStatus h = existing) {β : Type} {k : String × ContinuityGapRow → GapRoutine β}
    (hk : ∀ r h, (k r).Asks (GapCall.upsert now write reopen).Asks h) :
    ((updateGapRow recordId columns lastSeenAt reopen existing).bind k).Asks
      (GapCall.upsert now write reopen).Asks h := by
  refine ⟨by rw [← hread]; rfl, fun r => ?_⟩
  match r with
  | none => trivial
  | some (some updated) => exact hk _ _
  | some none =>
      refine ⟨trivial, fun r => ?_⟩
      match r with
      | none => trivial
      | some none => trivial
      | some (some row) => exact hk _ _

theorem asks_upsertContinuityGap (fingerprint : String → String) {now : String}
    {write : ContinuityGapWrite} {reopen : Bool} {β : Type}
    {k : String × ContinuityGapRow → GapRoutine β}
    (hk : ∀ r h, (k r).Asks (GapCall.upsert now write reopen).Asks h) :
    ((upsertContinuityGap fingerprint now write reopen).bind k).Asks
      (GapCall.upsert now write reopen).Asks [] := by
  refine ⟨trivial, fun r => ?_⟩
  match r with
  | none => trivial
  | some (some status) => exact asks_updateGapRow rfl hk
  | some none =>
      refine ⟨trivial, fun r => ?_⟩
      match r with
      | some created => exact hk _ _
      | none =>
          refine ⟨trivial, fun r => ?_⟩
          match r with
          | none => trivial
          | some existing => exact asks_updateGapRow rfl hk

theorem asks_routine (fingerprint : String → String) (call : GapCall) :
    (call.routine fingerprint).Asks call.Asks [] := by
  cases call with
  | upsert now write reopen => exact asks_upsertContinuityGap fingerprint fun _ _ => trivial
  | setStatus gapId status =>
      refine ⟨trivial, fun r => ?_⟩
      cases r <;> trivial

/-! ### Runs -/

abbrev GapWorld := World Nat GapTable GapQuery GapQuery.Reply (Option (String × ContinuityGapRow))

def GapCall.isUpsert : GapCall → Bool
  | .upsert _ _ _ => true
  | .setStatus _ _ => false

/-- A step of an upsert turns no decided row back. -/
def stepKeepsDecided (calls : Nat → GapCall) (w : GapWorld) (a : Nat × Fate) : Prop :=
  (calls a.1).isUpsert = true → ∀ w', step GapTable.perform w a = some w' →
    GapTable.KeepsDecided w.store w'.store

/-- An update that is performed on a decided row is of a call that has last read a decision. -/
def readsDecision (w : GapWorld) (a : Nat × Fate) : Prop :=
  ∀ recordId columns status lastSeenAt k,
    w.routine a.1 = .ask (.update recordId columns status lastSeenAt) k → a.2 ≠ .failed →
      ∀ row, w.store.get? recordId = some row → row.status.decided = true →
        (lastStatus (w.heard a.1)).any ContinuityGapStatus.decided = true

theorem stepKeepsDecided_iff {calls : Nat → GapCall} {w : GapWorld}
    (hasks : ∀ i, (w.routine i).Asks (calls i).Asks (w.heard i)) (a : Nat × Fate) :
    stepKeepsDecided calls w a ↔ readsDecision w a := by
  have hcall := hasks a.1
  unfold stepKeepsDecided readsDecision
  cases hroutine : w.routine a.1 with
  | ret r =>
      refine iff_of_true (fun _ w' hstep => ?_) fun _ _ _ _ _ h => nomatch h
      obtain ⟨q, k, hask, -⟩ := step_cases hstep
      exact nomatch hroutine.symm.trans hask
  | raise =>
      refine iff_of_true (fun _ w' hstep => ?_) fun _ _ _ _ _ h => nomatch h
      obtain ⟨q, k, hask, -⟩ := step_cases hstep
      exact nomatch hroutine.symm.trans hask
  | ask q k =>
      rw [hroutine] at hcall
      have hq := hcall.1
      cases hc : calls a.1 with
      | setStatus gapId status =>
          refine iff_of_true (fun h => nomatch h) ?_
          rintro _ _ _ _ _ ⟨⟩
          rw [hc] at hq
          exact hq.elim
      | upsert now write reopen =>
          rw [hc] at hq
          have hset : ∀ gapId status, q ≠ .setStatus gapId status := by
            rintro _ _ rfl
            exact hq
          constructor
          · rintro h recordId columns status lastSeenAt k' ⟨⟩ hfate row hrow hdecided
            have hkeeps := (forall_step_iff hroutine _).mp (h rfl)
            rw [outcome_store hfate] at hkeeps
            have hwritten := (GapTable.perform_keepsDecided a.1 w.store hset).mp hkeeps _ _ _ _ rfl
              row hrow hdecided
            rwa [show status = _ from hq, nextGapStatus_decided] at hwritten
          · intro h _
            rw [forall_step_iff hroutine]
            by_cases hfate : a.2 = .failed
            · rw [hfate]
              exact GapTable.keepsDecided_refl w.store
            · rw [outcome_store hfate, GapTable.perform_keepsDecided a.1 w.store hset]
              rintro recordId columns status lastSeenAt rfl row hrow hdecided
              rw [show status = _ from hq, nextGapStatus_decided]
              exact h _ _ _ _ _ rfl hfate row hrow hdecided

/-- **A decided gap stays decided** in exactly the runs whose updates of decided rows have read a
decision; and no step changes when a gap was first seen. -/
theorem gaps_decided_iff (fingerprint : String → String) (calls : Nat → GapCall) (s : GapTable)
    (as : List (Nat × Fate)) :
    (Runs.Along (step GapTable.perform) (stepKeepsDecided calls)
        (start s fun i => (calls i).routine fingerprint) as ↔
      Runs.Along (step GapTable.perform) readsDecision
        (start s fun i => (calls i).routine fingerprint) as) ∧
    Runs.Along (step GapTable.perform)
      (fun w a => ∀ w', step GapTable.perform w a = some w' →
        GapTable.KeepsFirstSeen w.store w'.store)
      (start s fun i => (calls i).routine fingerprint) as := by
  refine ⟨?_, ?_⟩
  · exact Runs.along_iff_along (I := fun w => ∀ i, (w.routine i).Asks (calls i).Asks (w.heard i))
      (fun _ _ _ h hstep => asks_step h hstep) (fun w a h => stepKeepsDecided_iff h a) fun i => asks_routine fingerprint (calls i)
  · refine Runs.Along.of_forall fun w a _ w' hstep => ?_
    obtain ⟨q, k, -, hstore, -, -⟩ := step_cases hstep
    rw [hstore]
    cases a.2 with
    | done => exact GapTable.perform_keepsFirstSeen a.1 q w.store
    | lost => exact GapTable.perform_keepsFirstSeen a.1 q w.store
    | failed => exact GapTable.keepsFirstSeen_refl w.store

/-! ### A decision overwritten -/

def oneGap : ContinuityGapWrite where
  userId := "ann"
  workspaceId := "w"
  projectKey := "k"
  kind := .unfiledIntent
  title := "t"
  summary := "s"
  recommendation := "r"
  score := 0
  confidence := .weak
  status := .fresh
  dedupeKey := "d"

def oneGapId : String := buildContinuityGapRecordId (fun v => v) "ann" "w" "k" "d"

/-- A detector, and a user who dismisses the gap. -/
def oneGapCalls : Nat → GapCall
  | 0 => .upsert "now" oneGap false
  | _ => .setStatus oneGapId .dismissed

/-- The gap is dismissed between the read and the update of a detector, and is active again. -/
theorem dismissed_reopens :
    ∃ s : GapTable, ∃ w w' : GapWorld,
      Runs.exec (step GapTable.perform) (start s fun i => (oneGapCalls i).routine fun v => v)
        [(0, .done), (1, .done)] = some w ∧
      step GapTable.perform w (0, .done) = some w' ∧
      (w.store.get? oneGapId).map (·.status) = some .dismissed ∧
      (w'.store.get? oneGapId).map (·.status) = some .active :=
  ⟨OrdMap.empty.set oneGapId ⟨oneGap.columns "w", .fresh, "now", "now", none⟩, _, _, rfl, rfl,
    by decide +kernel, by decide +kernel⟩

end Runir
