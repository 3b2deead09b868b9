import Runir.Domain.Identity
import Runir.Lib.Json
import Runir.Lib.OrdMap
import Runir.Lib.Shared

/-!
# Continuity — Gap rows

`upsertContinuityGap` and `setGapStatus` of `src/storage/surreal/continuity-gap-store.ts`, query by
query.

* `ContinuityGapRow`, `GapQuery`: the table and what is asked of it.
* `upsertContinuityGap`, `setGapStatus`: the calls.
-/

namespace Runir
open Shared

inductive ContinuityGapKind where
  | unfiledIntent | startedUnfinished | orphanedChange | docDrift | beadStale | missingHandoff
  | staleAgentRun
  deriving DecidableEq

inductive ContinuityGapConfidence where
  | weak | developing | strong
  deriving DecidableEq

/-- `new` is a keyword. -/
inductive ContinuityGapStatus where
  | fresh | active | dismissed | materialized | superseded
  deriving DecidableEq

structure CandidateTask where
  title : String
  description : String

def CandidateTask.toJson (t : CandidateTask) : Json :=
  .obj (.cons "title" (.str t.title) (.cons "description" (.str t.description) .nil))

structure ContinuityGapWrite where
  userId : String
  workspaceId : String
  projectKey : String
  targetProjectId : Option String := none
  targetNamespaceId : Option String := none
  kind : ContinuityGapKind
  title : String
  summary : String
  recommendation : String
  relatedWorkItems : List String := []
  candidateTaskPreview : Option CandidateTask := none
  evidence : Option Json := none
  score : ℚ
  confidence : ContinuityGapConfidence
  status : ContinuityGapStatus
  dedupeKey : String
  firstSeenAt : Option String := none
  lastSeenAt : Option String := none

/-- The columns of `continuity_gap` that every write sets. -/
structure GapColumns where
  userId : String
  workspaceId : String
  projectKey : String
  targetProjectId : Option String
  targetNamespaceId : Option String
  kind : ContinuityGapKind
  title : String
  summary : String
  recommendation : String
  relatedWorkItems : List String
  candidateTaskPreview : Option (List Char)
  evidence : List Char
  score : ℚ
  confidence : ContinuityGapConfidence
  dedupeKey : String
  deriving DecidableEq

/-- A row of `continuity_gap`, but for its id. -/
structure ContinuityGapRow extends GapColumns where
  status : ContinuityGapStatus
  firstSeenAt : String
  lastSeenAt : String
  lastReportedAt : Option String := none
  deriving DecidableEq

abbrev GapTable := OrdMap String ContinuityGapRow

/-! ### Queries -/

inductive GapQuery where
  | find (recordId : String)
  | create (recordId : String) (row : ContinuityGapRow)
  | update (recordId : String) (columns : GapColumns) (status : ContinuityGapStatus)
      (lastSeenAt : String)
  | read (recordId : String)
  | setStatus (gapId : String) (status : ContinuityGapStatus)

/-- A row that is found answers with its status, a write with the row after it. -/
abbrev GapQuery.Reply : GapQuery → Type
  | .find _ => Option ContinuityGapStatus
  | .create _ _ => ContinuityGapRow
  | .update _ _ _ _ => Option ContinuityGapRow
  | .read _ => Option ContinuityGapRow
  | .setStatus _ _ => Unit

namespace GapTable

/-- The unique index has the columns of the row. -/
def deduped (row : ContinuityGapRow) (s : GapTable) : Bool :=
  s.entries.any fun e => e.2.userId = row.userId ∧ e.2.workspaceId = row.workspaceId ∧
    e.2.projectKey = row.projectKey ∧ e.2.dedupeKey = row.dedupeKey

/-- The queries.  `CREATE` is refused where the id or the unique index is taken; `UPDATE` of an id
without a row changes nothing. -/
def perform (_ : Nat) : (q : GapQuery) → GapTable → GapTable × Option q.Reply
  | .find recordId, s => (s, some ((s.get? recordId).map (·.status)))
  | .create recordId row, s =>
      if (s.get? recordId).isSome || deduped row s then (s, none)
      else (s.set recordId row, some row)
  | .update recordId columns status lastSeenAt, s =>
      match s.get? recordId with
      | none => (s, some none)
      | some old =>
          let row := { old with toGapColumns := columns, status := status, lastSeenAt := lastSeenAt }
          (s.set recordId row, some (some row))
  | .read recordId, s => (s, some (s.get? recordId))
  | .setStatus gapId status, s =>
      match s.get? gapId with
      | none => (s, some ())
      | some old => (s.set gapId { old with status := status }, some ())

end GapTable

/-! ### The calls -/

abbrev GapRoutine := Routine GapQuery GapQuery.Reply

def ContinuityGapWrite.columns (write : ContinuityGapWrite) (workspaceId : String) : GapColumns where
  userId := write.userId
  workspaceId := workspaceId
  projectKey := write.projectKey
  targetProjectId := write.targetProjectId
  targetNamespaceId := write.targetNamespaceId
  kind := write.kind
  title := write.title
  summary := write.summary
  recommendation := write.recommendation
  relatedWorkItems := write.relatedWorkItems
  candidateTaskPreview := write.candidateTaskPreview.map fun t => t.toJson.stringify
  evidence := (write.evidence.getD (.arr .nil)).stringify
  score := write.score
  confidence := write.confidence
  dedupeKey := write.dedupeKey

/-- `stickyForThisWrite`. -/
def stickyStatus (reopenIfSuperseded : Bool) (status : ContinuityGapStatus) : Bool :=
  status == .dismissed || status == .materialized || (!reopenIfSuperseded && status == .superseded)

/-- The status an update writes over the one that was read. -/
def nextGapStatus (reopenIfSuperseded : Bool) (existing : Option ContinuityGapStatus) :
    ContinuityGapStatus :=
  let priorStatus := existing.getD .active
  if stickyStatus reopenIfSuperseded priorStatus then priorStatus
  else if reopenIfSuperseded && priorStatus == .superseded then .fresh
  else .active

/-- The update of a row that was found, or could not be created. -/
def updateGapRow (recordId : String) (columns : GapColumns) (lastSeenAt : String)
    (reopenIfSuperseded : Bool) (existing : Option ContinuityGapStatus) :
    GapRoutine (String × ContinuityGapRow) := do
  match ← Routine.query (GapQuery.update recordId columns
      (nextGapStatus reopenIfSuperseded existing) lastSeenAt) with
  | some updated => return (recordId, updated)
  | none =>
      match ← Routine.query (GapQuery.read recordId) with
      | some row => return (recordId, row)
      | none => Routine.raise

/-- The create of a row that was not found; an error is taken for a lost race, and the row read
again. -/
def createGapRow (recordId : String) (row : ContinuityGapRow) (lastSeenAt : String)
    (reopenIfSuperseded : Bool) : GapRoutine (String × ContinuityGapRow) := do
  match ← Routine.attempt (GapQuery.create recordId row) with
  | some created => return (recordId, created)
  | none =>
      let existing ← Routine.query (GapQuery.find recordId)
      updateGapRow recordId row.toGapColumns lastSeenAt reopenIfSuperseded existing

/-- `now` is the clock of the call. -/
def upsertContinuityGap (fingerprint : String → String) (now : String) (write : ContinuityGapWrite)
    (reopenIfSuperseded : Bool) : GapRoutine (String × ContinuityGapRow) := do
  let workspaceId := canonicalizeWorkspaceId (some write.workspaceId)
  let recordId := buildContinuityGapRecordId fingerprint write.userId workspaceId write.projectKey
    write.dedupeKey
  let columns := write.columns workspaceId
  let firstSeenAt := write.firstSeenAt.getD now
  let lastSeenAt := write.lastSeenAt.getD now
  match ← Routine.query (GapQuery.find recordId) with
  | none =>
      createGapRow recordId ⟨columns, write.status, firstSeenAt, lastSeenAt, none⟩ lastSeenAt
        reopenIfSuperseded
  | some status => updateGapRow recordId columns lastSeenAt reopenIfSuperseded (some status)

def setGapStatus (gapId : String) (status : ContinuityGapStatus) : GapRoutine Unit :=
  Routine.query (GapQuery.setStatus gapId status)

/-- A call in flight. -/
inductive GapCall where
  | upsert (now : String) (write : ContinuityGapWrite) (reopenIfSuperseded : Bool)
  | setStatus (gapId : String) (status : ContinuityGapStatus)

def GapCall.routine (fingerprint : String → String) : GapCall →
    GapRoutine (Option (String × ContinuityGapRow))
  | .upsert now write reopenIfSuperseded => do
      return some (← upsertContinuityGap fingerprint now write reopenIfSuperseded)
  | .setStatus gapId status => do
      setGapStatus gapId status
      return none

end Runir
