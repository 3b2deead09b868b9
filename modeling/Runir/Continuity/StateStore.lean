import Runir.Domain.Identity
import Runir.Lib.Json
import Runir.Lib.OrdMap
import Runir.Lib.Shared

/-!
# Continuity — The state row

`compareAndSwapProjectContinuityState` of `src/storage/surreal/continuity-state-store.ts`: one
versioned row for each user, workspace and project.

* `ContinuityStates`: the table, and the writes committed to it so far.
* `compareAndSwapProjectContinuityState`: the call, query by query.
-/

namespace Runir
open Shared

/-- `ContinuitySynthesisFields`. -/
structure ContinuitySynthesisFields where
  currentFocus : List String := []
  latestProgress : List String := []
  nextSteps : List String := []
  blockers : List String := []
  openLoops : List String := []
  unfiledIntentions : List String := []
  pendingVerification : List String := []
  recentlyChangedArtifacts : List String := []
  likelyStaleBeads : List String := []
  activeAgentRuns : List String := []
  deriving DecidableEq

structure ProjectContinuityStateWrite where
  userId : String
  workspaceId : String
  projectKey : String
  projectId : Option String := none
  defaultNamespaceId : Option String := none
  fields : ContinuitySynthesisFields := {}
  sourceEvidenceRefs : Option Json := none
  confidence : ℚ
  sourceSessionIds : List String := []
  supportingSemioteIds : List String := []
  validAt : Option String := none
  updatedAt : Option String := none

/-- A row of `project_continuity_state`, but for its id. -/
structure ContinuityStateRow where
  userId : String
  workspaceId : String
  projectKey : String
  projectId : Option String
  defaultNamespaceId : Option String
  fields : ContinuitySynthesisFields
  sourceEvidenceRefs : List Char
  confidence : ℚ
  sourceSessionIds : List String
  supportingSemioteIds : List String
  validAt : String
  updatedAt : String
  version : Option Int
  deriving DecidableEq

/-- What the unique index of the table holds apart. -/
def ContinuityStateRow.triple (row : ContinuityStateRow) : String × String × String :=
  (row.userId, row.workspaceId, row.projectKey)

/-- A committed write: whose, the version of the row it was applied to (none where it created the
row), and the version it wrote. -/
structure StateCommit where
  caller : Nat
  found : Option Int
  version : Int
  deriving DecidableEq

/-- The table, and what has been committed to it, the last first; no query reads the latter. -/
structure ContinuityStates where
  rows : OrdMap String ContinuityStateRow
  commits : List StateCommit := []

/-! ### Queries -/

inductive StateQuery where
  | find (triple : String × String × String)
  | create (recordId : String) (row : ContinuityStateRow) (version : Int)
  | update (recordId : String) (expectedVersion : Int) (row : ContinuityStateRow) (version : Int)

/-- A row that is found answers with its id and its version, a write with the row after it. -/
abbrev StateQuery.Reply : StateQuery → Type
  | .find _ => Option (String × Int)
  | .create _ _ _ => Option ContinuityStateRow
  | .update _ _ _ _ => Option ContinuityStateRow

namespace ContinuityStates

def findRow (triple : String × String × String) (s : ContinuityStates) :
    Option (String × ContinuityStateRow) :=
  s.rows.entries.find? fun e => e.2.triple = triple

def commit (caller : Nat) (recordId : String) (found : Option Int) (row : ContinuityStateRow)
    (version : Int) (s : ContinuityStates) : ContinuityStates :=
  { rows := s.rows.set recordId { row with version := some version }
    commits := ⟨caller, found, version⟩ :: s.commits }

/-- The queries.  `CREATE` is refused where the id is taken or the unique index has the triple;
`UPDATE` changes the row of its id if the version is the one expected. -/
def perform (caller : Nat) : (q : StateQuery) → ContinuityStates → ContinuityStates × Option q.Reply
  | .find triple, s => (s, some ((s.findRow triple).map fun e => (e.1, e.2.version.getD 0)))
  | .create recordId row version, s =>
      if (s.rows.get? recordId).isSome || (s.findRow row.triple).isSome then (s, none)
      else (s.commit caller recordId none row version, some (some { row with version := some version }))
  | .update recordId expectedVersion row version, s =>
      match s.rows.get? recordId with
      | none => (s, some none)
      | some old =>
          if old.version = some expectedVersion ∨ (old.version = none ∧ expectedVersion = 0) then
            (s.commit caller recordId (some (old.version.getD 0)) row version,
              some (some { row with version := some version }))
          else (s, some none)

end ContinuityStates

/-! ### The call -/

/-- What the call answers. -/
inductive CasResult where
  | record (id : String) (write : ProjectContinuityStateWrite) (version : Int)
      (validAt updatedAt : String)
  | mismatch (currentVersion : Int) (recordId : String)

abbrev StateRoutine := Routine StateQuery StateQuery.Reply

section
variable (fingerprint : String → String)

def findExistingContinuityVersionedRow (userId workspaceIdRaw projectKey : String) :
    StateRoutine (Option (String × Int)) :=
  Routine.query (StateQuery.find (userId, canonicalizeWorkspaceId (some workspaceIdRaw), projectKey))

def reportVersionMismatchFromReRead (userId workspaceIdRaw projectKey : String)
    (fallbackVersion : Int) (fallbackRecordId : String) :
    StateRoutine CasResult := do
  let raced ← findExistingContinuityVersionedRow userId workspaceIdRaw projectKey
  return .mismatch ((raced.map (·.2)).getD fallbackVersion) ((raced.map (·.1)).getD fallbackRecordId)

/-- The row a write stands for; the version is set by the query. -/
def ProjectContinuityStateWrite.row (write : ProjectContinuityStateWrite)
    (workspaceId validAt updatedAt : String) : ContinuityStateRow where
  userId := write.userId
  workspaceId := workspaceId
  projectKey := write.projectKey
  projectId := write.projectId
  defaultNamespaceId := write.defaultNamespaceId
  fields := write.fields
  sourceEvidenceRefs := (write.sourceEvidenceRefs.getD (.arr .nil)).stringify
  confidence := write.confidence
  sourceSessionIds := write.sourceSessionIds
  supportingSemioteIds := write.supportingSemioteIds
  validAt := validAt
  updatedAt := updatedAt
  version := none

/-- The first write of a row.  Where nothing is heard of the create, a row on the re-read is taken
for another writer's; no row, or no answer, raises the error of the create. -/
def createContinuityRow (userId workspaceId projectKey recordId : String) (row : ContinuityStateRow)
    (version : Int) (record : CasResult) : StateRoutine CasResult := do
  match ← Routine.attempt (StateQuery.create recordId row version) with
  | none =>
      match ← Routine.attempt
          (StateQuery.find (userId, canonicalizeWorkspaceId (some workspaceId), projectKey)) with
      | some (some raced) => return .mismatch raced.2 raced.1
      | _ => Routine.raise
  | some none => reportVersionMismatchFromReRead userId workspaceId projectKey 0 recordId
  | some (some _) => return record

/-- A later write, guarded by the version. -/
def updateContinuityRow (userId workspaceId projectKey recordId : String) (row : ContinuityStateRow)
    (expectedVersion version : Int) (record : CasResult) : StateRoutine CasResult := do
  match ← Routine.query (StateQuery.update recordId expectedVersion row version) with
  | none =>
      reportVersionMismatchFromReRead userId workspaceId projectKey expectedVersion recordId
  | some _ => return record

/-- `now` is the clock of the call. -/
def compareAndSwapProjectContinuityState (now : String) (write : ProjectContinuityStateWrite)
    (expectedVersion : Int) : StateRoutine CasResult := do
  let workspaceId := canonicalizeWorkspaceId (some write.workspaceId)
  let current ← findExistingContinuityVersionedRow write.userId workspaceId write.projectKey
  let recordId := (current.map (·.1)).getD
    (buildProjectContinuityStateRecordId fingerprint write.userId workspaceId write.projectKey)
  let currentVersion := (current.map (·.2)).getD 0
  if currentVersion ≠ expectedVersion then
    return .mismatch currentVersion recordId
  else
    let validAt := write.validAt.getD now
    let updatedAt := write.updatedAt.getD now
    let version := currentVersion + 1
    let row := write.row workspaceId validAt updatedAt
    let record : CasResult :=
      .record recordId { write with workspaceId := workspaceId } version validAt updatedAt
    if current.isNone then
      createContinuityRow write.userId workspaceId write.projectKey recordId row version record
    else
      updateContinuityRow write.userId workspaceId write.projectKey recordId row expectedVersion
        version record

end

end Runir
