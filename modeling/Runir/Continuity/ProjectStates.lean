import Runir.Domain.Continuity
import Runir.Domain.Identity
import Runir.Lib.OrdMap
import Runir.Lib.Shared

/-!
# Continuity — Project states

`src/storage/surreal/project-state-store.ts`, and the capture's warming of it in
`src/capture/continuity/project-state-warming.ts`, query by query.

* `ProjectStateRow`, `ProjectStateQuery`: the table and what is asked of it.
* `compareAndSwapProjectState`: the versioned write.
* `warmProjectState`: a capture reads the state, and writes it with its own facts.
* `getProjectStateForRecall`: a recall reads the state, and gives a row of its path its project key.
-/

namespace Runir
open Shared Regex

deriving instance DecidableEq for ContinuityDirective

/-! ### Rows -/

/-- What a project state says. -/
structure ProjectStateContent where
  currentFocus : Option String := none
  activeTicketIds : List String := []
  latestProgress : Option String := none
  blockers : List String := []
  nextSteps : List String := []
  directives : List ContinuityDirective := []
  sourceSessionId : Option String := none
  supportingMemoryIds : List String := []
  confidence : ℚ
  deriving DecidableEq

/-- `ProjectStateWrite`. -/
structure ProjectStateWrite where
  userId : String
  projectKey : Option String := none
  path : Option String := none
  content : ProjectStateContent
  updatedAt : Option String := none
  version : Option Int := none
  previousProjectStateId : Option String := none
  deriving DecidableEq

/-- A row of `project_state`, but for its id. -/
structure ProjectStateRow where
  userId : String
  projectKey : Option String
  path : Option String
  content : ProjectStateContent
  updatedAt : String
  version : Option Int
  previousProjectStateId : Option String
  deriving DecidableEq

structure ProjectStateRecord where
  id : String
  userId : String
  projectKey : Option String
  path : Option String
  content : ProjectStateContent
  updatedAt : String
  version : Int
  previousProjectStateId : Option String
  deriving DecidableEq

/-- `projectStateVersion`. -/
def projectStateVersion (version : Option Int) : Int := version.getD 1

def ProjectStateContent.normalized (content : ProjectStateContent) : ProjectStateContent :=
  { content with directives := normalizeContinuityDirectives content.directives }

/-- `mapProjectStateRow`. -/
def ProjectStateRow.record (id : String) (row : ProjectStateRow) : ProjectStateRecord where
  id := id
  userId := row.userId
  projectKey := row.projectKey
  path := row.path
  content := row.content.normalized
  updatedAt := row.updatedAt
  version := projectStateVersion row.version
  previousProjectStateId := row.previousProjectStateId

/-- The row a write stands for. -/
def ProjectStateWrite.row (state : ProjectStateWrite) (updatedAt : String) (version : Int)
    (previousProjectStateId : Option String) : ProjectStateRow where
  userId := state.userId
  projectKey := state.projectKey
  path := state.path
  content := state.content.normalized
  updatedAt := updatedAt
  version := some version
  previousProjectStateId := previousProjectStateId

def ProjectStateWrite.record (state : ProjectStateWrite) (id updatedAt : String) (version : Int)
    (previousProjectStateId : Option String) : ProjectStateRecord where
  id := id
  userId := state.userId
  projectKey := state.projectKey
  path := state.path
  content := state.content.normalized
  updatedAt := updatedAt
  version := version
  previousProjectStateId := previousProjectStateId

abbrev ProjectStateTable := OrdMap String ProjectStateRow

/-! ### Queries -/

/-- Two reads of one row differ in the columns they ask for. -/
inductive ProjectStateQuery where
  | idByKey (userId projectKey : String)
  | idByPath (userId path : String)
  | rowByKey (userId projectKey : String)
  | rowByPath (userId path : String)
  | rowById (id : String)
  | latest (userId : String)
  | create (id : String) (row : ProjectStateRow)
  | update (id : String) (expectedVersion : Int) (row : ProjectStateRow)
  | upsert (id : String) (row : ProjectStateRow)

/-- An update answers whether it found the row at the version. -/
abbrev ProjectStateQuery.Reply : ProjectStateQuery → Type
  | .idByKey _ _ => Option String
  | .idByPath _ _ => Option String
  | .rowByKey _ _ => Option (String × ProjectStateRow)
  | .rowByPath _ _ => Option (String × ProjectStateRow)
  | .rowById _ => Option (String × ProjectStateRow)
  | .latest _ => Option (String × ProjectStateRow)
  | .create _ _ => Unit
  | .update _ _ _ => Bool
  | .upsert _ _ => Unit

namespace ProjectStateTable

def byKey (userId projectKey : String) (s : ProjectStateTable) : Option (String × ProjectStateRow) :=
  s.entries.find? fun e => e.2.userId = userId ∧ e.2.projectKey = some projectKey

def byPath (userId path : String) (s : ProjectStateTable) : Option (String × ProjectStateRow) :=
  s.entries.find? fun e => e.2.userId = userId ∧ e.2.path = some path

/-- `ORDER BY updated_at DESC LIMIT 1`. -/
def latestOf (userId : String) (s : ProjectStateTable) : Option (String × ProjectStateRow) :=
  ((s.entries.filter fun e => e.2.userId = userId).insertionSort fun e e' =>
    e'.2.updatedAt ≤ e.2.updatedAt).head?

/-- A unique index has the key or the path of the row, in a row of another id. -/
def taken (id : String) (row : ProjectStateRow) (s : ProjectStateTable) : Bool :=
  s.entries.any fun e => e.1 ≠ id ∧ e.2.userId = row.userId ∧
    ((row.projectKey.isSome ∧ e.2.projectKey = row.projectKey) ∨
      (row.path.isSome ∧ e.2.path = row.path))

/-- The queries.  A write that a unique index forbids is refused, and so is a create of an id that is
taken. -/
def perform (_ : Nat) : (q : ProjectStateQuery) → ProjectStateTable →
    ProjectStateTable × Option q.Reply
  | .idByKey userId projectKey, s => (s, some ((s.byKey userId projectKey).map (·.1)))
  | .idByPath userId path, s => (s, some ((s.byPath userId path).map (·.1)))
  | .rowByKey userId projectKey, s => (s, some (s.byKey userId projectKey))
  | .rowByPath userId path, s => (s, some (s.byPath userId path))
  | .rowById id, s => (s, some ((s.get? id).map fun row => (id, row)))
  | .latest userId, s => (s, some (s.latestOf userId))
  | .create id row, s =>
      if (s.get? id).isSome || s.taken id row then (s, none) else (s.set id row, some ())
  | .update id expectedVersion row, s =>
      match s.get? id with
      | none => (s, some false)
      | some old =>
          if old.version = some expectedVersion ∨ (old.version = none ∧ expectedVersion = 1) then
            if s.taken id row then (s, none) else (s.set id row, some true)
          else (s, some false)
  | .upsert id row, s => if s.taken id row then (s, none) else (s.set id row, some ())

end ProjectStateTable

/-! ### The store -/

abbrev ProjectStateRoutine := Routine ProjectStateQuery ProjectStateQuery.Reply

section
variable (fingerprint : String → String)

/-- A row of a path, where a path is given. -/
def findByPath (userId : String) (path : Option String) :
    ProjectStateRoutine (Option (String × ProjectStateRow)) :=
  match path.filter Text.truthy with
  | none => return none
  | some path => Routine.query (ProjectStateQuery.rowByPath userId path)

/-- `findExistingProjectStateVersionedRow`. -/
def findExistingProjectStateVersionedRow (userId : String) (projectKey path : Option String) :
    ProjectStateRoutine (Option (String × ProjectStateRow)) := do
  match projectKey.filter Text.truthy with
  | none => findByPath userId path
  | some key =>
      match ← Routine.query (ProjectStateQuery.rowByKey userId key) with
      | some found => return some found
      | none => findByPath userId path

def findIdByPath (userId : String) (path : Option String) : ProjectStateRoutine (Option String) :=
  match path.filter Text.truthy with
  | none => return none
  | some path => Routine.query (ProjectStateQuery.idByPath userId path)

def findExistingProjectStateRecordId (userId : String) (projectKey path : Option String) :
    ProjectStateRoutine (Option String) := do
  match projectKey.filter Text.truthy with
  | none => findIdByPath userId path
  | some key =>
      match ← Routine.query (ProjectStateQuery.idByKey userId key) with
      | some id => return some id
      | none => findIdByPath userId path

/-- The record id of a project, or of the one row of a user without a project or a path. -/
def projectStateRecordId (userId : String) (projectKey path : Option String) : String :=
  buildProjectStateRecordId fingerprint userId projectKey path

/-- `now` is the clock of the call. -/
def upsertProjectState (now : String) (state : ProjectStateWrite) :
    ProjectStateRoutine ProjectStateRecord := do
  let existingRecordId ← findExistingProjectStateRecordId state.userId state.projectKey state.path
  let id := existingRecordId.getD
    (projectStateRecordId fingerprint state.userId state.projectKey state.path)
  let updatedAt := (state.updatedAt.filter Text.truthy).getD now
  let version := state.version.getD 1
  let _ ← Routine.query (ProjectStateQuery.upsert id
    (state.row updatedAt version state.previousProjectStateId))
  return state.record id updatedAt version state.previousProjectStateId

/-- What a swap answers. -/
inductive SwapResult where
  | swapped (record : ProjectStateRecord)
  | mismatch (currentVersion : Int) (recordId : String)

/-- The first write of a state.  A row that is found after the create raised is taken for another
writer's; where none is, the error is raised. -/
def createProjectState (state : ProjectStateWrite) (id updatedAt : String) (version : Int) :
    ProjectStateRoutine SwapResult := do
  match ← Routine.attempt (ProjectStateQuery.create id (state.row updatedAt version none)) with
  | some _ => return .swapped (state.record id updatedAt version none)
  | none =>
      match ← findExistingProjectStateVersionedRow state.userId state.projectKey state.path with
      | some raced => return .mismatch (projectStateVersion raced.2.version) raced.1
      | none => Routine.raise

/-- A later write, guarded by the version. -/
def updateProjectState (state : ProjectStateWrite) (id updatedAt : String)
    (expectedVersion currentVersion : Int) : ProjectStateRoutine SwapResult := do
  if ← Routine.query (ProjectStateQuery.update id expectedVersion
      (state.row updatedAt (currentVersion + 1) (some id))) then
    return .swapped (state.record id updatedAt (currentVersion + 1) (some id))
  else
    let latest ← findExistingProjectStateVersionedRow state.userId state.projectKey state.path
    return .mismatch ((latest.map fun e => projectStateVersion e.2.version).getD currentVersion)
      ((latest.map (·.1)).getD id)

def compareAndSwapProjectState (now : String) (state : ProjectStateWrite) (expectedVersion : Int) :
    ProjectStateRoutine SwapResult := do
  let current ← findExistingProjectStateVersionedRow state.userId state.projectKey state.path
  let recordId := (current.map (·.1)).getD
    (projectStateRecordId fingerprint state.userId state.projectKey state.path)
  let currentVersion := (current.map fun e => projectStateVersion e.2.version).getD 0
  if currentVersion ≠ expectedVersion then
    return .mismatch currentVersion recordId
  else
    let updatedAt := (state.updatedAt.filter Text.truthy).getD now
    if current.isNone then createProjectState state recordId updatedAt (currentVersion + 1)
    else updateProjectState state recordId updatedAt expectedVersion currentVersion

/-- The row of a user without a project, or else the one updated last. -/
def findPathless (userId : String) (projectKey : Option String) :
    ProjectStateRoutine (Option (String × ProjectStateRow)) := do
  match ← Routine.query (ProjectStateQuery.rowById
      (projectStateRecordId fingerprint userId projectKey none)) with
  | some found => return some found
  | none => Routine.query (ProjectStateQuery.latest userId)

/-- `getProjectState`, with the row it maps. -/
def getProjectState (userId : String) (path projectKey : Option String) :
    ProjectStateRoutine (Option (String × ProjectStateRow)) := do
  match projectKey.filter Text.truthy with
  | some key =>
      match ← Routine.query (ProjectStateQuery.rowByKey userId key) with
      | some found => return some found
      | none =>
          if path.any Text.truthy then findByPath userId path
          else findPathless fingerprint userId projectKey
  | none =>
      if path.any Text.truthy then findByPath userId path
      else findPathless fingerprint userId projectKey

/-- A record, to be written with another project key. -/
def ProjectStateRecord.withKey (record : ProjectStateRecord) (projectKey : String) :
    ProjectStateWrite where
  userId := record.userId
  projectKey := some projectKey
  path := record.path
  content := record.content
  updatedAt := some record.updatedAt
  version := some record.version
  previousProjectStateId := record.previousProjectStateId

/-- The state a recall is shown, and whether it is one of no path. -/
def getProjectStateForRecall (now : String) (userId : String) (path projectKey : Option String) :
    ProjectStateRoutine (Option ProjectStateRecord × Bool) := do
  if !path.any Text.truthy then
    let state ← getProjectState fingerprint userId none projectKey
    return (state.map fun e => e.2.record e.1, false)
  else
    match ← getProjectState fingerprint userId path projectKey with
    | some exact =>
        match projectKey.filter Text.truthy with
        | some key =>
            if exact.2.projectKey ≠ some key then
              let migrated ← upsertProjectState fingerprint now ((exact.2.record exact.1).withKey key)
              return (some migrated, false)
            else return (some (exact.2.record exact.1), false)
        | none => return (some (exact.2.record exact.1), false)
    | none =>
        let pathless ← getProjectState fingerprint userId none projectKey
        return (pathless.map fun e => e.2.record e.1, pathless.isSome)

end

/-! ### Warming -/

structure WarmingFact where
  text : String
  category : String
  confidence : ℚ
  outcome : String
  timestamp : String
  order : Option Int := none

/-- `\b(s₁|s₂|…)\b` under the `i` flag, for texts in lower case. -/
def wordAmong (words : List String) : Regex := seqs [bound, alts (words.map liti), bound]

/-- `FOCUS_PATTERNS`. -/
def focusPatterns : List Regex :=
  [ wordAmong ["working on", "building", "implementing", "debugging", "fixing", "migrating",
      "refactoring", "deploying"],
    wordAmong ["next step", "todo", "plan to", "need to", "will", "should"],
    wordAmong ["switched to", "switched from", "decided", "chose", "using", "adopted"] ]

/-- `PROGRESS_PATTERNS`. -/
def progressPatterns : List Regex :=
  [wordAmong ["completed", "finished", "done with", "shipped", "merged", "resolved"]]

def isStatusLikeSignal (text : String) : Bool :=
  (focusPatterns ++ progressPatterns).any fun p => Text.test p text

/-- `classifySignalType(text) === "progress"`; any other text is a focus. -/
def signalsProgress (text : String) : Bool := progressPatterns.any fun p => Text.test p text

def WarmingFact.isEligible (fact : WarmingFact) : Bool :=
  ["create", "merge-update", "supersede"].contains fact.outcome &&
    ["events", "cases"].contains fact.category && decide (3 / 4 ≤ fact.confidence) &&
    isStatusLikeSignal fact.text

section
variable (host : Host)

/-- The fact is not sorted after the other: it is later, or of a later place, or surer.  A date that
is none compares as equal. -/
def WarmingFact.notAfter (a b : WarmingFact) : Bool :=
  match host.dateParse a.timestamp, host.dateParse b.timestamp with
  | some ta, some tb =>
      if ta ≠ tb then decide (tb ≤ ta)
      else if a.order.getD 0 ≠ b.order.getD 0 then decide (b.order.getD 0 ≤ a.order.getD 0)
      else decide (b.confidence ≤ a.confidence)
  | _, _ => true

def pickBest (pool : List WarmingFact) : Option WarmingFact :=
  (pool.insertionSort fun a b => WarmingFact.notAfter host a b = true).head?

def newerThanExisting (timestamp : String) (existingUpdatedAt : Option String) : Bool :=
  match existingUpdatedAt.filter Text.truthy with
  | none => true
  | some updatedAt =>
      match host.dateParse timestamp, host.dateParse updatedAt with
      | none, _ => false
      | some _, none => true
      | some candidate, some existing => decide (existing ≤ candidate)

/-- The fact of a pool that is to be applied over a text. -/
def applicable (best : Option WarmingFact) (text existingUpdatedAt : Option String) :
    Option WarmingFact :=
  best.filter fun fact =>
    !text.any Text.truthy || newerThanExisting host fact.timestamp existingUpdatedAt

/-- The timestamp of the latest applied fact. -/
def latestTimestamp (facts : List WarmingFact) : Option String :=
  (facts.insertionSort fun a b =>
    (match host.dateParse a.timestamp, host.dateParse b.timestamp with
      | some ta, some tb => decide (tb ≤ ta)
      | _, _ => true) = true).head?.map (·.timestamp)

structure WarmProjectStateArgs where
  facts : List WarmingFact
  userId : String
  projectKey : Option String := none
  path : Option String := none
  sessionId : Option String := none

/-- `buildWarmedProjectState`; `now` is its clock. -/
def buildWarmedProjectState (now : String) (args : WarmProjectStateArgs)
    (existing : Option ProjectStateRecord) : Option ProjectStateWrite :=
  let eligible := args.facts.filter (·.isEligible)
  if eligible.isEmpty then none
  else
    let updatedAt := existing.map (·.updatedAt)
    let focus := existing.bind (·.content.currentFocus)
    let progress := existing.bind (·.content.latestProgress)
    let newFocus := applicable host
      (pickBest host (eligible.filter fun f => !signalsProgress f.text)) focus updatedAt
    let newProgress := applicable host
      (pickBest host (eligible.filter fun f => signalsProgress f.text)) progress updatedAt
    let appliedFacts := newFocus.toList ++ newProgress.toList
    let currentFocus := (newFocus.map (·.text)).or focus
    let latestProgress := (newProgress.map (·.text)).or progress
    if (currentFocus = focus ∧ latestProgress = progress) ∧ existing.isSome then none
    else some
      { userId := args.userId
        projectKey := args.projectKey.or (existing.bind (·.projectKey))
        path := args.path
        content :=
          { currentFocus := currentFocus
            activeTicketIds := (existing.map (·.content.activeTicketIds)).getD []
            latestProgress := latestProgress
            blockers := (existing.map (·.content.blockers)).getD []
            nextSteps := (existing.map (·.content.nextSteps)).getD []
            directives := (existing.map (·.content.directives)).getD []
            sourceSessionId := args.sessionId.or (existing.bind (·.content.sourceSessionId))
            supportingMemoryIds := (existing.map (·.content.supportingMemoryIds)).getD []
            confidence := (appliedFacts.map (·.confidence)).foldl max
              (max ((existing.map (·.content.confidence)).getD 0) 0) }
        updatedAt := some
          ((latestTimestamp host appliedFacts).getD (updatedAt.getD now))
        version := some ((existing.map (·.version)).getD 1)
        previousProjectStateId := existing.bind (·.previousProjectStateId) }

/-- The warming of a capture. -/
def warmProjectState (fingerprint : String → String) (now : String) (args : WarmProjectStateArgs) :
    ProjectStateRoutine Unit := do
  let existing ← getProjectState fingerprint args.userId args.path args.projectKey
  match buildWarmedProjectState host now args (existing.map fun e => e.2.record e.1) with
  | none => return ()
  | some state =>
      let _ ← upsertProjectState fingerprint now state
      return ()

end

/-! ### Calls -/

inductive ProjectStateCall where
  | swap (now : String) (state : ProjectStateWrite) (expectedVersion : Int)
  | warm (now : String) (args : WarmProjectStateArgs)
  | recall (now userId : String) (path projectKey : Option String)

inductive ProjectStateAnswer where
  | swap (result : SwapResult)
  | warm
  | recall (state : Option ProjectStateRecord) (usedPathFallback : Bool)

def ProjectStateCall.routine (host : Host) (fingerprint : String → String) : ProjectStateCall →
    ProjectStateRoutine ProjectStateAnswer
  | .swap now state expectedVersion => do
      return .swap (← compareAndSwapProjectState fingerprint now state expectedVersion)
  | .warm now args => do
      warmProjectState host fingerprint now args
      return .warm
  | .recall now userId path projectKey => do
      let answer ← getProjectStateForRecall fingerprint now userId path projectKey
      return .recall answer.1 answer.2

end Runir
