import Runir.Domain.Identity
import Runir.Lib.OrdMap
import Runir.Lib.Shared

/-!
# Continuity — Session rows

`resolveRunirSession` of `src/storage/surreal/runir-session-store.ts` and `runSessionIdleJanitorStep`
of `src/lifecycle/semion/session-janitor.ts`, query by query.  Dates are instants, in milliseconds.

* `RunirSessionRow`, `SessionQuery`: the table and what is asked of it.
* `resolveRunirSession`, `runSessionIdleJanitorStep`: the calls.
-/

namespace Runir
open Shared

inductive RunirSessionStatus where
  | active | idle | stale | closed
  deriving DecidableEq

inductive ProjectIdentitySource where
  | explicit | git | pathFallback | absent
  deriving DecidableEq

structure ResolveRunirSessionInput where
  userId : String
  projectKey : Option String := none
  projectIdentitySource : Option ProjectIdentitySource := none
  clientKind : Option String := none
  nativeSessionId : Option String := none
  nativeSessionKey : Option String := none
  workspacePath : Option String := none
  workspaceFingerprint : Option String := none
  hostId : Option String := none
  deviceLabel : Option String := none
  status : Option RunirSessionStatus := none
  closedAt : Option Int := none
  closeReason : Option String := none
  /-- The date it is given, or the clock. -/
  now : Int

/-- A row of `runir_session`, but for its id. -/
structure RunirSessionRow where
  userId : String
  projectKey : Option String
  projectIdentitySource : ProjectIdentitySource
  clientKind : Option String
  nativeSessionId : Option String
  nativeSessionKey : Option String
  nativeSessionAliases : List String
  workspacePath : Option String
  workspaceFingerprint : Option String
  hostId : Option String
  deviceLabel : Option String
  status : RunirSessionStatus
  openedAt : Int
  lastSeenAt : Int
  closedAt : Option Int
  closeReason : Option String
  lastClosedAt : Option Int
  resolverKey : String
  deriving DecidableEq

structure RunirSessionRecord extends RunirSessionRow where
  id : String
  deriving DecidableEq

abbrev SessionTable := OrdMap String RunirSessionRow

/-! ### Queries -/

/-- What the update of a session sets; a `lastClosedAt` of `none` is left out of the statement. -/
structure SessionUpdate where
  lastSeenAt : Int
  status : RunirSessionStatus
  closedAt : Option Int
  closeReason : Option String
  lastClosedAt : Option Int
  nativeSessionAliases : List String
  nativeSessionId : Option String
  nativeSessionKey : Option String
  workspacePath : Option String
  workspaceFingerprint : Option String
  hostId : Option String
  deviceLabel : Option String

/-- `IF last_closed_at == NONE OR t > last_closed_at THEN t ELSE last_closed_at END`. -/
def advanceClose (lastClosedAt : Option Int) (t : Int) : Option Int :=
  match lastClosedAt with
  | none => some t
  | some last => if last < t then some t else some last

def SessionUpdate.apply (u : SessionUpdate) (row : RunirSessionRow) : RunirSessionRow :=
  { row with
    lastSeenAt := u.lastSeenAt
    status := u.status
    closedAt := u.closedAt
    closeReason := u.closeReason
    lastClosedAt :=
      match u.lastClosedAt with
      | none => row.lastClosedAt
      | some t => advanceClose row.lastClosedAt t
    nativeSessionAliases := u.nativeSessionAliases
    nativeSessionId := u.nativeSessionId
    nativeSessionKey := u.nativeSessionKey
    workspacePath := u.workspacePath
    workspaceFingerprint := u.workspaceFingerprint
    hostId := u.hostId
    deviceLabel := u.deviceLabel }

/-- The rows the janitor closes. -/
def RunirSessionRow.idleSince (userId : String) (cutoff : Int) (row : RunirSessionRow) : Bool :=
  row.userId = userId ∧ row.status = .active ∧ row.lastSeenAt < cutoff

def RunirSessionRow.closeIdle (row : RunirSessionRow) : RunirSessionRow :=
  { row with
    status := .closed
    closedAt := some row.lastSeenAt
    closeReason := some "idle_timeout"
    lastClosedAt := advanceClose row.lastClosedAt row.lastSeenAt }

inductive SessionQuery where
  | find (id : String)
  | update (id : String) (u : SessionUpdate)
  | upsert (id : String) (row : RunirSessionRow)
  | countIdle (userId : String) (cutoff gapLookbackCutoff : Int)
  | closeIdle (userId : String) (cutoff : Int)

/-- An update answers with the `last_closed_at` of the row after it. -/
abbrev SessionQuery.Reply : SessionQuery → Type
  | .find _ => Option RunirSessionRow
  | .update _ _ => Option (Option Int)
  | .upsert _ _ => Unit
  | .countIdle _ _ _ => Nat × Nat
  | .closeIdle _ _ => Unit

/-- The queries.  `UPSERT` writes the whole row, over one that is there or not. -/
def SessionTable.perform (_ : Nat) : (q : SessionQuery) → SessionTable → SessionTable × Option q.Reply
  | .find id, s => (s, some (s.get? id))
  | .update id u, s =>
      match s.get? id with
      | none => (s, some none)
      | some row => (s.set id (u.apply row), some (some (u.apply row).lastClosedAt))
  | .upsert id row, s => (s.set id row, some ())
  | .countIdle userId cutoff gapLookbackCutoff, s =>
      let idle := s.values.filter (·.idleSince userId cutoff)
      (s, some (idle.length, (idle.filter fun row => gapLookbackCutoff < row.lastSeenAt).length))
  | .closeIdle userId cutoff, s =>
      (s.mapValues fun row => if row.idleSince userId cutoff then row.closeIdle else row, some ())

/-! ### The calls -/

abbrev SessionRoutine := Routine SessionQuery SessionQuery.Reply

/-- Back slashes become slashes, and trailing ones go. -/
def normalizePath (path : Option String) : Option String :=
  (normalizeToken path).map fun trimmed => String.ofList
    ((trimmed.toList.map fun c => if c = Char.ofNat 92 then '/' else c).rdropWhile (· = '/'))

/-- The tokens of an input. -/
structure SessionTokens where
  workspacePath : Option String
  workspaceFingerprint : Option String
  clientKind : Option String
  nativeSessionId : Option String
  nativeSessionKey : Option String
  hostId : Option String
  deviceLabel : Option String

section
variable (fingerprint : String → String)

def ResolveRunirSessionInput.tokens (input : ResolveRunirSessionInput) : SessionTokens :=
  let workspacePath := normalizePath input.workspacePath
  let clientKind := normalizeToken input.clientKind
  let nativeSessionId := normalizeToken input.nativeSessionId
  { workspacePath := workspacePath
    workspaceFingerprint := (normalizeToken input.workspaceFingerprint).or
      ((workspacePath.filter Text.truthy).map fingerprint)
    clientKind := clientKind
    nativeSessionId := nativeSessionId
    nativeSessionKey := (normalizeToken input.nativeSessionKey).or
      (nativeSessionId.map fun id => clientKind.getD "unknown" ++ "::" ++ id)
    hostId := normalizeToken input.hostId
    deviceLabel := normalizeToken input.deviceLabel }

def ResolveRunirSessionInput.resolverKey (input : ResolveRunirSessionInput) : String :=
  let tokens := input.tokens fingerprint
  buildRunirSessionResolverKey fingerprint
    { userId := input.userId
      projectKey := input.projectKey
      clientKind := tokens.clientKind
      nativeSessionKey := tokens.nativeSessionKey
      workspaceFingerprint := tokens.workspaceFingerprint
      hostId := tokens.hostId }

def ResolveRunirSessionInput.recordId (input : ResolveRunirSessionInput) : String :=
  "runir_session_" ++ input.resolverKey fingerprint

/-- The aliases a call writes over the ones it has read. -/
def extendAliases (aliases : List String) (nativeSessionId : Option String) : List String :=
  distinct (aliases ++ nativeSessionId.toList)

/-- The update of a session that was found. -/
def ResolveRunirSessionInput.update (input : ResolveRunirSessionInput) (existing : RunirSessionRow) :
    SessionUpdate :=
  let tokens := input.tokens fingerprint
  let nextStatus := input.status.getD existing.status
  let nextClosedAt := if nextStatus = .closed then some (input.closedAt.getD input.now) else none
  { lastSeenAt := input.now
    status := nextStatus
    closedAt := nextClosedAt
    closeReason :=
      if nextStatus = .closed then (normalizeToken input.closeReason).or existing.closeReason else none
    lastClosedAt := nextClosedAt
    nativeSessionAliases := extendAliases existing.nativeSessionAliases tokens.nativeSessionId
    nativeSessionId := tokens.nativeSessionId.or existing.nativeSessionId
    nativeSessionKey := tokens.nativeSessionKey.or existing.nativeSessionKey
    workspacePath := tokens.workspacePath.or existing.workspacePath
    workspaceFingerprint := tokens.workspaceFingerprint.or existing.workspaceFingerprint
    hostId := tokens.hostId.or existing.hostId
    deviceLabel := tokens.deviceLabel.or existing.deviceLabel }

/-- The row of a session that was not found. -/
def ResolveRunirSessionInput.newRow (input : ResolveRunirSessionInput) : RunirSessionRow :=
  let tokens := input.tokens fingerprint
  let closedAt := if input.status = some .closed then some (input.closedAt.getD input.now) else none
  { userId := input.userId
    projectKey := normalizeToken input.projectKey
    projectIdentitySource := input.projectIdentitySource.getD .absent
    clientKind := tokens.clientKind
    nativeSessionId := tokens.nativeSessionId
    nativeSessionKey := tokens.nativeSessionKey
    nativeSessionAliases := tokens.nativeSessionId.toList
    workspacePath := tokens.workspacePath
    workspaceFingerprint := tokens.workspaceFingerprint
    hostId := tokens.hostId
    deviceLabel := tokens.deviceLabel
    status := input.status.getD .active
    openedAt := input.now
    lastSeenAt := input.now
    closedAt := closedAt
    closeReason := if input.status = some .closed then normalizeToken input.closeReason else none
    lastClosedAt := closedAt
    resolverKey := input.resolverKey fingerprint }

def resolveRunirSession (input : ResolveRunirSessionInput) : SessionRoutine RunirSessionRecord := do
  let id := input.recordId fingerprint
  match ← Routine.query (SessionQuery.find id) with
  | some existing =>
      let u := input.update fingerprint existing
      let updated ← Routine.query (SessionQuery.update id u)
      return { u.apply existing with id := id, lastClosedAt := updated.join }
  | none =>
      let session := input.newRow fingerprint
      let _ ← Routine.query (SessionQuery.upsert id session)
      return { session with id := id }

end

def msOfHours (hours : ℚ) : ℚ := hours * 3600000

/-- `now` is the clock of the step; the hours come from the environment. -/
def runSessionIdleJanitorStep (now : Int) (idleH gapLookbackH : ℚ) (userId : String) :
    SessionRoutine (Nat × Bool) := do
  if idleH = 0 then
    return (0, true)
  else
    let cutoff := ⌊(now : ℚ) - msOfHours idleH⌋
    let gapLookbackCutoff := ⌊(now : ℚ) - msOfHours gapLookbackH⌋
    let preflight ← Routine.query (SessionQuery.countIdle userId cutoff gapLookbackCutoff)
    if preflight.1 = 0 then
      return (0, false)
    else
      let _ ← Routine.query (SessionQuery.closeIdle userId cutoff)
      return (preflight.1, false)

/-- A call in flight. -/
inductive SessionCall where
  | resolve (input : ResolveRunirSessionInput)
  | janitor (now : Int) (idleH gapLookbackH : ℚ) (userId : String)

/-- The session a call resolves; a step of the janitor has none. -/
def SessionCall.routine (fingerprint : String → String) : SessionCall →
    SessionRoutine (Option RunirSessionRecord)
  | .resolve input => do return some (← resolveRunirSession fingerprint input)
  | .janitor now idleH gapLookbackH userId => do
      let _ ← runSessionIdleJanitorStep now idleH gapLookbackH userId
      return none

end Runir
