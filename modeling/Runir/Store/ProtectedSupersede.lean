import Runir.Lib.Json
import Runir.Overlay.Merge
import Runir.Store.Supersede
import Runir.Store.SupersedeLineage

/-!
# Store — Protected supersede

`supersedeMemoryWithProcessingLineage` of `src/storage/surreal/memory-crud-store.ts`: what it reads,
the transaction it composes, and how it tells from a later reading whether that has committed.

* `supersedeMetadata`: the projection of a row, a value for each `SnapshotField`.
* `protectedSupersedePreflight`: what is read and joined before the transaction.
* `protectedSupersedeTransaction`: its statements; none where it is rolled back.
* `protectedSupersedeExpectedState`, `supersedeOutcome`: the reconciliation.

How the driver prints a record id, `recordJson`, is given.
-/

namespace Runir

/-! ### Metadata values -/

/-- A value of the projection, as the driver answers with it. -/
inductive MetadataValue where
  | absent
  | plain (v : Value)
  | date (ms : Int)
  | record (id : String)
  deriving DecidableEq

namespace MetadataValue

def ofOption : Option Value → MetadataValue
  | none => .absent
  | some v => .plain v

def text (s : String) : MetadataValue := .plain (.str s)

def ofText (s : Option String) : MetadataValue := ofOption (s.map .str)

end MetadataValue

section
variable (host : Host) (recordJson : String → String)

mutual

/-- `JSON.stringify` with the properties of every object in order of their names. -/
def Host.canonicalJson : Value → String
  | .null => "null"
  | .bool b => if b then "true" else "false"
  | .num q => host.numberToString q
  | .big n => toString n
  | .str s => String.ofList (Json.printString s)
  | .arr xs => "[" ++ Text.join "," (Host.canonicalElements xs) ++ "]"
  | .obj fs =>
      let members := (Host.canonicalMembers fs).insertionSort fun a b =>
        host.localeCompare a.1 b.1 ≠ .gt
      "\x7b" ++ Text.join "," (members.map fun m => String.ofList (Json.printString m.1) ++ ":" ++ m.2) ++
        "\x7d"

def Host.canonicalElements : Values → List String
  | .nil => []
  | .cons x xs => Host.canonicalJson x :: Host.canonicalElements xs

def Host.canonicalMembers : Fields → List (String × String)
  | .nil => []
  | .cons k x fs => (k, Host.canonicalJson x) :: Host.canonicalMembers fs

end

/-- The text of an object without an id; `String(value)` where it holds a bigint. -/
def Host.canonicalObject (v : Value) : String :=
  if v.printable then host.canonicalJson v else host.stringOf v

def canonicalMetadataValue : MetadataValue → String
  | .absent => "<NONE>"
  | .plain .null => "<NULL>"
  | .plain (.str s) => s
  | .plain (.obj fs) =>
      match fs.get? "id" with
      | some id => "<record:" ++ host.stringOf id ++ ">"
      | none => host.canonicalObject (.obj fs)
  | .plain (.arr xs) => host.canonicalObject (.arr xs)
  | .plain v => host.stringOf v
  | .date ms => Date.toISOString ms
  | .record id => recordJson id

/-- The id of a value that has one. -/
def MetadataValue.id? : MetadataValue → Option String
  | .plain (.obj fs) => (fs.get? "id").map host.stringOf
  | .record id => some id
  | _ => none

/-- `extractId(left) === extractId(right)`, of an object with an id and a text. -/
def sameRecord (left right : MetadataValue) : Bool :=
  match left.id? host, right with
  | some id, .plain (.str s) => id = stripTable s
  | _, _ => false

def sameMetadataValue (left right : MetadataValue) : Bool :=
  canonicalMetadataValue host recordJson left = canonicalMetadataValue host recordJson right ||
    sameRecord host left right || sameRecord host right left

end

/-! ### Snapshots -/

/-- The columns of the projection. -/
inductive SnapshotField where
  | id | userId | payloadUserId | processingLineage | active | supersedes | supersededBy
  | lineageRootId | inactiveAt | inactiveReason | supersedeProvenance | updatedAt | payloadActive
  | payloadInactiveAt | payloadInactiveReason | payloadSupersededById | payloadSupersedesId
  | payloadLineageRootId | payloadSupersedeProvenance | payloadUpdatedAt | payloadWriteSource
  | payloadArbitrationOutcome | payloadIsStale | payloadStaleSince | payloadContradictedBy
  deriving DecidableEq

def SnapshotField.all : List SnapshotField :=
  [.id, .userId, .payloadUserId, .processingLineage, .active, .supersedes, .supersededBy,
    .lineageRootId, .inactiveAt, .inactiveReason, .supersedeProvenance, .updatedAt, .payloadActive,
    .payloadInactiveAt, .payloadInactiveReason, .payloadSupersededById, .payloadSupersedesId,
    .payloadLineageRootId, .payloadSupersedeProvenance, .payloadUpdatedAt, .payloadWriteSource,
    .payloadArbitrationOutcome, .payloadIsStale, .payloadStaleSince, .payloadContradictedBy]

theorem SnapshotField.mem_all (f : SnapshotField) : f ∈ SnapshotField.all := by
  cases f <;> decide

abbrev SupersedeMetadataSnapshot := SnapshotField → MetadataValue

/-- A property of the payload, in the projection. -/
def MemoryRow.payloadValue (row : MemoryRow) (k : String) : MetadataValue :=
  .ofOption (row.payload.get? k)

/-- `supersedeMetadataSelect`, of the row of an id. -/
def supersedeMetadata (id : String) (row : MemoryRow) : SupersedeMetadataSnapshot
  | .id => .record id
  | .userId => .ofText row.userId
  | .payloadUserId => row.payloadValue "userId"
  | .processingLineage => .ofOption row.processingLineage
  | .active => .ofOption (row.active.map .bool)
  | .supersedes => .ofText row.supersedes
  | .supersededBy => .ofText row.supersededBy
  | .lineageRootId => .ofText row.lineageRootId
  | .inactiveAt => .ofText row.inactiveAt
  | .inactiveReason => .ofText row.inactiveReason
  | .supersedeProvenance => .ofText (row.supersedeProvenance.map (·.text))
  | .updatedAt => .date row.updatedAt
  | .payloadActive => row.payloadValue "active"
  | .payloadInactiveAt => row.payloadValue "inactiveAt"
  | .payloadInactiveReason => row.payloadValue "inactiveReason"
  | .payloadSupersededById => row.payloadValue "supersededById"
  | .payloadSupersedesId => row.payloadValue "supersedesId"
  | .payloadLineageRootId => row.payloadValue "lineageRootId"
  | .payloadSupersedeProvenance => row.payloadValue "supersede_provenance"
  | .payloadUpdatedAt => row.payloadValue "updatedAt"
  | .payloadWriteSource => row.payloadValue "writeSource"
  | .payloadArbitrationOutcome => row.payloadValue "arbitrationOutcome"
  | .payloadIsStale => row.payloadValue "isStale"
  | .payloadStaleSince => row.payloadValue "staleSince"
  | .payloadContradictedBy => row.payloadValue "contradictedBy"

def readSupersedeMetadata (rows : Rows) (recordId : String) : Option SupersedeMetadataSnapshot :=
  (rows.get? recordId).map (supersedeMetadata recordId)

/-- `sameSupersedeBranchWhere`: the row is the one the snapshot was taken of, unchanged. -/
def sameSupersedeBranch (snapshot : SupersedeMetadataSnapshot) (id : String) (row : MemoryRow) :
    Bool :=
  SnapshotField.all.all fun f => f = .id || supersedeMetadata id row f = snapshot f

def sameSupersedeSnapshot (host : Host) (recordJson : String → String) :
    Option SupersedeMetadataSnapshot → Option SupersedeMetadataSnapshot → Bool
  | none, none => true
  | some left, some right =>
      SnapshotField.all.all fun f => sameMetadataValue host recordJson (left f) (right f)
  | _, _ => false

/-! ### Preflight -/

structure ProtectedMemorySupersedeInput where
  previousId : String
  replacement : SupersedeReplacement
  supersedeProvenance : SupersedeProvenance
  inactiveReason : Option String := none
  previousStaleFlags : Option StaleFlags := none

/-- `input.inactiveReason ?? "superseded"`. -/
def ProtectedMemorySupersedeInput.reason (input : ProtectedMemorySupersedeInput) : String :=
  input.inactiveReason.getD "superseded"

structure ProtectedSupersedePreflight where
  previous : SupersedeMetadataSnapshot
  replacement : Option SupersedeMetadataSnapshot
  mergedProcessingLineage : ProcessingLineageV1
  lineageRootId : String

/-- What the call throws before its transaction. -/
inductive ProtectedSupersedeError where
  | lineageInvalid
  | targetUserMismatch
  | emptyText
  | notVerified
  deriving DecidableEq

/-- A row the caller's user owns, or none. -/
def ownSnapshot (snapshot : Option SupersedeMetadataSnapshot) (targetUserId : String) : Bool :=
  snapshot.all fun s => s .userId = .text targetUserId

/-- What a stored lineage is read as. -/
def storedLineage (snapshot : SupersedeMetadataSnapshot) : Option Value :=
  match snapshot .processingLineage with
  | .plain v => some v
  | _ => none

/-- The checks of the arguments and the preflight callback.  The mint gives the incoming lineage and
the target user; each of the three readings finds a table of its own. -/
def protectedSupersedePreflight (incomingLineage : ProcessingLineageV1) (targetUserId : String)
    (guardFailed : Option String) (guardRows previousRows replacementRows : Rows)
    (input : ProtectedMemorySupersedeInput) :
    Except ProtectedSupersedeError ProtectedSupersedePreflight :=
  let r := input.replacement
  if r.id = input.previousId ∨ r.scope = .global then .error .lineageInvalid
  else if Text.trim r.text = "" then .error .emptyText
  else if r.userId ≠ targetUserId then .error .targetUserMismatch
  else if wouldCreateCycle guardFailed guardRows r.id input.previousId r.userId then
    .error .lineageInvalid
  else
    match readSupersedeMetadata previousRows input.previousId with
    | none => .error .lineageInvalid
    | some previous =>
        if previous .userId ≠ .text targetUserId ∨ previous .active ≠ .plain (.bool true) then
          .error .lineageInvalid
        else
          let replacementRow := readSupersedeMetadata replacementRows r.id
          if ownSnapshot replacementRow targetUserId = false then .error .lineageInvalid
          else
            match classifyAndJoinSupersedeLineage incomingLineage
                ((previous :: replacementRow.toList).map storedLineage) with
            | .error .lineageInvalid => .error .lineageInvalid
            | .error .notVerified => .error .notVerified
            | .ok mergedProcessingLineage =>
                .ok
                  { previous := previous
                    replacement := replacementRow
                    mergedProcessingLineage := mergedProcessingLineage
                    lineageRootId :=
                      match previous .lineageRootId with
                      | .plain (.str root) => root
                      | _ => input.previousId }

/-! ### The transaction -/

section
variable (host : Host) (now : Int)

/-- The payload of `composeMemoryRecord` for a writer with protected lineage: the writer's own
arguments are put back over the caller's metadata. -/
def composeProtectedPayload (text userId : String) (metadata : Option Metadata)
    (scope : MemoryScope) (sessionId : Option String) (lifecycle : MemoryLifecycleState) :
    OrdMap String Value :=
  let payload := (spread (basePayload now text userId scope sessionId lifecycle)
      (metadata.getD .empty)).erase "processing_lineage"
    |> setProp "l2" (some (.str text))
    |> setProp "userId" (some (.str userId))
    |> setProp "createdAt" (some (.str (Date.toISOString now)))
    |> setProp "updatedAt" (some (.str (Date.toISOString now)))
    |> setProp "source" (some (.str "memory-hybrid"))
    |> setProp "scope" (some (.str scope.text))
    |> setProp "sessionId" (sessionId.map .str)
    |> setProp "active" (some (.bool lifecycle.active))
    |> setProp "inactiveAt" (lifecycle.inactiveAt.map .str)
    |> setProp "inactiveReason" (lifecycle.inactiveReason.map .str)
    |> setProp "supersededById" (lifecycle.supersededById.map .str)
    |> setProp "supersedesId" (lifecycle.supersedesId.map .str)
    |> setProp "lineageRootId" (lifecycle.lineageRootId.map .str)
  if payload.get? "pinnedAt" = some .null then payload.erase "pinnedAt" else payload

/-- `composeProtectedCreateMemory`.  The columns that are read from the payload are read from
properties the writer does not put back. -/
def composeProtectedCreateMemory (text userId : String) (embedding : List ℚ)
    (metadata : Option Metadata) (scope : MemoryScope) (sessionId : Option String)
    (lifecycle : MemoryLifecycleState) (lineage : ProcessingLineageV1) : MemoryRow :=
  { composeMemoryRecord host now text userId embedding metadata scope sessionId lifecycle none with
    payload := composeProtectedPayload now text userId metadata scope sessionId lifecycle
    processingLineage := some lineage.toValue }

variable (input : ProtectedMemorySupersedeInput) (preflight : ProtectedSupersedePreflight)

/-- The metadata of a created replacement: the caller's, under the supersede stamps. -/
def protectedMetadata : Metadata :=
  spread (input.replacement.metadata.getD .empty)
    (.ofList [("writeSource", .str input.replacement.writeSource),
      ("arbitrationOutcome", .str "supersede"),
      ("supersede_provenance", .str input.supersedeProvenance.text)])

/-- The row of a replacement that is created, after its bookkeeping. -/
def createdReplacement : MemoryRow :=
  let r := input.replacement
  { composeProtectedCreateMemory host now r.text r.userId r.embedding
      (some (protectedMetadata input)) r.scope r.sessionId
      { active := true
        supersedesId := some input.previousId
        lineageRootId := some preflight.lineageRootId } preflight.mergedProcessingLineage with
    supersedeProvenance := some input.supersedeProvenance }

/-- The `SET` list on an existing replacement. -/
def setProtectedReplacement (row : MemoryRow) : MemoryRow :=
  { row with
    processingLineage := some preflight.mergedProcessingLineage.toValue
    supersedes := some input.previousId
    lineageRootId := some preflight.lineageRootId
    supersedeProvenance := some input.supersedeProvenance
    updatedAt := now
    payload := row.payload
      |> setProp "supersedesId" (some (.str input.previousId))
      |> setProp "lineageRootId" (some (.str preflight.lineageRootId))
      |> setProp "updatedAt" (some (.str (Date.toISOString now)))
      |> setProp "writeSource" (some (.str input.replacement.writeSource))
      |> setProp "arbitrationOutcome" (some (.str "supersede"))
      |> setProp "supersede_provenance" (some (.str input.supersedeProvenance.text)) }

/-- The `SET` list on the previous row. -/
def setProtectedPrevious (row : MemoryRow) : MemoryRow :=
  { row with
    processingLineage := some preflight.mergedProcessingLineage.toValue
    active := some false
    inactiveAt := some (Date.toISOString now)
    inactiveReason := some input.reason
    supersededBy := some input.replacement.id
    lineageRootId := some preflight.lineageRootId
    supersedeProvenance := some input.supersedeProvenance
    payload := setStale input.previousStaleFlags (row.payload
      |> setProp "active" (some (.bool false))
      |> setProp "inactiveAt" (some (.str (Date.toISOString now)))
      |> setProp "inactiveReason" (some (.str input.reason))
      |> setProp "supersededById" (some (.str input.replacement.id))
      |> setProp "lineageRootId" (some (.str preflight.lineageRootId))
      |> setProp "supersede_provenance" (some (.str input.supersedeProvenance.text))
      |> setProp "updatedAt" (some (.str (Date.toISOString now))))
    updatedAt := now }

/-- The statements on the replacement; none where they throw. -/
def writeReplacement (rows : Rows) : Option Rows :=
  let id := input.replacement.id
  match preflight.replacement, rows.get? id with
  | some snapshot, some row =>
      if sameSupersedeBranch snapshot id row then
        some (rows.set id (setProtectedReplacement now input preflight row))
      else none
  | none, none => some (rows.set id (createdReplacement host now input preflight))
  | _, _ => none

/-- The statement on the previous row. -/
def writePrevious (rows : Rows) : Option Rows :=
  match rows.get? input.previousId with
  | none => none
  | some row =>
      if sameSupersedeBranch preflight.previous input.previousId row then
        some (rows.set input.previousId (setProtectedPrevious now input preflight row))
      else none

def protectedSupersedeTransaction (rows : Rows) : Option Rows :=
  (writeReplacement host now input preflight rows).bind (writePrevious now input preflight)

/-! ### Reconciliation -/

/-- `expected.previous` of `protectedSupersedeExpectedState`. -/
def expectedPrevious : SupersedeMetadataSnapshot
  | .processingLineage => .plain preflight.mergedProcessingLineage.toValue
  | .active => .plain (.bool false)
  | .supersededBy => .text input.replacement.id
  | .lineageRootId => .text preflight.lineageRootId
  | .inactiveAt => .text (Date.toISOString now)
  | .inactiveReason => .text input.reason
  | .supersedeProvenance => .text input.supersedeProvenance.text
  | .updatedAt => .text (Date.toISOString now)
  | .payloadActive => .plain (.bool false)
  | .payloadInactiveAt => .text (Date.toISOString now)
  | .payloadInactiveReason => .text input.reason
  | .payloadSupersededById => .text input.replacement.id
  | .payloadLineageRootId => .text preflight.lineageRootId
  | .payloadSupersedeProvenance => .text input.supersedeProvenance.text
  | .payloadUpdatedAt => .text (Date.toISOString now)
  | .payloadIsStale =>
      match input.previousStaleFlags with
      | some _ => .plain (.bool true)
      | none => preflight.previous .payloadIsStale
  | .payloadStaleSince =>
      match input.previousStaleFlags with
      | some flags => .text flags.staleSince
      | none => preflight.previous .payloadStaleSince
  | .payloadContradictedBy =>
      match input.previousStaleFlags with
      | some flags => .text flags.contradictedBy
      | none => preflight.previous .payloadContradictedBy
  | f => preflight.previous f

/-- `expected.replacement`, of a replacement that is there. -/
def expectedExisting (replacement : SupersedeMetadataSnapshot) : SupersedeMetadataSnapshot
  | .processingLineage => .plain preflight.mergedProcessingLineage.toValue
  | .supersedes => .text input.previousId
  | .lineageRootId => .text preflight.lineageRootId
  | .supersedeProvenance => .text input.supersedeProvenance.text
  | .updatedAt => .text (Date.toISOString now)
  | .payloadSupersedesId => .text input.previousId
  | .payloadLineageRootId => .text preflight.lineageRootId
  | .payloadUpdatedAt => .text (Date.toISOString now)
  | .payloadWriteSource => .text input.replacement.writeSource
  | .payloadArbitrationOutcome => .text "supersede"
  | .payloadSupersedeProvenance => .text input.supersedeProvenance.text
  | f => replacement f

/-- The same of one that is created. -/
def expectedCreated : SupersedeMetadataSnapshot
  | .id => .text input.replacement.id
  | .userId => .text input.replacement.userId
  | .payloadUserId => .text input.replacement.userId
  | .processingLineage => .plain preflight.mergedProcessingLineage.toValue
  | .active => .plain (.bool true)
  | .supersedes => .text input.previousId
  | .lineageRootId => .text preflight.lineageRootId
  | .supersedeProvenance => .text input.supersedeProvenance.text
  | .updatedAt => .text (Date.toISOString now)
  | .payloadActive => .plain (.bool true)
  | .payloadSupersedesId => .text input.previousId
  | .payloadLineageRootId => .text preflight.lineageRootId
  | .payloadSupersedeProvenance => .text input.supersedeProvenance.text
  | .payloadUpdatedAt => .text (Date.toISOString now)
  | .payloadWriteSource => .text input.replacement.writeSource
  | .payloadArbitrationOutcome => .text "supersede"
  | .supersededBy | .inactiveAt | .inactiveReason | .payloadInactiveAt | .payloadInactiveReason
  | .payloadSupersededById | .payloadIsStale | .payloadStaleSince | .payloadContradictedBy => .absent

structure ExpectedState where
  previous : SupersedeMetadataSnapshot
  replacement : SupersedeMetadataSnapshot

def protectedSupersedeExpectedState : ExpectedState where
  previous := expectedPrevious now input preflight
  replacement :=
    match preflight.replacement with
    | some replacement => expectedExisting now input preflight replacement
    | none => expectedCreated now input preflight

inductive SupersedeOutcome where
  | committed | rolledBack | inconsistentOrUnresolved
  deriving DecidableEq

def supersedeOutcome (recordJson : String → String)
    (previous replacement : Option SupersedeMetadataSnapshot) : SupersedeOutcome :=
  let expected := protectedSupersedeExpectedState now input preflight
  if sameSupersedeSnapshot host recordJson previous (some expected.previous) &&
      sameSupersedeSnapshot host recordJson replacement (some expected.replacement) then .committed
  else
    let previousRolledBack := sameSupersedeSnapshot host recordJson previous (some preflight.previous)
    let replacementRolledBack :=
      if input.replacement.id = input.previousId then false
      else
        match preflight.replacement with
        | none => replacement.isNone
        | some snapshot => sameSupersedeSnapshot host recordJson replacement (some snapshot)
    if previousRolledBack && replacementRolledBack then .rolledBack
    else .inconsistentOrUnresolved

end

end Runir
