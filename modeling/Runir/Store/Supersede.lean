import Runir.Store.Rows

/-!
# Store — Supersede

The generic supersede of `src/storage/surreal/memory-crud-store.ts` with the guard of
`src/lifecycle/semion/dag-guard.ts`, against a production database client.

* `prepareSupersedeMemory` reads both rows and the cycle guard, and freezes a plan.
* `composePreparedSupersedeBatch` turns plans into the statements of one transaction.
* `supersedeMemory` prepares one plan, composes it and runs it.

A row witness (every column, by digest) is the row itself; the transaction commits all of its
statements or none, at one reading of the database clock, which payloads hold as the text the
database prints.  The model is of one table of one
database.
-/

namespace Runir

/-! ### The cycle guard -/

/-- The `supersedes` of a row its user can see; `none` when there is no such row. -/
def visibleSupersedes (rows : Rows) (userId id : String) : Option (Option String) :=
  match rows.get? id with
  | none => none
  | some row => if row.payloadUserId = some userId then some row.supersedes else none

/-- `CORRUPTION_CEILING`. -/
def corruptionCeiling : Nat := 50

/-- The loop of `wouldCreateCycle` from `currentId`.  The ceiling is met before `fuel` runs out. -/
def cycleWalk (next : String → Option (Option String)) (newMemoryId : String) :
    Nat → List String → String → Bool
  | 0, _, _ => true
  | fuel + 1, visited, currentId =>
      if currentId = newMemoryId then true
      else if currentId ∈ visited then true
      else if corruptionCeiling ≤ (currentId :: visited).length then true
      else
        match next currentId with
        | none => false
        | some none => false
        | some (some nextId) =>
            if nextId = newMemoryId then true
            else cycleWalk next newMemoryId fuel (currentId :: visited) nextId

/-- What the query of one hop answers: nothing at the id where it throws. -/
def guardQuery (failed : Option String) (rows : Rows) (userId id : String) :
    Option (Option String) :=
  if failed = some id then none else visibleSupersedes rows userId id

/-- `failed` is the id at which the walk's query throws, if one does: the guard then lets the
write through, as it does at an id it cannot find. -/
def wouldCreateCycle (failed : Option String) (rows : Rows) (newMemoryId targetId userId : String) :
    Bool :=
  cycleWalk (guardQuery failed rows userId) newMemoryId corruptionCeiling [] targetId

/-! ### Plans -/

structure SupersedeReplacement where
  id : String
  text : String
  userId : String
  embedding : List ℚ
  metadata : Option Metadata := none
  scope : MemoryScope := .user
  sessionId : Option String := none
  writeSource : String := "memory_store"
  deriving DecidableEq

structure StaleFlags where
  staleSince : String
  contradictedBy : String
  deriving DecidableEq

/-- The arguments of `supersedeMemory`; of the previous candidate it reads the id and the root. -/
structure SupersedeInput where
  previousId : String
  previousLineageRootId : Option String := none
  replacement : SupersedeReplacement
  provenance : SupersedeProvenance := .deterministic
  isInternalCaller : Bool := false
  inactiveReason : String := "superseded"
  previousStaleFlags : Option StaleFlags := none
  deriving DecidableEq

/-- A prepared plan, with the rows it was prepared on as witnesses. -/
structure PreparedSupersede where
  userId : String
  previousId : String
  replacement : SupersedeReplacement
  previousRow : MemoryRow
  replacementRow : Option MemoryRow
  provenance : SupersedeProvenance
  inactiveReason : String
  previousStaleFlags : Option StaleFlags
  lineageRootId : String

/-- The row belongs to the user, in its column and in its payload. -/
def MemoryRow.ownedBy (row : MemoryRow) (userId : String) : Bool :=
  row.userId = some userId && row.payloadUserId = some userId

/-- `validateGenericPreparedInputs`, on the checks the types leave open. -/
def validateGenericPreparedInputs (input : SupersedeInput) : Except StoreError Unit :=
  let r := input.replacement
  let nonEmpty := fun (label s : String) =>
    if s = "" then Except.error (StoreError.invalidInput label) else .ok ()
  do
    nonEmpty "previous id" input.previousId
    nonEmpty "replacement id" r.id
    nonEmpty "replacement user id" r.userId
    nonEmpty "previous lineage root id" (input.previousLineageRootId.getD "absent")
    nonEmpty "replacement text" r.text
    nonEmpty "replacement session id" (r.sessionId.getD "absent")
    if r.writeSource ∈ ["memory_store", "agent_end", "session_summary"] then .ok ()
    else .error (.invalidInput "unsupported replacement write source")
    nonEmpty "inactive reason" input.inactiveReason
    nonEmpty "staleSince" ((input.previousStaleFlags.map (·.staleSince)).getD "absent")
    nonEmpty "contradictedBy" ((input.previousStaleFlags.map (·.contradictedBy)).getD "absent")

def prepareSupersedeMemory (failed : Option String) (rows : Rows) (input : SupersedeInput) :
    Except StoreError PreparedSupersede :=
  let r := input.replacement
  if r.scope = .global ∧ input.isInternalCaller = false then .error .globalScope
  else
    match validateGenericPreparedInputs input with
    | .error e => .error e
    | .ok () =>
        match rows.get? input.previousId with
        | none => .error .previousMismatch
        | some previousRow =>
            let replacementRow := rows.get? r.id
            if previousRow.ownedBy r.userId = false then .error .previousMismatch
            else if previousRow.processingLineage.isSome ∨
                (replacementRow.bind (·.processingLineage)).isSome then .error .lineagePresent
            else if replacementRow.any (fun row => !row.ownedBy r.userId) then
              .error .replacementUserMismatch
            else if wouldCreateCycle failed rows r.id input.previousId r.userId then
              .error (.cycle r.id input.previousId)
            else
              .ok
                { userId := r.userId
                  previousId := input.previousId
                  replacement := r
                  previousRow := previousRow
                  replacementRow := replacementRow
                  provenance := input.provenance
                  inactiveReason := input.inactiveReason
                  previousStaleFlags := input.previousStaleFlags
                  lineageRootId := input.previousLineageRootId.getD input.previousId }

/-! ### Statements -/

/-- The `SET` list on an existing replacement row. -/
def setTarget (host : Host) (now : Int) (p : PreparedSupersede) (row : MemoryRow) : MemoryRow :=
  { row with
    supersedes := some p.previousId
    lineageRootId := some p.lineageRootId
    updatedAt := now
    payload := row.payload
      |> setProp "supersedesId" (some (.str p.previousId))
      |> setProp "lineageRootId" (some (.str p.lineageRootId))
      |> setProp "updatedAt" (some (.str (host.datetimeString now)))
      |> setProp "writeSource" (some (.str p.replacement.writeSource))
      |> setProp "arbitrationOutcome" (some (.str "supersede"))
      |> setProp "supersede_provenance" (some (.str p.provenance.text))
    supersedeProvenance := some p.provenance }

/-- The stale flags of the previous row, when the plan has any. -/
def setStale (flags : Option StaleFlags) (payload : OrdMap String Value) : OrdMap String Value :=
  match flags with
  | none => payload
  | some f => payload
      |> setProp "isStale" (some (.bool true))
      |> setProp "staleSince" (some (.str f.staleSince))
      |> setProp "contradictedBy" (some (.str f.contradictedBy))

/-- The `SET` list on the previous row. -/
def setPrevious (host : Host) (now : Int) (p : PreparedSupersede) (row : MemoryRow) : MemoryRow :=
  { row with
    active := some false
    inactiveAt := some (host.datetimeString now)
    inactiveReason := some p.inactiveReason
    supersededBy := some p.replacement.id
    lineageRootId := some p.lineageRootId
    supersedeProvenance := some p.provenance
    payload := setStale p.previousStaleFlags (row.payload
      |> setProp "active" (some (.bool false))
      |> setProp "inactiveAt" (some (.str (host.datetimeString now)))
      |> setProp "inactiveReason" (some (.str p.inactiveReason))
      |> setProp "supersededById" (some (.str p.replacement.id))
      |> setProp "lineageRootId" (some (.str p.lineageRootId))
      |> setProp "supersede_provenance" (some (.str p.provenance.text))
      |> setProp "updatedAt" (some (.str (host.datetimeString now))))
    updatedAt := now }

/-- The metadata of a created replacement: the caller's, under the supersede stamps. -/
def createMetadata (first last : PreparedSupersede) : Metadata :=
  spread (first.replacement.metadata.getD .empty)
    (.ofList [("writeSource", .str last.replacement.writeSource),
      ("arbitrationOutcome", .str "supersede"),
      ("supersede_provenance", .str last.provenance.text)])

/-- The clocks a created payload takes from the transaction: those the caller does not give, and
`updatedAt` where several plans share the row. -/
def clockOverlay (host : Host) (now : Int) (metadata : Metadata) (shared : Bool)
    (payload : OrdMap String Value) : OrdMap String Value :=
  let payload :=
    if (metadata.get? "createdAt").isNone then
      setProp "createdAt" (some (.str (host.datetimeString now))) payload
    else payload
  if shared || (metadata.get? "updatedAt").isNone then
    setProp "updatedAt" (some (.str (host.datetimeString now))) payload
  else payload

theorem get?_clockOverlay (host : Host) (now : Int) (metadata : Metadata) (shared : Bool)
    (payload : OrdMap String Value) {k : String} (hcreated : k ≠ "createdAt")
    (hupdated : k ≠ "updatedAt") :
    (clockOverlay host now metadata shared payload).get? k = payload.get? k := by
  unfold clockOverlay
  simp only
  split_ifs
  · rw [get?_setProp, if_neg hupdated, get?_setProp, if_neg hcreated]
  · rw [get?_setProp, if_neg hupdated]
  · rw [get?_setProp, if_neg hcreated]
  · rfl

/-- A created replacement: the content of the first plan, the links of the last. -/
def createdRow (host : Host) (now : Int) (first last : PreparedSupersede) (shared : Bool) :
    MemoryRow :=
  let row := composeMemoryRecord host now first.replacement.text first.replacement.userId
    first.replacement.embedding (some (createMetadata first last)) first.replacement.scope
    first.replacement.sessionId
    { active := true, supersedesId := some last.previousId,
      lineageRootId := some last.lineageRootId }
    (some last.provenance)
  { row with
    payload :=
      clockOverlay host now (first.replacement.metadata.getD .empty) shared row.payload }

inductive Statement where
  | guardRow (which id : String) (witness : MemoryRow)
  | guardAbsent (id : String)
  | setTarget (witness : MemoryRow) (last : PreparedSupersede)
  | create (first last : PreparedSupersede) (shared : Bool)
  | setPrevious (p : PreparedSupersede)

/-- An update of the row that still equals its witness, and of no other. -/
def updateWhere (which id : String) (witness : MemoryRow) (f : MemoryRow → MemoryRow)
    (rows : Rows) : Except StoreError Rows :=
  if rows.get? id = some witness then .ok (rows.set id (f witness))
  else .error (.guardFailed which)

def Statement.run (host : Host) (now : Int) (rows : Rows) : Statement → Except StoreError Rows
  | .guardRow which id witness =>
      if rows.get? id = some witness then .ok rows else .error (.guardFailed which)
  | .guardAbsent id =>
      if rows.get? id = none then .ok rows
      else .error (.guardFailed "initial target create-only")
  | .setTarget witness last =>
      updateWhere "replacement compare-and-set" last.replacement.id witness
        (Runir.setTarget host now last) rows
  | .create first last shared =>
      if rows.get? first.replacement.id = none then
        .ok (rows.set first.replacement.id (createdRow host now first last shared))
      else .error (.guardFailed "replacement create")
  | .setPrevious p =>
      updateWhere "previous compare-and-set" p.previousId p.previousRow (Runir.setPrevious host now p)
        rows

/-- `queryTransaction`: all statements or none. -/
def queryTransaction (host : Host) (now : Int) (statements : List Statement) (rows : Rows) :
    Except StoreError Rows :=
  statements.foldlM (fun rows statement => statement.run host now rows) rows

/-! ### Composition -/

/-- The plans with one target, in list order; never empty. -/
structure SupersedeGroup where
  first : PreparedSupersede
  rest : List PreparedSupersede

namespace SupersedeGroup

def states (g : SupersedeGroup) : List PreparedSupersede := g.first :: g.rest

def last (g : SupersedeGroup) : PreparedSupersede := g.rest.getLastD g.first

def targetId (g : SupersedeGroup) : String := g.first.replacement.id

def shared (g : SupersedeGroup) : Bool := g.rest ≠ []

end SupersedeGroup

/-- The groups in order of the first plan for each target. -/
def groupByTarget (states : List PreparedSupersede) : OrdMap String SupersedeGroup :=
  states.foldl
    (fun grouped state =>
      match grouped.get? state.replacement.id with
      | none => grouped.set state.replacement.id ⟨state, []⟩
      | some g => grouped.set state.replacement.id ⟨g.first, g.rest ++ [state]⟩)
    .empty

/-- `GROUPED_PAYLOAD_BOOLEAN_KEYS`. -/
def groupedPayloadBooleanKeys : List String := ["active", "isStale"]

/-- `GROUPED_PAYLOAD_STRING_KEYS`. -/
def groupedPayloadStringKeys : List String :=
  ["inactiveAt", "inactiveReason", "supersededById", "supersedesId", "lineageRootId",
   "supersede_provenance", "updatedAt", "writeSource", "arbitrationOutcome", "staleSince",
   "contradictedBy", "scope", "sessionId", "validAt", "invalidAt", "createdAt"]

/-- `validateGroupedCallerPayloadFact`: a fact the caller supplies has the expected kind. -/
def validateGroupedFact (isKind : Value → Bool) (kind : String) (metadata : Metadata)
    (key : String) : Except StoreError Unit :=
  match metadata.get? key with
  | none => .ok ()
  | some .null => .error (.groupedPayload key "has no scalar value")
  | some v => if isKind v then .ok () else .error (.groupedPayload key ("must be a " ++ kind))

def validateGroupedFreshPayloadEligibility (state : PreparedSupersede) (groupUserId : String) :
    Except StoreError Unit :=
  let metadata := state.replacement.metadata.getD .empty
  let isStr := fun v : Value => v.str?.isSome
  do
    validateGroupedFact isStr "string" metadata "userId"
    if (metadata.get? "userId").any (· ≠ .str groupUserId) then
      .error (.groupedPayload "userId" "mismatch")
    else if state.replacement.userId ≠ groupUserId then .error .planUserMismatch
    else .ok ()
    validateGroupedFact isStr "string" metadata "l2"
    groupedPayloadBooleanKeys.forM (validateGroupedFact (fun v => v.bool?.isSome) "boolean" metadata)
    groupedPayloadStringKeys.forM (validateGroupedFact isStr "string" metadata)

def validateGroup (userId : String) (g : SupersedeGroup) : Except StoreError Unit :=
  if g.rest.any fun s => s.replacementRow.isSome ≠ g.first.replacementRow.isSome then
    .error .targetExistenceMismatch
  else if g.rest.any fun s => s.replacementRow ≠ g.first.replacementRow then
    .error .targetMetadataMismatch
  else if g.first.replacementRow.isNone && g.shared then
    validateGroupedFreshPayloadEligibility g.first userId
  else .ok ()

def groupPreparedGenericSupersedes (userId : String) (states : List PreparedSupersede) :
    Except StoreError (List SupersedeGroup) :=
  if states.any fun s => s.userId ≠ userId then .error .planUserMismatch
  else if ¬(states.map (·.previousId)).Nodup then .error .rowsOverlap
  else if states.any fun s => s.previousId ∈ states.map (·.replacement.id) then
    .error .rowsOverlap
  else do
    let groups := (groupByTarget states).values
    groups.forM (validateGroup userId)
    .ok groups

/-- The guard on the target: unchanged, or still absent. -/
def targetGuard (p : PreparedSupersede) : Statement :=
  match p.replacementRow with
  | some row => .guardRow "initial target" p.replacement.id row
  | none => .guardAbsent p.replacement.id

def previousGuard (p : PreparedSupersede) : Statement :=
  .guardRow "initial previous" p.previousId p.previousRow

/-- The effect on the target; creating one composes its record, which needs a text. -/
def targetMutation (first last : PreparedSupersede) (shared : Bool) :
    Except StoreError Statement :=
  match first.replacementRow with
  | some row => .ok (.setTarget row last)
  | none =>
      if Text.trim first.replacement.text = "" then .error .emptyText
      else .ok (.create first last shared)

/-- The effects of one plan without a shared target. -/
def planMutation (p : PreparedSupersede) : Except StoreError (List Statement) := do
  let target ← targetMutation p p false
  .ok [target, .setPrevious p]

def groupGuards (g : SupersedeGroup) : List Statement :=
  g.states.map previousGuard ++ [targetGuard g.first]

def groupMutation (g : SupersedeGroup) : Except StoreError (List Statement) := do
  let target ← targetMutation g.first g.last g.shared
  .ok (target :: g.states.map .setPrevious)

/-- Every guard precedes every effect. -/
def composePreparedSupersedeBatch (userId : String) (plans : List PreparedSupersede) :
    Except StoreError (List Statement) :=
  if userId = "" then .error (.invalidInput "user id")
  else if plans = [] then .error .noPlans
  else do
    let groups ← groupPreparedGenericSupersedes userId plans
    if groups.any (·.shared) = false then do
      let mutations ← plans.mapM planMutation
      .ok ((plans.flatMap fun p => [previousGuard p, targetGuard p]) ++ mutations.flatten)
    else do
      let mutations ← groups.mapM groupMutation
      .ok (groups.flatMap groupGuards ++ mutations.flatten)

def supersedeMemory (host : Host) (now : Int) (failed : Option String) (input : SupersedeInput)
    (rows : Rows) : Except StoreError Rows := do
  let prepared ← prepareSupersedeMemory failed rows input
  let composed ← composePreparedSupersedeBatch input.replacement.userId [prepared]
  queryTransaction host now composed rows

end Runir
