import Runir.Overlay.Lifecycle
import Runir.Writes.Resolve

/-!
# Store — Rows

The memory table of `src/storage/surreal/memory-crud-store.ts`: its rows and the writers and
readers that touch one row at a time.

* `composeMemoryRecord`, `upsertMemory`: a row written whole.
* `updateMemoryText`: the merge of a new text into a row.
* `findSimilarMemories`, `getMemoryLineage`: what arbitration and lineage read.

The table is a map from record ids to rows.  A column set to `NONE` is absent; an own property
whose value is `undefined` counts as absent too.
-/

namespace Runir

inductive SupersedeProvenance where
  | deterministic | llmGenerated
  deriving DecidableEq

def SupersedeProvenance.text : SupersedeProvenance → String
  | .deterministic => "deterministic"
  | .llmGenerated => "llm-generated"

/-- `MemoryLifecycleState`. -/
structure MemoryLifecycleState where
  active : Bool
  inactiveAt : Option String := none
  inactiveReason : Option String := none
  supersededById : Option String := none
  supersedesId : Option String := none
  lineageRootId : Option String := none
  deriving DecidableEq

/-- A row of the memory table. -/
structure MemoryRow where
  embedding : Option (List ℚ)
  payload : OrdMap String Value
  textNorm : String
  createdAt : Int
  updatedAt : Int
  userId : Option String
  scope : Option String
  sessionId : Option String
  path : Option String
  memoryRole : Option String
  validAt : Option String
  invalidAt : Option String
  confidence : Option ℚ
  active : Option Bool
  inactiveAt : Option String
  inactiveReason : Option String
  supersededBy : Option String
  supersedes : Option String
  lineageRootId : Option String
  processingLineage : Option Value
  supersedeProvenance : Option SupersedeProvenance
  archived : Option Bool := none
  deriving DecidableEq

abbrev Rows := OrdMap String MemoryRow

/-- What a writer may throw. -/
inductive StoreError where
  | emptyText
  | lineagePresent
  | lineageInvalid
  | invalidInput (label : String)
  | globalScope
  | previousMismatch
  | replacementUserMismatch
  | cycle (replacementId previousId : String)
  | planUserMismatch
  | rowsOverlap
  | noPlans
  | targetExistenceMismatch
  | targetMetadataMismatch
  | groupedPayload (key what : String)
  | guardFailed (which : String)
  deriving DecidableEq

/-- `payload.userId`. -/
def MemoryRow.payloadUserId (row : MemoryRow) : Option String :=
  (row.payload.get? "userId").bind Value.str?

def embeddingForStore (embedding : List ℚ) : Option (List ℚ) :=
  if 0 < embedding.length then some embedding else none

/-- A property that is written only when it has a value. -/
def optionalProp (k : String) (v : Option String) : List (String × Value) :=
  match v with
  | none => []
  | some s => [(k, .str s)]

/-- `{...base, ...over}`. -/
def spread (base front : OrdMap String Value) : OrdMap String Value :=
  front.entries.foldl (fun m e => m.set e.1 e.2) base

/-- `{...base, ...over}` reads `over` first. -/
theorem get?_spread (base front : OrdMap String Value) (k : String) :
    (spread base front).get? k = (front.get? k).or (base.get? k) :=
  OrdMap.get?_foldl_set_entries front.nodup base k

section
variable (host : Host)

/-- The payload of `composeMemoryRecord` before the caller's metadata. -/
def basePayload (now : Int) (text userId : String) (scope : MemoryScope)
    (sessionId : Option String) (lifecycle : MemoryLifecycleState) : OrdMap String Value :=
  .ofList ([("l2", .str text), ("userId", .str userId), ("createdAt", .str (Date.toISOString now)),
      ("updatedAt", .str (Date.toISOString now)), ("source", .str "memory-hybrid"),
      ("scope", .str scope.text)] ++ optionalProp "sessionId" sessionId ++
    [("active", .bool lifecycle.active)] ++ optionalProp "inactiveAt" lifecycle.inactiveAt ++
    optionalProp "inactiveReason" lifecycle.inactiveReason ++
    optionalProp "supersededById" lifecycle.supersededById ++
    optionalProp "supersedesId" lifecycle.supersedesId ++
    optionalProp "lineageRootId" lifecycle.lineageRootId)

theorem find_optionalProp (k k' : String) (v : Option String) :
    OrdMap.find k (optionalProp k' v) = if k' = k then v.map .str else none := by
  cases v with
  | none => simp [optionalProp, OrdMap.find]
  | some s => rfl

theorem optionalProp_keys (k : String) (v : Option String) :
    List.Sublist ((optionalProp k v).map Prod.fst) [k] := by
  cases v with
  | none => exact List.nil_sublist _
  | some s => exact List.Sublist.refl _

/-- The defaults have distinct keys, so each is found where it is listed. -/
theorem get?_basePayload (now : Int) (text userId : String) (scope : MemoryScope)
    (sessionId : Option String) (lifecycle : MemoryLifecycleState) (k : String) :
    (basePayload now text userId scope sessionId lifecycle).get? k =
      OrdMap.find k ([("l2", .str text), ("userId", .str userId),
          ("createdAt", .str (Date.toISOString now)), ("updatedAt", .str (Date.toISOString now)),
          ("source", .str "memory-hybrid"), ("scope", .str scope.text)] ++
        optionalProp "sessionId" sessionId ++
        [("active", .bool lifecycle.active)] ++ optionalProp "inactiveAt" lifecycle.inactiveAt ++
        optionalProp "inactiveReason" lifecycle.inactiveReason ++
        optionalProp "supersededById" lifecycle.supersededById ++
        optionalProp "supersedesId" lifecycle.supersedesId ++
        optionalProp "lineageRootId" lifecycle.lineageRootId) := by
  have hkeys : (["l2", "userId", "createdAt", "updatedAt", "source", "scope"] ++ ["sessionId"] ++
      ["active"] ++ ["inactiveAt"] ++ ["inactiveReason"] ++ ["supersededById"] ++
      ["supersedesId"] ++ ["lineageRootId"]).Nodup := by decide
  refine OrdMap.get?_ofList_of_nodup ?_ k
  simp only [List.map_append]
  refine List.Nodup.sublist ?_ hkeys
  exact (((((((List.Sublist.refl _).append (optionalProp_keys _ _)).append (List.Sublist.refl _)).append
    (optionalProp_keys _ _)).append (optionalProp_keys _ _)).append
    (optionalProp_keys _ _)).append (optionalProp_keys _ _)).append (optionalProp_keys _ _)

/-- The payload of `composeMemoryRecord`: the caller's metadata wins over the defaults, cannot
place lineage, and leaves no empty `pinnedAt`. -/
def composePayload (now : Int) (text userId : String) (metadata : Option Metadata)
    (scope : MemoryScope) (sessionId : Option String) (lifecycle : MemoryLifecycleState) :
    OrdMap String Value :=
  let payload := (spread (basePayload now text userId scope sessionId lifecycle)
    (metadata.getD .empty)).erase "processing_lineage"
  if payload.get? "pinnedAt" = some .null then payload.erase "pinnedAt" else payload

/-- The payload reads the caller first, and drops two properties. -/
theorem get?_composePayload (now : Int) (text userId : String) (metadata : Option Metadata)
    (scope : MemoryScope) (sessionId : Option String) (lifecycle : MemoryLifecycleState)
    (k : String) :
    (composePayload now text userId metadata scope sessionId lifecycle).get? k =
      (((metadata.getD .empty).get? k).or
        ((basePayload now text userId scope sessionId lifecycle).get? k)).filter fun v =>
          k ≠ "processing_lineage" && !(k = "pinnedAt" && v = .null) := by
  unfold composePayload
  simp only
  rw [← get?_spread]
  generalize spread _ _ = payload
  by_cases hlineage : k = "processing_lineage"
  · subst hlineage
    have hnone : (payload.erase "processing_lineage").get? "processing_lineage" = none := by
      rw [OrdMap.get?_erase, if_pos rfl]
    split
    · rw [OrdMap.get?_erase, hnone]
      cases payload.get? "processing_lineage" <;> simp [Option.filter]
    · rw [hnone]
      cases payload.get? "processing_lineage" <;> simp [Option.filter]
  · have hkeep : (payload.erase "processing_lineage").get? k = payload.get? k := by
      rw [OrdMap.get?_erase, if_neg hlineage]
    split
    · next hnull =>
        rw [OrdMap.get?_erase, hkeep]
        by_cases hpinned : k = "pinnedAt"
        · subst hpinned
          rw [hkeep] at hnull
          simp [hnull, Option.filter]
        · cases payload.get? k <;> simp [Option.filter, hpinned, hlineage]
    · next hnull =>
        rw [hkeep]
        by_cases hpinned : k = "pinnedAt"
        · subst hpinned
          rw [hkeep] at hnull
          cases hv : payload.get? "pinnedAt" with
          | none => rfl
          | some v =>
              rw [hv] at hnull
              have hv' : v ≠ .null := fun h => hnull (congrArg some h)
              simp [Option.filter, hv']
        · cases payload.get? k <;> simp [Option.filter, hpinned, hlineage]

/-- The row of `composeMemoryRecord` for a writer without protected lineage. -/
def composeMemoryRecord (now : Int) (text userId : String) (embedding : List ℚ)
    (metadata : Option Metadata) (scope : MemoryScope) (sessionId : Option String)
    (lifecycle : MemoryLifecycleState) (provenance : Option SupersedeProvenance) : MemoryRow :=
  let payload := composePayload now text userId metadata scope sessionId lifecycle
  { embedding := embeddingForStore embedding
    payload := payload
    textNorm := Text.trim (host.unicode.toLowerCase text)
    createdAt := now
    updatedAt := now
    userId := some userId
    scope := some scope.text
    sessionId := sessionId
    path := (payload.get? "path").bind Value.str?
    memoryRole := (payload.get? "memoryRole").bind Value.str?
    validAt := (payload.get? "validAt").bind Value.str?
    invalidAt := (payload.get? "invalidAt").bind Value.str?
    confidence := (payload.get? "confidence").bind fun v =>
      match v with
      | .num q => some q
      | _ => none
    active := some lifecycle.active
    inactiveAt := lifecycle.inactiveAt
    inactiveReason := lifecycle.inactiveReason
    supersededBy := lifecycle.supersededById
    supersedes := lifecycle.supersedesId
    lineageRootId := lifecycle.lineageRootId
    processingLineage := none
    supersedeProvenance := provenance }

def upsertMemory (now : Int) (id text userId : String) (embedding : List ℚ)
    (metadata : Option Metadata) (scope : MemoryScope) (sessionId : Option String)
    (lifecycle : MemoryLifecycleState) (rows : Rows) : Except StoreError Rows :=
  if Text.trim text = "" then .error .emptyText
  else if ((rows.get? id).bind (·.processingLineage)).isSome then .error .lineagePresent
  else
    .ok (rows.set id
      (composeMemoryRecord host now text userId embedding metadata scope sessionId lifecycle none))

/-- The continuity properties a merge takes from the incoming metadata. -/
structure ContinuityMetadata where
  memoryRole : Option String := none
  validAt : Option String := none
  continuitySubjectKey : Option String := none

/-- `payload.k = v`, where an absent value removes the property. -/
def setProp (k : String) (v : Option Value) (payload : OrdMap String Value) :
    OrdMap String Value :=
  match v with
  | none => payload.erase k
  | some v => payload.set k v

theorem get?_setProp (k : String) (v : Option Value) (payload : OrdMap String Value)
    (k₀ : String) :
    (setProp k v payload).get? k₀ = if k₀ = k then v else payload.get? k₀ := by
  cases v with
  | none => exact OrdMap.get?_erase payload k k₀
  | some v => exact OrdMap.get?_set payload k k₀ v

/-- The `SET` list of `updateMemoryText`. -/
def mergeText (now : Int) (newText : String) (embedding : List ℚ) (writeSource : Value)
    (action : AtomicFactAction) (continuity : ContinuityMetadata) (row : MemoryRow) : MemoryRow :=
  let payload := row.payload
    |> setProp "l2" (some (.str newText))
    |> setProp "updatedAt" (some (.str (Date.toISOString now)))
    |> setProp "writeSource" (some writeSource)
    |> setProp "arbitrationOutcome" (some (.str "merge-update"))
    |> setProp "active" (some (.bool true))
    |> setProp "inactiveAt" none
    |> setProp "inactiveReason" none
    |> setProp "invalidAt" none
    |> setProp "memoryRole" (continuity.memoryRole.map .str)
    |> setProp "validAt" (continuity.validAt.map .str)
    |> setProp "continuitySubjectKey" (continuity.continuitySubjectKey.map .str)
  { row with
    embedding := embeddingForStore embedding
    payload := if action = .clear then setProp "atomicFact" none payload else payload
    textNorm := Text.trim (host.unicode.toLowerCase newText)
    active := some true
    inactiveAt := none
    inactiveReason := none
    invalidAt := none
    memoryRole := continuity.memoryRole
    validAt := continuity.validAt
    updatedAt := now }

def updateMemoryText (now : Int) (id newText : String) (embedding : List ℚ) (writeSource : Value)
    (action : AtomicFactAction) (continuity : ContinuityMetadata) (rows : Rows) :
    Except StoreError Rows :=
  if Text.trim newText = "" then .error .emptyText
  else
    match rows.get? id with
    | none => .error .lineageInvalid
    | some row =>
        if row.processingLineage.isSome then .error .lineagePresent
        else .ok (rows.set id (mergeText host now newText embedding writeSource action continuity row))

/-! ### Reading -/

/-- `ACTIVE_MEMORY_FILTER`. -/
def MemoryRow.isCurrent (row : MemoryRow) : Bool := row.active ≠ some false

/-- A property of the payload that may be any value. -/
def MemoryRow.prop? (row : MemoryRow) (k : String) : Option Value := row.payload.get? k

def MemoryRow.propStr? (row : MemoryRow) (k : String) : Option String :=
  (row.payload.get? k).bind Value.str?

/-- The text of a row: `payload.l2 ?? payload.data ?? ""`. -/
def MemoryRow.text (row : MemoryRow) : String :=
  ((row.propStr? "l2").or (row.propStr? "data")).getD ""

def scopeAdmits (scope : Option MemoryScope) (sessionId : Option String) (row : MemoryRow) : Bool :=
  match scope with
  | some .session => row.scope = some "session" && row.sessionId = sessionId
  | some .user => row.scope = none || row.scope = some "user"
  | some .global => row.scope = some "global"
  | _ => true

def toSimilarCandidate (id : String) (similarity : ℚ) (row : MemoryRow) : SimilarCandidate where
  id := id
  l2 := row.text
  similarity := similarity
  createdAt := (row.propStr? "createdAt").getD (Date.toISOString row.createdAt)
  updatedAt := some ((row.propStr? "updatedAt").getD (Date.toISOString row.updatedAt))
  validAt := row.validAt.or (row.propStr? "validAt")
  lineageRootId := row.lineageRootId.or (row.propStr? "lineageRootId")
  continuitySubjectKey := row.prop? "continuitySubjectKey"
  tags := (row.prop? "tags").bind Value.strings?
  tier := row.propStr? "tier"
  factKey := row.prop? "factKey"
  noemaClaimKey := row.prop? "noemaClaimKey"
  atomicFact := row.prop? "atomicFact"

/-- `cosine` is the database's `vector::similarity::cosine`. -/
def findSimilarMemories (cosine : List ℚ → List ℚ → ℚ) (nowMs : Int) (userId : String)
    (embedding : List ℚ) (windowHours : ℚ) (limit : Nat) (scope : Option MemoryScope)
    (sessionId : Option String) (rows : Rows) : List SimilarCandidate :=
  let cutoff : ℚ := nowMs - windowHours * 3600 * 1000
  let hits := rows.entries.filterMap fun (id, row) =>
    match row.embedding with
    | none => none
    | some stored =>
        if row.payloadUserId = some userId ∧ row.processingLineage = none ∧ row.isCurrent ∧
            (cutoff < row.updatedAt ∨ cutoff < row.createdAt) ∧
            scopeAdmits scope sessionId row then
          some (toSimilarCandidate id (cosine stored embedding) row)
        else none
  (hits.insertionSort fun a b => b.similarity ≤ a.similarity).take limit

/-- The lineage root a row belongs to: its own id when none is recorded. -/
def lineageRootOf (id : String) (row : MemoryRow) : String := row.lineageRootId.getD id

/-- The ids `getMemoryLineage` returns, oldest first. -/
def getMemoryLineage (rows : Rows) (id userId : String) : List String :=
  match rows.get? id with
  | none => []
  | some seed =>
      if seed.payloadUserId ≠ some userId then []
      else
        let root := lineageRootOf id seed
        let chain := rows.entries.filter fun (id', row) =>
          row.payloadUserId = some userId && (row.lineageRootId = some root || id' = root)
        (chain.insertionSort fun a b => a.2.createdAt ≤ b.2.createdAt).map Prod.fst

end

end Runir
