import Runir.Store.PromotionValues
import Runir.Store.ProtectedSupersede

/-!
# Store — Promotion readback

`promoteSemioteToNoema` of `src/storage/surreal/phase2-store.ts`: what it reads before its
transaction, what the transaction leaves, and how it tells from a later reading, where the
transaction has thrown, whether it has taken effect.

* `promotionPreflight`: the snapshots of the target, the source and the supports.
* `promotionTransaction`: the rows a transaction that takes effect leaves.
* `noemaPromotionOutcome`: the readback.

The text of the memory, which decides whether it comes to a transaction, and the columns no
snapshot holds are left out; the keys and the hash of the claim are given.
-/

namespace Runir

/-! ### Snapshots -/

/-- The properties of a payload that a promotion sets. -/
inductive PromotionMarker where
  | promotedToNoemaId | noemaSupportSemioteIds | noemaClaimKey | noemaRevisionHash | noemaStatus
  | noemaStableClaim
  deriving DecidableEq

/-- `NOEMA_PROMOTION_MARKER_FIELDS`. -/
def PromotionMarker.all : List PromotionMarker :=
  [.promotedToNoemaId, .noemaSupportSemioteIds, .noemaClaimKey, .noemaRevisionHash, .noemaStatus,
    .noemaStableClaim]

theorem PromotionMarker.mem_all (m : PromotionMarker) : m ∈ PromotionMarker.all := by
  cases m <;> decide

/-- A column of the projection of a memory. -/
inductive PromotionField where
  | snapshot (f : SnapshotField)
  | marker (m : PromotionMarker)
  deriving DecidableEq

/-- `NOEMA_PROMOTION_GUARDED_FIELDS`: all but the id and the lineage. -/
def guardedPromotionFields : List SnapshotField :=
  SnapshotField.all.filter fun f => f ≠ .id ∧ f ≠ .processingLineage

abbrev NoemaPromotionMetadata := PromotionField → PromotionValue

/-- The columns of the projection of a noema. -/
inductive TargetField where
  | id | userId | processingLineage | status | claimKey | revisionHash | supportSemioteIds | active
  | updatedAt
  deriving DecidableEq

abbrev NoemaPromotionTargetMetadata := TargetField → PromotionValue

/-- The noema of an id and the memories, as a reading of the tables projects them. -/
structure PromotionRows (noemaId : String) where
  target : Option NoemaPromotionTargetMetadata
  semiotes : String → Option NoemaPromotionMetadata
  target_id : ∀ row, target = some row → row .id = .record noemaId
  semiote_id : ∀ id row, semiotes id = some row → row (.snapshot .id) = .record id

/-- What a call has worked out of a memory. -/
structure PromotionCall where
  sourceId : String
  noemaId : String
  claimKey : String
  revisionHash : String
  status : String
  subject : String
  predicate : String
  value : String
  now : Int
  /-- Twenty-four digits of a hash. -/
  noemaId_plain : normalizeIdText noemaId = some noemaId

def PromotionCall.noemaRecordId (call : PromotionCall) : String := "noema:" ++ call.noemaId

def PromotionCall.stableClaim (call : PromotionCall) : PromotionValue :=
  .obj (.cons "subject" (.str call.subject) (.cons "predicate" (.str call.predicate)
    (.cons "value" (.str call.value) .nil)))

section
variable (driver : PromotionDriver)

def promotionOwnerUserId (metadata : NoemaPromotionMetadata) : Option String :=
  let topLevel := metadata (.snapshot .userId)
  let payload := metadata (.snapshot .payloadUserId)
  if topLevel ≠ .absent ∧ payload ≠ .absent ∧
      samePromotionMetadataValue driver topLevel payload = false then none
  else
    let candidate := if topLevel = .absent ∨ topLevel = .null then payload else topLevel
    (candidate.str?.map Text.trim).filter Text.truthy

def isPrinted (v : PromotionValue) : Bool := (canonicalPromotionMetadataValue driver v).isSome

def isWellFormedPromotionMetadata (metadata : NoemaPromotionMetadata) : Bool :=
  (promotionOwnerUserId driver metadata).isSome &&
    decide (metadata (.snapshot .processingLineage) = .absent) &&
    (normalizePromotionSourceId (metadata (.snapshot .id))).isSome &&
    (normalizePromotionSupportIds (metadata (.marker .noemaSupportSemioteIds))).isSome &&
    (guardedPromotionFields.all fun f => isPrinted driver (metadata (.snapshot f))) &&
    PromotionMarker.all.all fun m => isPrinted driver (metadata (.marker m))

def noemaPromotionStatuses : List String := ["active", "superseded", "conflicted", "rejected"]

/-- A value is absent, or as asked. -/
def absentOr (p : PromotionValue → Bool) (v : PromotionValue) : Bool := decide (v = .absent) || p v

def isWellFormedNoemaPromotionTarget (target : NoemaPromotionTargetMetadata) : Bool :=
  absentOr (fun v => v.str?.any noemaPromotionStatuses.contains) (target .status) &&
    absentOr (fun v => v.str?.isSome) (target .claimKey) &&
    absentOr (fun v => v.str?.isSome) (target .revisionHash) &&
    absentOr (fun v => v.arr?.any fun xs => xs.all fun x => x.str?.isSome)
      (target .supportSemioteIds) &&
    absentOr (fun v => decide (v = .bool true ∨ v = .bool false)) (target .active) &&
    absentOr (isPrinted driver) (target .updatedAt)

/-! ### Before the transaction -/

/-- What is read before the transaction. -/
structure PromotionPreflight where
  userId : String
  source : NoemaPromotionMetadata
  target : Option NoemaPromotionTargetMetadata
  supportIds : List String
  supports : List NoemaPromotionMetadata

variable {noemaId : String}

/-- `readNoemaPromotionSupportMetadata`, of one support. -/
def promotionSupport (userId : String) (rows : PromotionRows noemaId) (supportId : String) :
    Option NoemaPromotionMetadata :=
  (rows.semiotes supportId).filter fun metadata =>
    decide (normalizePromotionSourceId (metadata (.snapshot .id)) = some supportId) &&
      isWellFormedPromotionMetadata driver metadata &&
      decide (promotionOwnerUserId driver metadata = some userId)

/-- The supports a target has, where it may be reinforced. -/
def promotionTargetSupport (userId : String) (target : Option NoemaPromotionTargetMetadata) :
    Option (List String) :=
  match target with
  | none => some []
  | some target =>
      if target .processingLineage = .absent ∧ isWellFormedNoemaPromotionTarget driver target = true ∧
          samePromotionMetadataValue driver (target .userId) (.str userId) = true then
        normalizePromotionSupportIds (target .supportSemioteIds)
      else none

def promotionPreflight (call : PromotionCall) (rows : PromotionRows call.noemaId) :
    Option PromotionPreflight := do
  let source ← (rows.semiotes call.sourceId).filter (isWellFormedPromotionMetadata driver)
  let userId ← promotionOwnerUserId driver source
  let targetSupportSemioteIds ← promotionTargetSupport driver userId rows.target
  let sourceSupportSemioteIds := distinct (call.sourceId ::
    (normalizePromotionSupportIds (source (.marker .noemaSupportSemioteIds))).getD [])
  let supportIds := distinct (targetSupportSemioteIds ++ sourceSupportSemioteIds)
  let supports ← supportIds.mapM (promotionSupport driver userId rows)
  pure
    { userId := userId, source := source, target := rows.target, supportIds := supportIds,
      supports := supports }

/-! ### The transaction -/

/-- `array::union(existing ?? [], $supportSemioteIds)`. -/
def unionTexts (existing : PromotionValue) (ids : List String) : PromotionValue :=
  .arr (.ofList (distinct (existing.arr?.getD [] ++ ids.map .str)))

/-- The noema a transaction creates or reinforces. -/
def promotedTarget (call : PromotionCall) (preflight : PromotionPreflight) :
    NoemaPromotionTargetMetadata
  | .id => .record call.noemaId
  | .userId => .str preflight.userId
  | .processingLineage => (preflight.target.map fun t => t .processingLineage).getD .absent
  | .status => .str call.status
  | .claimKey => .str call.claimKey
  | .revisionHash => .str call.revisionHash
  | .supportSemioteIds =>
      (preflight.target.map fun t => unionTexts (t .supportSemioteIds) preflight.supportIds).getD
        (.ofTexts preflight.supportIds)
  | .active => (preflight.target.map fun t => t .active).getD (.bool true)
  | .updatedAt => .date call.now

/-- What a promotion sets on its source. -/
def promotedMarker (call : PromotionCall) (preflight : PromotionPreflight) :
    PromotionMarker → PromotionValue
  | .promotedToNoemaId => .str call.noemaRecordId
  | .noemaSupportSemioteIds => .ofTexts preflight.supportIds
  | .noemaClaimKey => .str call.claimKey
  | .noemaRevisionHash => .str call.revisionHash
  | .noemaStatus => .str call.status
  | .noemaStableClaim => call.stableClaim

/-- The source after it. -/
def promotedSource (call : PromotionCall) (preflight : PromotionPreflight)
    (source : NoemaPromotionMetadata) : NoemaPromotionMetadata
  | .marker m => promotedMarker call preflight m
  | .snapshot f => if f = .updatedAt then .date call.now else source (.snapshot f)

/-- The rows a transaction that takes effect leaves. -/
def promotionTransaction (call : PromotionCall) (preflight : PromotionPreflight)
    (rows : PromotionRows call.noemaId) : PromotionRows call.noemaId where
  target := some (promotedTarget call preflight)
  semiotes id :=
    if id = call.sourceId then (rows.semiotes id).map (promotedSource call preflight)
    else rows.semiotes id
  target_id row h := by
    cases h
    rfl
  semiote_id id row h := by
    split at h
    · obtain ⟨source, hsource, rfl⟩ := Option.map_eq_some_iff.mp h
      exact rows.semiote_id id source hsource
    · exact rows.semiote_id id row h

/-! ### After it -/

def promotionMetadataFieldsMatch (expected actual : NoemaPromotionMetadata)
    (includeMarkers ignoreUpdatedAt : Bool) : Bool :=
  decide (normalizePromotionSourceId (actual (.snapshot .id)) =
      normalizePromotionSourceId (expected (.snapshot .id))) &&
    decide (actual (.snapshot .processingLineage) = .absent) &&
    decide (promotionOwnerUserId driver expected = promotionOwnerUserId driver actual) &&
    (guardedPromotionFields.all fun f => (ignoreUpdatedAt && decide (f = .updatedAt)) ||
      samePromotionMetadataValue driver (actual (.snapshot f)) (expected (.snapshot f))) &&
    (!includeMarkers || PromotionMarker.all.all fun m =>
      samePromotionMetadataValue driver (actual (.marker m)) (expected (.marker m)))

def promotionUpdatedAtMatchesExpected (before after expected : PromotionValue)
    (requiresChangeFromBefore : Bool) : Bool :=
  samePromotionMetadataValue driver after expected &&
    (!requiresChangeFromBefore || !samePromotionMetadataValue driver before expected)

def sourceMarkersEqual (actual expected : NoemaPromotionMetadata) : Bool :=
  PromotionMarker.all.all fun m =>
    samePromotionMetadataValue driver (actual (.marker m)) (expected (.marker m))

def sourceMarkersMatch (call : PromotionCall) (preflight : PromotionPreflight)
    (actual : NoemaPromotionMetadata) : Bool :=
  PromotionMarker.all.all fun m =>
    if m = .noemaSupportSemioteIds then
      sameSupportIdSet (actual (.marker .noemaSupportSemioteIds)) preflight.supportIds
    else samePromotionMetadataValue driver (actual (.marker m)) (promotedMarker call preflight m)

def supportReadbackStable (call : PromotionCall) (preflight : PromotionPreflight)
    (after : PromotionRows call.noemaId) : Bool :=
  preflight.supports.all fun snapshot =>
    (after.semiotes ((normalizePromotionSourceId (snapshot (.snapshot .id))).getD "")).any fun row =>
      let isSource := decide (normalizePromotionSourceId (row (.snapshot .id)) = some call.sourceId)
      promotionMetadataFieldsMatch driver snapshot row (!isSource) isSource

def targetCommitted (call : PromotionCall) (preflight : PromotionPreflight)
    (targetAfter : NoemaPromotionTargetMetadata) : Bool :=
  decide (normalizePromotionSourceId (targetAfter .id) =
      normalizePromotionSourceId (.str call.noemaRecordId)) &&
    decide (targetAfter .processingLineage = .absent) &&
    samePromotionMetadataValue driver (targetAfter .userId) (.str preflight.userId) &&
    samePromotionMetadataValue driver (targetAfter .claimKey) (.str call.claimKey) &&
    samePromotionMetadataValue driver (targetAfter .revisionHash) (.str call.revisionHash) &&
    sameSupportIdSet (targetAfter .supportSemioteIds) preflight.supportIds &&
    samePromotionMetadataValue driver (targetAfter .active)
      ((preflight.target.map fun t => t .active).getD (.bool true)) &&
    samePromotionMetadataValue driver (targetAfter .status) (.str call.status)

def targetUpdatedAtCommitted (call : PromotionCall) (preflight : PromotionPreflight)
    (targetAfter : NoemaPromotionTargetMetadata) : Bool :=
  promotionUpdatedAtMatchesExpected driver
    ((preflight.target.map fun t => t .updatedAt).getD .absent) (targetAfter .updatedAt)
    (.date call.now) preflight.target.isSome

/-- Whose row is read back. -/
def isSourceRow (call : PromotionCall) (preflight : PromotionPreflight)
    (sourceAfter : NoemaPromotionMetadata) : Bool :=
  decide (normalizePromotionSourceId (sourceAfter (.snapshot .id)) = some call.sourceId) &&
    samePromotionMetadataValue driver (sourceAfter (.snapshot .userId)) (.str preflight.userId) &&
    decide (sourceAfter (.snapshot .processingLineage) = .absent)

def sourceCommitted (call : PromotionCall) (preflight : PromotionPreflight)
    (sourceAfter : NoemaPromotionMetadata) : Bool :=
  isSourceRow driver call preflight sourceAfter &&
    sourceMarkersMatch driver call preflight sourceAfter

def sourceUpdatedAtCommitted (call : PromotionCall) (preflight : PromotionPreflight)
    (sourceAfter : NoemaPromotionMetadata) : Bool :=
  promotionUpdatedAtMatchesExpected driver (preflight.source (.snapshot .updatedAt))
    (sourceAfter (.snapshot .updatedAt)) (.date call.now) true

def targetRolledBack (call : PromotionCall) (preflight : PromotionPreflight)
    (targetAfter : Option NoemaPromotionTargetMetadata) : Bool :=
  match preflight.target with
  | none => targetAfter.isNone
  | some existing =>
      targetAfter.any fun targetAfter =>
        decide (normalizePromotionSourceId (targetAfter .id) =
            normalizePromotionSourceId (.str call.noemaRecordId)) &&
          [TargetField.userId, .processingLineage, .status, .claimKey, .revisionHash,
            .supportSemioteIds, .active, .updatedAt].all fun c =>
              samePromotionMetadataValue driver (targetAfter c) (existing c)

def sourceRolledBack (call : PromotionCall) (preflight : PromotionPreflight)
    (sourceAfter : NoemaPromotionMetadata) : Bool :=
  isSourceRow driver call preflight sourceAfter &&
    samePromotionMetadataValue driver (sourceAfter (.snapshot .updatedAt))
      (preflight.source (.snapshot .updatedAt)) &&
    sourceMarkersEqual driver sourceAfter preflight.source

inductive NoemaPromotionReadbackOutcome where
  | committed | rolledBack | inconsistentOrUnresolved
  deriving DecidableEq

/-- What a readback tells of a transaction that has thrown. -/
def noemaPromotionOutcome (call : PromotionCall) (preflight : PromotionPreflight)
    (after : PromotionRows call.noemaId) : NoemaPromotionReadbackOutcome :=
  let sourceAfter := after.semiotes call.sourceId
  let stable := supportReadbackStable driver call preflight after
  if (after.target.any fun t => targetCommitted driver call preflight t &&
        targetUpdatedAtCommitted driver call preflight t) &&
      (sourceAfter.any fun s => sourceCommitted driver call preflight s &&
        sourceUpdatedAtCommitted driver call preflight s) && stable then .committed
  else if targetRolledBack driver call preflight after.target &&
      sourceAfter.any (sourceRolledBack driver call preflight) && stable then .rolledBack
  else .inconsistentOrUnresolved

end

end Runir
