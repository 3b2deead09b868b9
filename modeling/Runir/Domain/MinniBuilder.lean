import Runir.Domain.MinniContract
import Runir.Lib.OrdMap
import Runir.Lib.OrdSet

/-!
# Domain — Minni summaries

`src/domain/memory/minni-summary-builder.ts`: the contract of a summary, built from a producer's
evidence, a lineage for each event, and claims that name their support.

* `validateLineageInputs`, `validateClaimInputs`, `buildMinniSummaryContract`.

A set of uncertainties is a list; only membership is read of it.
-/

namespace Runir.Minni

/-! ### The evidence -/

def AcceptedMinniEvidence.toValue (accepted : AcceptedMinniEvidence) : Value :=
  .obj (.cons "items" (.arr (.ofList (accepted.items.map MinniEvent.toValue)))
    (.cons "returned_count" (.num accepted.returnedCount)
    (.cons "local_only_withheld_count" (.num accepted.localOnlyWithheldCount) .nil)))

/-- The result of accepting it. -/
def acceptedResult (accepted : AcceptedMinniEvidence) : Value :=
  .obj (.cons "ok" (.bool true) (.cons "value" accepted.toValue .nil))

section
variable (jsonUtf8Length : Value → Nat)

def decodeAcceptedEvidence (value : Value) : Option (CodecResult AcceptedMinniEvidence) := do
  let fs ← value.record?
  guard (exactKeys fs ["items", "returned_count", "local_only_withheld_count"] [])
  let items ← (fs.get? "items").bind Value.elements?
  let returnedCount ← safeCount (fs.get? "returned_count")
  let localOnlyWithheldCount ← safeCount (fs.get? "local_only_withheld_count")
  guard (returnedCount = items.length)
  return decodeMinniGetEventsResponse jsonUtf8Length
    (.obj (.cons "items" (.arr (.ofList items))
      (.cons "localOnlyWithheld" (.num localOnlyWithheldCount) .nil)))

def isNoAuthorizedEvidence (value : Value) : Bool :=
  value.record?.any fun fs =>
    fs.get? "ok" = some (.bool false) && isText fs "reason" "no_authorized_evidence" &&
      fs.get? "contentFree" = some (.bool true) && exactKeys fs ["ok", "reason", "contentFree"] []

/-- `isSummaryCodecRefusal`, with the reason. -/
def summaryCodecRefusal (value : Value) : Option SummaryCodecRefusalReason := do
  let fs ← value.record?
  guard (fs.get? "ok" = some (.bool false))
  guard (fs.get? "contentFree" = some (.bool true))
  let reason ← enumOf SummaryCodecRefusalReason.all SummaryCodecRefusalReason.text (fs.get? "reason")
  guard (exactKeys fs ["ok", "reason", "contentFree"] [])
  return reason

def unwrapEvidence (value : Value) : Option (CodecResult AcceptedMinniEvidence) :=
  if isNoAuthorizedEvidence value then some .noAuthorizedEvidence
  else
    match summaryCodecRefusal value with
    | some reason => some (.refusal reason)
    | none =>
        match value.prop? "ok" with
        | none => decodeAcceptedEvidence jsonUtf8Length value
        | some ok =>
            if ok = .bool true then
              (value.prop? "value").bind (decodeAcceptedEvidence jsonUtf8Length)
            else none

def readEvidenceBeforeTransientInput (value : Value) : Option (CodecResult AcceptedMinniEvidence) :=
  (value.prop? "evidence").bind (unwrapEvidence jsonUtf8Length)

end

/-! ### The lineages -/

/-- What has been read of the lineages, by event. -/
abbrev LineageMap := OrdMap String ClassifiedProcessingLineage

/-- The loop over `rawLineages`. -/
def readLineages (eventIds : List String) : List Value → LineageMap → Option LineageMap
  | [], byEventId => some byEventId
  | rawLineage :: rest, byEventId => do
      let fs ← rawLineage.record?
      guard (exactKeys fs ["event_id", "processing_lineage"] [])
      let eventId ← stringWhere nonEmptyReference (fs.get? "event_id")
      guard (eventIds.contains eventId)
      guard (!byEventId.has eventId)
      readLineages eventIds rest
        (byEventId.set eventId (classifyProcessingLineage (fs.get? "processing_lineage")))

/-- The loop over `eventIds`. -/
def joinLineages (byEventId : LineageMap) :
    List String → Option ClassifiedProcessingLineage → Option (Option ClassifiedProcessingLineage)
  | [], joined => some joined
  | eventId :: rest, joined => do
      let current ← byEventId.get? eventId
      match joined with
      | none => joinLineages byEventId rest (some current)
      | some joined =>
          match conservativeJoinProcessingLineage joined current with
          | .joined lineage => joinLineages byEventId rest (some (.verified lineage))
          -- a join of what has been classified does not throw
          | _ => none

def validateLineageInputs (rawLineages : List Value) (eventIds : List String) :
    Option (ProcessingLineageV1 × LineageMap) := do
  guard (rawLineages.length = eventIds.length)
  let byEventId ← readLineages eventIds rawLineages .empty
  guard (byEventId.size = eventIds.length)
  match ← joinLineages byEventId eventIds none with
  | some (.verified lineage) => return (lineage, byEventId)
  | _ => none

/-! ### The claims -/

structure ValidatedClaimInput where
  id : String
  statement : String
  state : SummaryClaimState
  modality : String
  scope : String
  supportEventIds : List String
  conflicts : List String
  scopeLinkageUnknown : Bool
  deriving DecidableEq

/-- The check of a claim, given the ids of those before it. -/
def validateClaimInput (ids : List String) (rawClaim : Value) : Option ValidatedClaimInput := do
  let fs ← rawClaim.record?
  guard (exactKeys fs ["id", "statement", "state", "modality", "scope", "support_event_ids"]
    ["conflicts", "scope_linkage_unknown"])
  let id ← stringWhere nonEmptyReference (fs.get? "id")
  guard (!ids.contains id)
  let statement ← stringWhere nonEmptyString (fs.get? "statement")
  let state ← enumOf SummaryClaimState.all SummaryClaimState.text (fs.get? "state")
  let modality ← stringWhere nonEmptyReference (fs.get? "modality")
  let scope ← stringWhere nonEmptyReference (fs.get? "scope")
  let supportEventIds ← uniqueStrings (fs.get? "support_event_ids")
  guard (supportEventIds ≠ [])
  let conflicts ← uniqueStrings ((fs.get? "conflicts").or (some (.ofStrings [])))
  guard (id ∉ conflicts)
  let scopeLinkageUnknown ← ((fs.get? "scope_linkage_unknown").or (some (.bool false))).bind Value.bool?
  return ⟨id, statement, state, modality, scope, supportEventIds, conflicts, scopeLinkageUnknown⟩

/-- The loop of `validateClaimInputs`. -/
def readClaims : List Value → List ValidatedClaimInput → Option (List ValidatedClaimInput)
  | [], claims => some claims
  | rawClaim :: rest, claims => do
      let claim ← validateClaimInput (claims.map ValidatedClaimInput.id) rawClaim
      readClaims rest (claims ++ [claim])

def maxClaims : Nat := 500

def validateClaimInputs (value : Value) : Option (List ValidatedClaimInput) := do
  let rawClaims ← value.elements?
  guard (rawClaims ≠ [] ∧ rawClaims.length ≤ maxClaims)
  let claims ← readClaims rawClaims []
  guard (∀ claim ∈ claims, ∀ id ∈ claim.conflicts, id ∈ claims.map ValidatedClaimInput.id)
  return claims

/-! ### The evidence of a summary -/

def eventInterval (event : MinniEvent) : SummaryEventInterval :=
  { start := event.ts, end' := event.end'.getD event.ts }

def derivedInterval (events : List MinniEvent) : Option SummaryEventInterval :=
  match events with
  | [] => none
  | event :: rest => widen (eventInterval event) (rest.map eventInterval)

def isOCR (event : MinniEvent) : Bool := event.source = "minni" && event.kind = some "ocr"

def isDelta (event : MinniEvent) : Bool := event.flags.contains "delta"

def eventUncertainties (event : MinniEvent) : List SummaryUncertainty :=
  (if isOCR event then [.ocrSource, .sourceClipUnknown, .sourceCompletenessUnknown] else []) ++
    if isDelta event then [.partialDelta] else []

/-- `anchorForEvent`, with the uncertainties as it leaves them. -/
def anchorForEvent (event : MinniEvent) (eventIds : List String)
    (uncertainties : List SummaryUncertainty) :
    SummaryAnchorContext × Option String × List SummaryUncertainty :=
  if event.anchorId = none ∧ isDelta event = false then (.notApplicable, none, uncertainties)
  else
    match event.anchorId.filter fun anchorId => anchorId ≠ event.id && eventIds.contains anchorId with
    | some anchorId => (.authorizedContext, some anchorId, uncertainties)
    | none => (.unavailableContext, none, uncertainties ++ [.anchorUnavailable])

structure MutableEvidence where
  event : MinniEvent
  reference : SummaryEvidenceReference
  uncertainties : List SummaryUncertainty

def buildEvidenceReference (event : MinniEvent) (eventIds : List String) : MutableEvidence :=
  let anchor := anchorForEvent event eventIds (eventUncertainties event)
  let observation :=
    if isOCR event then event.observation.map SupportedOCRObservation.reading else none
  { event
    reference :=
      { eventId := event.id
        modality := if isOCR event then "screen_ocr" else "event"
        interval := eventInterval event
        screenshotInterval := observation.map fun observation =>
          ⟨observation.captureInterval.startedMs, observation.captureInterval.completedMs⟩
        uncertainties := SummaryUncertainty.canonical anchor.2.2
        anchorContext := anchor.1
        anchorId := anchor.2.1.filter Text.truthy
        collector := observation.map fun observation =>
          ⟨observation.collectorCoverage, observation.omittedRegionCount,
            observation.omittedObservationCount, observation.omittedRecognitionLanguageCount⟩ }
    uncertainties := anchor.2.2 }

/-! ### The claims of a summary -/

/-- Which claims each is in conflict with. -/
abbrev ConflictSets := OrdMap String (OrdSet String)

/-- A conflict, at both of its claims. -/
def addConflict (ids : List String) (id : String) (sets : ConflictSets) (conflictId : String) :
    Option ConflictSets := do
  guard (ids.contains conflictId)
  let own ← sets.get? id
  let sets := sets.set id (own.add conflictId)
  let other ← sets.get? conflictId
  return sets.set conflictId (other.add id)

def conflictSets (claims : List ValidatedClaimInput) : Option ConflictSets :=
  claims.foldlM
    (fun sets claim =>
      claim.conflicts.foldlM (addConflict (claims.map ValidatedClaimInput.id) claim.id) sets)
    (.ofList (claims.map fun claim => (claim.id, .empty)))

def claimConflictsInCanonicalOrder (claimId : String) (conflicts : OrdSet String)
    (claims : List ValidatedClaimInput) : List String :=
  (claims.filter fun claim => claim.id ≠ claimId && conflicts.has claim.id).map
    ValidatedClaimInput.id

def buildClaim (input : ValidatedClaimInput) (conflictIds : OrdSet String)
    (claims : List ValidatedClaimInput) (evidenceById : OrdMap String MutableEvidence) :
    Option SummaryClaim := do
  let support ← input.supportEventIds.mapM evidenceById.get?
  let interval ← derivedInterval (support.map MutableEvidence.event)
  let uncertainties := support.flatMap MutableEvidence.uncertainties ++
    (if input.scopeLinkageUnknown then [.scopeLinkageUnknown] else []) ++
    if 0 < conflictIds.size then [.contradictoryEvidence] else []
  return {
    id := input.id
    statement := input.statement
    state := input.state
    modality := input.modality
    scope := input.scope
    supportEventIds := input.supportEventIds
    interval
    uncertainties := SummaryUncertainty.canonical uncertainties
    conflicts := claimConflictsInCanonicalOrder input.id conflictIds claims }

/-! ### The summary -/

structure NormalizedInput where
  summary : String
  lineages : List Value
  claims : Value
  conclusion : Option SummaryConclusion

def normalizeBuilderInput (value : Value) : Option NormalizedInput := do
  let fs ← value.record?
  guard (exactKeys fs ["summary", "evidence", "lineages", "claims"] ["conclusion"])
  let summary ← stringWhere nonEmptyString (fs.get? "summary")
  let lineages ← (fs.get? "lineages").bind Value.elements?
  let claims ← fs.get? "claims"
  guard claims.elements?.isSome
  let conclusion ←
    optionalField (fun value => enumOf SummaryConclusion.all SummaryConclusion.text (some value))
      (fs.get? "conclusion")
  return ⟨summary, lineages, claims, conclusion⟩

/-- The reference of an event, which a conflict marks. -/
def serializedReference (conflictEvidenceIds : List String) (built : MutableEvidence) :
    SummaryEvidenceReference :=
  if conflictEvidenceIds.contains built.event.id then
    { built.reference with
      uncertainties :=
        SummaryUncertainty.canonical (built.uncertainties ++ [.contradictoryEvidence]) }
  else built.reference

/-- The contract, before it is validated. -/
def assembleContract (evidence : AcceptedMinniEvidence) (input : NormalizedInput) :
    Option MinniSummaryContract := do
  let interval ← derivedInterval evidence.items
  let eventIds := evidence.items.map MinniEvent.id
  let lineages ← validateLineageInputs input.lineages eventIds
  let claimInputs ← validateClaimInputs input.claims
  let conflictMap ← conflictSets claimInputs
  let builtEvidence := evidence.items.map fun event => buildEvidenceReference event eventIds
  let evidenceById := OrdMap.ofList (builtEvidence.map fun built => (built.event.id, built))
  guard (evidenceById.size = evidence.items.length)
  let claims ← claimInputs.mapM fun claim =>
    (conflictMap.get? claim.id).bind fun conflictIds =>
      buildClaim claim conflictIds claimInputs evidenceById
  let conflictEvidenceIds := (claims.filter fun claim => !claim.conflicts.isEmpty).flatMap
    SummaryClaim.supportEventIds
  let hasConflict := claims.any fun claim => !claim.conflicts.isEmpty
  return {
    summary := input.summary
    interval
    returnedCount := evidence.returnedCount
    localOnlyWithheldCount := evidence.localOnlyWithheldCount
    processingLineage := lineages.1
    evidence := builtEvidence.map (serializedReference conflictEvidenceIds)
    claims
    conclusion := input.conclusion.getD (if hasConflict then .abstained else .bounded) }

def buildMinniSummaryContract (jsonUtf8Length : Value → Nat) (value : Value) :
    CodecResult MinniSummaryContract :=
  match readEvidenceBeforeTransientInput jsonUtf8Length value with
  | none => .refusal .invalidContract
  | some .noAuthorizedEvidence => .noAuthorizedEvidence
  | some (.refusal reason) => .refusal reason
  | some (.ok evidence) =>
      let contract := (normalizeBuilderInput value).bind fun input =>
        (assembleContract evidence input).bind fun contract =>
          serializeMinniSummaryContract contract.toValue
      match contract with
      | none => .refusal .invalidContract
      | some contract => .ok contract

end Runir.Minni
