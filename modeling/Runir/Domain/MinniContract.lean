import Runir.Domain.MinniEvents
import Runir.Policy.Lineage

/-!
# Domain — Minni contract

`src/domain/memory/minni-summary-contract.ts`, the contract of a summary: what is asserted, by which
claims, on which evidence.

* `validateEvidenceReference`, `validateClaim`, `validateContract`.
* `serializeMinniSummaryContract`.
-/

namespace Runir.Minni

inductive SummaryClaimState where
  | requested | planned | inProgress | displayedSuccess | displayedFailure
  | attributedSuccessClaim | attributedFailureClaim | uncertain
  deriving DecidableEq

namespace SummaryClaimState

def text : SummaryClaimState → String
  | requested => "requested"
  | planned => "planned"
  | inProgress => "in_progress"
  | displayedSuccess => "displayed_success"
  | displayedFailure => "displayed_failure"
  | attributedSuccessClaim => "attributed_success_claim"
  | attributedFailureClaim => "attributed_failure_claim"
  | uncertain => "uncertain"

/-- `SUMMARY_CLAIM_STATES`. -/
def all : List SummaryClaimState :=
  [requested, planned, inProgress, displayedSuccess, displayedFailure, attributedSuccessClaim,
    attributedFailureClaim, uncertain]

end SummaryClaimState

inductive SummaryUncertainty where
  | ocrSource | sourceClipUnknown | sourceCompletenessUnknown | partialDelta | anchorUnavailable
  | contradictoryEvidence | scopeLinkageUnknown
  deriving DecidableEq

namespace SummaryUncertainty

def text : SummaryUncertainty → String
  | ocrSource => "ocr_source"
  | sourceClipUnknown => "source_clip_unknown"
  | sourceCompletenessUnknown => "source_completeness_unknown"
  | partialDelta => "partial_delta"
  | anchorUnavailable => "anchor_unavailable"
  | contradictoryEvidence => "contradictory_evidence"
  | scopeLinkageUnknown => "scope_linkage_unknown"

/-- `SUMMARY_UNCERTAINTIES`. -/
def all : List SummaryUncertainty :=
  [ocrSource, sourceClipUnknown, sourceCompletenessUnknown, partialDelta, anchorUnavailable,
    contradictoryEvidence, scopeLinkageUnknown]

/-- `REQUIRED_OCR_UNCERTAINTIES`. -/
def requiredOCR : List SummaryUncertainty :=
  [ocrSource, sourceClipUnknown, sourceCompletenessUnknown]

/-- Those of a set, in the published order. -/
def canonical (present : List SummaryUncertainty) : List SummaryUncertainty :=
  all.filter fun item => present.contains item

end SummaryUncertainty

inductive SummaryAnchorContext where
  | notApplicable | authorizedContext | unavailableContext
  deriving DecidableEq

namespace SummaryAnchorContext

def text : SummaryAnchorContext → String
  | notApplicable => "not_applicable"
  | authorizedContext => "authorized_context"
  | unavailableContext => "unavailable_context"

/-- `SUMMARY_ANCHOR_CONTEXTS`. -/
def all : List SummaryAnchorContext := [notApplicable, authorizedContext, unavailableContext]

end SummaryAnchorContext

inductive SummaryConclusion where
  | bounded | abstained
  deriving DecidableEq

namespace SummaryConclusion

def text : SummaryConclusion → String
  | bounded => "bounded"
  | abstained => "abstained"

/-- `SUMMARY_CONCLUSIONS`. -/
def all : List SummaryConclusion := [bounded, abstained]

end SummaryConclusion

/-- An interval of event captures or indexings. -/
structure SummaryEventInterval where
  (start end' : String)
  deriving DecidableEq

structure SummaryOCRScreenshotInterval where
  startedMs : Nat
  completedMs : Nat
  deriving DecidableEq

structure SummaryOCRCollector where
  collectorCoverage : OCRCollectorCoverage
  omittedRegionCount : Nat
  omittedObservationCount : Nat
  omittedRecognitionLanguageCount : Nat
  deriving DecidableEq

structure SummaryEvidenceReference where
  eventId : String
  modality : String
  interval : SummaryEventInterval
  screenshotInterval : Option SummaryOCRScreenshotInterval
  uncertainties : List SummaryUncertainty
  anchorContext : SummaryAnchorContext
  anchorId : Option String
  collector : Option SummaryOCRCollector
  deriving DecidableEq

structure SummaryClaim where
  id : String
  statement : String
  state : SummaryClaimState
  modality : String
  scope : String
  supportEventIds : List String
  interval : SummaryEventInterval
  uncertainties : List SummaryUncertainty
  conflicts : List String
  deriving DecidableEq

structure MinniSummaryContract where
  summary : String
  interval : SummaryEventInterval
  returnedCount : Nat
  localOnlyWithheldCount : Nat
  processingLineage : ProcessingLineageV1
  evidence : List SummaryEvidenceReference
  claims : List SummaryClaim
  conclusion : SummaryConclusion
  deriving DecidableEq

def contractVersion : String := "runir.minni.summary/v1"

/-! ### As values -/

def SummaryEventInterval.toValue (interval : SummaryEventInterval) : Value :=
  .obj (.cons "start" (.str interval.start) (.cons "end" (.str interval.end')
    (.cons "meaning" (.str "event_capture_or_index_interval") .nil)))

def SummaryOCRScreenshotInterval.toValue (interval : SummaryOCRScreenshotInterval) : Value :=
  .obj (.cons "started_ms" (.num interval.startedMs) (.cons "completed_ms" (.num interval.completedMs)
    (.cons "meaning" (.str "ocr_screenshot_capture_interval") .nil)))

def SummaryOCRCollector.toValue (collector : SummaryOCRCollector) : Value :=
  .obj (.cons "collector_coverage" (.str collector.collectorCoverage.text)
    (.cons "omitted_region_count" (.num collector.omittedRegionCount)
    (.cons "omitted_observation_count" (.num collector.omittedObservationCount)
    (.cons "omitted_recognition_language_count" (.num collector.omittedRecognitionLanguageCount)
    .nil))))

def uncertaintyValues (uncertainties : List SummaryUncertainty) : Value :=
  .ofStrings (uncertainties.map SummaryUncertainty.text)

def SummaryEvidenceReference.toValue (reference : SummaryEvidenceReference) : Value :=
  .obj (.cons "event_id" (.str reference.eventId) (.cons "modality" (.str reference.modality)
    (.cons "event_capture_or_index_interval" reference.interval.toValue
    (.consOption "ocr_screenshot_capture_interval"
      (reference.screenshotInterval.map SummaryOCRScreenshotInterval.toValue)
    (.cons "uncertainties" (uncertaintyValues reference.uncertainties)
    (.cons "anchor_context" (.str reference.anchorContext.text)
    (.consOption "anchor_id" (reference.anchorId.map .str)
    (.consOption "ocr_collector" (reference.collector.map SummaryOCRCollector.toValue)
    .nil))))))))

def SummaryClaim.toValue (claim : SummaryClaim) : Value :=
  .obj (.cons "id" (.str claim.id) (.cons "statement" (.str claim.statement)
    (.cons "state" (.str claim.state.text) (.cons "modality" (.str claim.modality)
    (.cons "scope" (.str claim.scope) (.cons "support_event_ids" (.ofStrings claim.supportEventIds)
    (.cons "event_capture_or_index_interval" claim.interval.toValue
    (.cons "uncertainties" (uncertaintyValues claim.uncertainties)
    (.cons "conflicts" (.ofStrings claim.conflicts) .nil)))))))))

def MinniSummaryContract.toValue (contract : MinniSummaryContract) : Value :=
  .obj (.cons "version" (.str contractVersion) (.cons "summary" (.str contract.summary)
    (.cons "event_capture_or_index_interval" contract.interval.toValue
    (.cons "evidence_counts" (.obj (.cons "returned_count" (.num contract.returnedCount)
      (.cons "local_only_withheld_count" (.num contract.localOnlyWithheldCount) .nil)))
    (.cons "processing_lineage" contract.processingLineage.toValue
    (.cons "evidence" (.arr (.ofList (contract.evidence.map SummaryEvidenceReference.toValue)))
    (.cons "claims" (.arr (.ofList (contract.claims.map SummaryClaim.toValue)))
    (.cons "conclusion" (.str contract.conclusion.text) .nil))))))))

/-! ### Validating -/

def validSummaryInterval (value : Option Value) : Option SummaryEventInterval := do
  let fs ← value.bind Value.record?
  guard (exactKeys fs ["start", "end", "meaning"] [])
  let start ← stringWhere isTimestamp (fs.get? "start")
  let end' ← stringWhere isTimestamp (fs.get? "end")
  guard (intervalIsOrdered start end')
  guard (isText fs "meaning" "event_capture_or_index_interval")
  return ⟨start, end'⟩

/-- The loop of `derivedEvidenceInterval` and of the builder's `derivedInterval`. -/
def widen (interval : SummaryEventInterval) : List SummaryEventInterval → Option SummaryEventInterval
  | [] => some interval
  | item :: rest =>
      match compareMinniTimestamps item.start interval.start,
          compareMinniTimestamps item.end' interval.end' with
      | some startComparison, some endComparison =>
          widen
            { end' := if endComparison > 0 then item.end' else interval.end'
              start := if startComparison < 0 then item.start else interval.start } rest
      | _, _ => none

def derivedEvidenceInterval (evidence : List SummaryEvidenceReference) :
    Option SummaryEventInterval :=
  match evidence with
  | [] => none
  | item :: rest => widen item.interval (rest.map SummaryEvidenceReference.interval)

def validOCRScreenshotInterval (value : Value) : Option SummaryOCRScreenshotInterval := do
  let fs ← value.record?
  guard (exactKeys fs ["started_ms", "completed_ms", "meaning"] [])
  let startedMs ← safeCount (fs.get? "started_ms")
  let completedMs ← safeCount (fs.get? "completed_ms")
  guard (startedMs ≤ completedMs)
  guard (isText fs "meaning" "ocr_screenshot_capture_interval")
  return ⟨startedMs, completedMs⟩

def validCollector (value : Value) : Option SummaryOCRCollector := do
  let fs ← value.record?
  guard (exactKeys fs ["collector_coverage", "omitted_region_count", "omitted_observation_count",
    "omitted_recognition_language_count"] [])
  let collectorCoverage ←
    enumOf OCRCollectorCoverage.all OCRCollectorCoverage.text (fs.get? "collector_coverage")
  let omittedRegionCount ← safeCount (fs.get? "omitted_region_count")
  let omittedObservationCount ← safeCount (fs.get? "omitted_observation_count")
  let omittedRecognitionLanguageCount ← safeCount (fs.get? "omitted_recognition_language_count")
  return ⟨collectorCoverage, omittedRegionCount, omittedObservationCount,
    omittedRecognitionLanguageCount⟩

/-- A property that may be absent is read where it is there. -/
def optionalField {α : Type} (read : Value → Option α) (value : Option Value) : Option (Option α) :=
  match value with
  | none => some none
  | some value => (read value).map some

def canonicalUncertainties (value : Option Value) : Option (List SummaryUncertainty) := do
  let items ← value.bind Value.elements?
  let parsed ← items.mapM fun item =>
    enumOf SummaryUncertainty.all SummaryUncertainty.text (some item)
  return SummaryUncertainty.canonical parsed

def hasRequiredOCRUncertainties (uncertainties : List SummaryUncertainty) : Bool :=
  SummaryUncertainty.requiredOCR.all fun item => uncertainties.contains item

def validateEvidenceReference (value : Value) : Option SummaryEvidenceReference := do
  let fs ← value.record?
  guard (exactKeys fs ["event_id", "modality", "event_capture_or_index_interval", "uncertainties",
    "anchor_context"] ["ocr_screenshot_capture_interval", "anchor_id", "ocr_collector"])
  let eventId ← stringWhere nonEmptyReference (fs.get? "event_id")
  let modality ← stringWhere nonEmptyReference (fs.get? "modality")
  let interval ← validSummaryInterval (fs.get? "event_capture_or_index_interval")
  let anchorContext ←
    enumOf SummaryAnchorContext.all SummaryAnchorContext.text (fs.get? "anchor_context")
  let uncertainties ← canonicalUncertainties (fs.get? "uncertainties")
  guard (modality = "screen_ocr" ∨ (fs.get? "ocr_screenshot_capture_interval").isSome = true ∨
    (fs.get? "ocr_collector").isSome = true → hasRequiredOCRUncertainties uncertainties = true)
  let screenshotInterval ←
    optionalField validOCRScreenshotInterval (fs.get? "ocr_screenshot_capture_interval")
  let collector ← optionalField validCollector (fs.get? "ocr_collector")
  let anchorId ← optionalField (fun value => stringWhere nonEmptyReference (some value))
    (fs.get? "anchor_id")
  guard (anchorContext = .authorizedContext ↔ anchorId.isSome = true)
  return ⟨eventId, modality, interval, screenshotInterval, uncertainties, anchorContext, anchorId,
    collector⟩

/-- `uniqueStrings` of an array's items. -/
def uniqueStrings (value : Option Value) : Option (List String) := do
  let items ← value.bind Value.elements?
  let values ← items.mapM fun item => stringWhere nonEmptyReference (some item)
  guard values.Nodup
  return values

def validateClaim (value : Value) : Option SummaryClaim := do
  let fs ← value.record?
  guard (exactKeys fs ["id", "statement", "state", "modality", "scope", "support_event_ids",
    "event_capture_or_index_interval", "uncertainties", "conflicts"] [])
  let id ← stringWhere nonEmptyReference (fs.get? "id")
  let statement ← stringWhere nonEmptyString (fs.get? "statement")
  let state ← enumOf SummaryClaimState.all SummaryClaimState.text (fs.get? "state")
  let modality ← stringWhere nonEmptyReference (fs.get? "modality")
  let scope ← stringWhere nonEmptyReference (fs.get? "scope")
  let interval ← validSummaryInterval (fs.get? "event_capture_or_index_interval")
  let supportEventIds ← uniqueStrings (fs.get? "support_event_ids")
  guard (supportEventIds ≠ [])
  let conflicts ← uniqueStrings (fs.get? "conflicts")
  let uncertainties ← canonicalUncertainties (fs.get? "uncertainties")
  guard (id ∉ conflicts)
  guard (modality = "screen_ocr" → hasRequiredOCRUncertainties uncertainties = true)
  return ⟨id, statement, state, modality, scope, supportEventIds, interval, uncertainties, conflicts⟩

def validateLineage (value : Option Value) : Option ProcessingLineageV1 :=
  match classifyProcessingLineage value with
  | .verified lineage => some lineage
  | _ => none

/-- The evidence, none of it twice, and its anchors within it. -/
def validateEvidence (values : List Value) : Option (List SummaryEvidenceReference) := do
  let evidence ← values.mapM validateEvidenceReference
  guard (evidence.map SummaryEvidenceReference.eventId).Nodup
  guard (∀ item ∈ evidence, item.anchorContext = .authorizedContext →
    item.anchorId.all fun anchorId => anchorId ≠ item.eventId ∧
      (evidence.map SummaryEvidenceReference.eventId).contains anchorId)
  return evidence

/-- A claim's support is evidence, and its interval that of the support. -/
def supported (evidence : List SummaryEvidenceReference) (claim : SummaryClaim) : Bool :=
  match claim.supportEventIds.mapM fun id => evidence.find? fun item => item.eventId = id with
  | none => false
  | some supportEvidence => derivedEvidenceInterval supportEvidence = some claim.interval

/-- The claims, none of them twice. -/
def validateClaims (evidence : List SummaryEvidenceReference) (values : List Value) :
    Option (List SummaryClaim) := do
  let claims ← values.mapM validateClaim
  guard (claims.map SummaryClaim.id).Nodup
  guard (claims.all (supported evidence))
  return claims

/-- Conflicts are with claims, and mutual. -/
def conflictsMutual (claims : List SummaryClaim) : Bool :=
  claims.all fun claim => claim.conflicts.all fun conflictId =>
    (claims.find? fun candidate => candidate.id = conflictId).any fun other =>
      other.conflicts.contains claim.id

/-- A conflict is marked at its claims and at their support. -/
def conflictsMarked (evidence : List SummaryEvidenceReference) (claims : List SummaryClaim) : Bool :=
  claims.all fun claim => claim.conflicts.isEmpty ||
    claim.uncertainties.contains .contradictoryEvidence &&
      evidence.all fun item => !claim.supportEventIds.contains item.eventId ||
        item.uncertainties.contains .contradictoryEvidence

def validateContract (value : Value) : CodecResult MinniSummaryContract :=
  match value.record? with
  | none => .refusal .invalidContract
  | some fs =>
      if !isText fs "version" contractVersion then .refusal .unsupportedContractVersion
      else if !exactKeys fs ["version", "summary", "event_capture_or_index_interval",
          "evidence_counts", "processing_lineage", "evidence", "claims", "conclusion"] [] then
        .refusal .invalidContract
      else
        match stringWhere nonEmptyString (fs.get? "summary"),
            validSummaryInterval (fs.get? "event_capture_or_index_interval"),
            enumOf SummaryConclusion.all SummaryConclusion.text (fs.get? "conclusion"),
            (fs.get? "evidence_counts").bind Value.record?,
            (fs.get? "evidence").bind Value.elements?, (fs.get? "claims").bind Value.elements? with
        | some summary, some interval, some conclusion, some counts, some evidenceValues,
            some claimValues =>
            match safeCount (counts.get? "returned_count"),
                safeCount (counts.get? "local_only_withheld_count") with
            | some returnedCount, some localOnlyWithheldCount =>
                if !exactKeys counts ["returned_count", "local_only_withheld_count"] [] then
                  .refusal .invalidContract
                else if evidenceValues.isEmpty then .noAuthorizedEvidence
                else if minniGetEventsMaxItems < evidenceValues.length || claimValues.isEmpty ||
                    returnedCount ≠ evidenceValues.length then .refusal .invalidContract
                else
                  match validateLineage (fs.get? "processing_lineage"),
                      validateEvidence evidenceValues with
                  | some processingLineage, some evidence =>
                      if derivedEvidenceInterval evidence ≠ some interval then
                        .refusal .invalidContract
                      else
                        match validateClaims evidence claimValues with
                        | none => .refusal .invalidContract
                        | some claims =>
                            if conflictsMutual claims && conflictsMarked evidence claims then
                              .ok ⟨summary, interval, returnedCount, localOnlyWithheldCount,
                                processingLineage, evidence, claims, conclusion⟩
                            else .refusal .invalidContract
                  | _, _ => .refusal .invalidContract
            | _, _ => .refusal .invalidContract
        | _, _, _, _, _, _ => .refusal .invalidContract

/-- `serializeMinniSummaryContract`, which throws where the contract is refused. -/
def serializeMinniSummaryContract (value : Value) : Option MinniSummaryContract :=
  match validateContract value with
  | .ok contract => some contract
  | _ => none

end Runir.Minni
