import Runir.Domain.MinniTimestamp

/-!
# Domain — Minni events

`src/domain/memory/minni-summary-contract.ts`, from the checks it makes of strings and numbers to
`decodeMinniGetEventsResponse`: the events of a producer's response, each with the observation of a
screen that it may carry.

* `decodeEvent`, `decodeMinniGetEventsResponse`.
* `decodeEvent_toValue`: a decoded event is decoded again as it is.

Values are JSON values, and their numbers exact.  The length of a value printed as JSON is a
parameter.
-/

namespace Runir.Minni

/-! ### Records, strings and numbers -/

def exactKeys (fs : Fields) (required : List String) (optional : List String) : Bool :=
  fs.keys.all (fun key => (required ++ optional).contains key) &&
    required.all fun key => fs.keys.contains key

def nonEmptyReference (value : String) : Bool := boundedString value maxReferenceUtf8Bytes

def nonEmptyString (value : String) : Bool := Text.trim value ≠ ""

def isTimestamp (value : String) : Bool := (parseMinniTimestamp value).isSome

def intervalIsOrdered (start end' : String) : Bool :=
  (compareMinniTimestamps start end').any fun comparison => comparison ≤ 0

/-- `Number.MAX_SAFE_INTEGER`. -/
def maxSafeInteger : Nat := 9007199254740991

/-- `safeCount`: the number, where the value is one. -/
def safeCount (value : Option Value) : Option Nat :=
  match value.bind Value.num? with
  | none => none
  | some q => if q.den = 1 ∧ 0 ≤ q.num ∧ q.num ≤ maxSafeInteger then some q.num.toNat else none

def positiveInteger (value : Option Value) : Option Nat :=
  (safeCount value).filter fun n => 0 < n

/-- `isEnum`: which of them the value is. -/
def enumOf {α : Type} (all : List α) (text : α → String) (value : Option Value) : Option α :=
  (value.bind Value.str?).bind fun s => all.find? fun a => text a = s

/-- The string, where the value is one that passes a check. -/
def stringWhere (check : String → Bool) (value : Option Value) : Option String :=
  (value.bind Value.str?).filter check

/-! ### Observations -/

inductive OCRObservationCoverage where
  | complete | partialCardinalityCap | partialInvalidValue
  deriving DecidableEq

namespace OCRObservationCoverage

def text : OCRObservationCoverage → String
  | complete => "complete"
  | partialCardinalityCap => "partial-cardinality-cap"
  | partialInvalidValue => "partial-invalid-value"

/-- `OCR_OBSERVATION_COVERAGE`. -/
def all : List OCRObservationCoverage := [complete, partialCardinalityCap, partialInvalidValue]

end OCRObservationCoverage

inductive OCRCollectorCoverage where
  | complete | partialCardinalityCap | partialJsonByteCap | partialInvalidValue
  deriving DecidableEq

namespace OCRCollectorCoverage

def text : OCRCollectorCoverage → String
  | complete => "complete"
  | partialCardinalityCap => "partial-cardinality-cap"
  | partialJsonByteCap => "partial-json-byte-cap"
  | partialInvalidValue => "partial-invalid-value"

/-- `OCR_COLLECTOR_COVERAGE`. -/
def all : List OCRCollectorCoverage :=
  [complete, partialCardinalityCap, partialJsonByteCap, partialInvalidValue]

end OCRCollectorCoverage

inductive OCRCaptureScope where
  | fullWindow | checkedWebAreaRegions
  deriving DecidableEq

namespace OCRCaptureScope

def text : OCRCaptureScope → String
  | fullWindow => "full-window"
  | checkedWebAreaRegions => "checked-web-area-regions"

/-- `OCR_CAPTURE_SCOPES`. -/
def all : List OCRCaptureScope := [fullWindow, checkedWebAreaRegions]

end OCRCaptureScope

inductive OCRBoundary where
  | fullWindow | checkedRegionInset
  deriving DecidableEq

namespace OCRBoundary

def text : OCRBoundary → String
  | fullWindow => "full-window"
  | checkedRegionInset => "checked-region-inset"

/-- `OCR_BOUNDARIES`. -/
def all : List OCRBoundary := [fullWindow, checkedRegionInset]

end OCRBoundary

structure OCRObservationRect where
  x : ℚ
  y : ℚ
  width : ℚ
  height : ℚ

structure OCRObservationPixelSize where
  width : Nat
  height : Nat
  deriving DecidableEq

structure CaptureInterval where
  startedMs : Nat
  completedMs : Nat

/-- `validRect`: the rectangle, where the value is one. -/
def validRect (value : Option Value) (allowZero : Bool) : Option OCRObservationRect := do
  let fs ← value.bind Value.record?
  guard (exactKeys fs ["x", "y", "width", "height"] [])
  let x ← (fs.get? "x").bind Value.num?
  let y ← (fs.get? "y").bind Value.num?
  let width ← (fs.get? "width").bind Value.num?
  let height ← (fs.get? "height").bind Value.num?
  guard (if allowZero then 0 ≤ width ∧ 0 ≤ height else 0 < width ∧ 0 < height)
  return ⟨x, y, width, height⟩

def validPixelSize (value : Option Value) : Option OCRObservationPixelSize := do
  let fs ← value.bind Value.record?
  guard (exactKeys fs ["width", "height"] [])
  let width ← positiveInteger (fs.get? "width")
  let height ← positiveInteger (fs.get? "height")
  return ⟨width, height⟩

def validCaptureInterval (value : Option Value) : Option CaptureInterval := do
  let fs ← value.bind Value.record?
  guard (exactKeys fs ["startedMs", "completedMs"] [])
  let startedMs ← safeCount (fs.get? "startedMs")
  let completedMs ← safeCount (fs.get? "completedMs")
  guard (startedMs ≤ completedMs)
  return ⟨startedMs, completedMs⟩

/-- A property is this string. -/
def isText (fs : Fields) (key text : String) : Bool :=
  ((fs.get? key).bind Value.str?).any fun s => s = text

def ocrMaxRegions : Nat := 32

def ocrMaxTextObservations : Nat := 256

def ocrMaxRecognitionLanguages : Nat := 16

def ocrMaxLanguageUtf8Bytes : Nat := 64

def ocrMaxJsonUtf8Bytes : Nat := 65536

/-- The check of `request`. -/
def validRequest (value : Option Value) : Bool :=
  match value.bind Value.record? with
  | none => false
  | some fs =>
      exactKeys fs ["engine", "revision", "recognitionLevel", "usesLanguageCorrection",
        "automaticallyDetectsLanguage", "recognitionLanguages"] [] &&
      isText fs "engine" "apple-vision-text" &&
      (positiveInteger (fs.get? "revision")).isSome &&
      (isText fs "recognitionLevel" "accurate" || isText fs "recognitionLevel" "fast") &&
      ((fs.get? "usesLanguageCorrection").bind Value.bool?).isSome &&
      ((fs.get? "automaticallyDetectsLanguage").bind Value.bool?).isSome &&
      ((fs.get? "recognitionLanguages").bind Value.elements?).any fun languages =>
        languages.length ≤ ocrMaxRecognitionLanguages &&
          languages.all fun language => language.str?.any fun language =>
            nonEmptyReference language && language.utf8ByteSize ≤ ocrMaxLanguageUtf8Bytes

/-- The check of an item of `textObservations`, with its ordinal. -/
def validTextObservation (previousOrdinal : Option Nat) (value : Value) : Option Nat := do
  let fs ← value.record?
  guard (exactKeys fs ["ordinal", "boundingBox", "coordinateSpace", "recognitionConfidence",
    "confidenceMeaning"] [])
  let ordinal ← safeCount (fs.get? "ordinal")
  guard (previousOrdinal.all fun previous => previous < ordinal)
  let box ← validRect (fs.get? "boundingBox") true
  guard (0 ≤ box.x ∧ 0 ≤ box.y ∧ box.x + box.width ≤ 1 ∧ box.y + box.height ≤ 1)
  guard (isText fs "coordinateSpace" "vision-normalized-lower-left-in-region")
  let confidence ← (fs.get? "recognitionConfidence").bind Value.num?
  guard (0 ≤ confidence ∧ confidence ≤ 1)
  guard (isText fs "confidenceMeaning" "vision-candidate-score")
  return ordinal

def validTextObservations : Option Nat → List Value → Bool
  | _, [] => true
  | previousOrdinal, value :: rest =>
      match validTextObservation previousOrdinal value with
      | none => false
      | some ordinal => validTextObservations (some ordinal) rest

/-- What is counted of a region. -/
structure CheckedRegion where
  observations : Nat
  omitted : Nat

/-- Where a region is in the image. -/
def regionPlaced (captureScope : OCRCaptureScope) (imageSize : OCRObservationPixelSize)
    (regionCount : Nat) (boundary : OCRBoundary) (pixelSize : OCRObservationPixelSize)
    (rect : Option OCRObservationRect) (hasRect : Bool) : Bool :=
  match captureScope with
  | .fullWindow =>
      regionCount = 1 && boundary = .fullWindow && !hasRect && pixelSize = imageSize
  | .checkedWebAreaRegions =>
      boundary = .checkedRegionInset && rect.any fun rect => decide
        (|rect.width - (pixelSize.width : ℚ)| ≤ 1 / 1000000 ∧
          |rect.height - (pixelSize.height : ℚ)| ≤ 1 / 1000000 ∧ 0 ≤ rect.x ∧ 0 ≤ rect.y ∧
            rect.x + rect.width ≤ (imageSize.width : ℚ) ∧
              rect.y + rect.height ≤ (imageSize.height : ℚ))

/-- The check of an item of `regions`. -/
def validRegion (captureScope : OCRCaptureScope) (imageSize : OCRObservationPixelSize)
    (regionCount regionIndex : Nat) (value : Value) : Option CheckedRegion := do
  let fs ← value.record?
  guard (exactKeys fs ["ordinal", "pixelSize", "boundary", "textObservations", "candidateCoverage",
    "geometryCoverage", "omittedObservationCount"] ["sourceRectInCapturePixels"])
  guard (fs.get? "ordinal" = some (.num regionIndex))
  let pixelSize ← validPixelSize (fs.get? "pixelSize")
  let boundary ← enumOf OCRBoundary.all OCRBoundary.text (fs.get? "boundary")
  let textObservations ← (fs.get? "textObservations").bind Value.elements?
  let candidateCoverage ←
    enumOf OCRObservationCoverage.all OCRObservationCoverage.text (fs.get? "candidateCoverage")
  let geometryCoverage ←
    enumOf OCRObservationCoverage.all OCRObservationCoverage.text (fs.get? "geometryCoverage")
  let omitted ← safeCount (fs.get? "omittedObservationCount")
  let rect := validRect (fs.get? "sourceRectInCapturePixels") false
  guard (fs.get? "sourceRectInCapturePixels" = none ∨ rect.isSome = true)
  guard (regionPlaced captureScope imageSize regionCount boundary pixelSize rect
    (fs.get? "sourceRectInCapturePixels").isSome)
  guard (validTextObservations none textObservations)
  guard (textObservations.length ≤ ocrMaxTextObservations)
  guard (if omitted = 0 then candidateCoverage = .complete ∧ geometryCoverage = .complete
    else candidateCoverage ≠ .complete ∧ geometryCoverage ≠ .complete)
  return ⟨textObservations.length, omitted⟩

def validRegions (captureScope : OCRCaptureScope) (imageSize : OCRObservationPixelSize)
    (regions : List Value) : Option (List CheckedRegion) :=
  regions.zipIdx.mapM fun region =>
    validRegion captureScope imageSize regions.length region.2 region.1

/-- What a summary takes from an observation. -/
structure OCRReading where
  captureInterval : CaptureInterval
  collectorCoverage : OCRCollectorCoverage
  omittedRegionCount : Nat
  omittedObservationCount : Nat
  omittedRecognitionLanguageCount : Nat

/-- `validObservationProjection`, with what a summary takes from the value. -/
def readObservation (value : Value) : Option OCRReading := do
  let fs ← value.record?
  guard (exactKeys fs ["schemaVersion", "channel", "captureInterval", "request",
    "captureImagePixelSize", "captureScope", "regions", "omittedRegionCount",
    "omittedObservationCount", "omittedRecognitionLanguageCount", "sourceClipStatus",
    "sourceTextCompleteness", "collectorCoverage", "identityScope", "timeMeaning",
    "storedTextScope", "textToObservationMapping"] [])
  guard (fs.get? "schemaVersion" = some (.num 1))
  guard (isText fs "channel" "screen-ocr")
  let captureInterval ← validCaptureInterval (fs.get? "captureInterval")
  let imageSize ← validPixelSize (fs.get? "captureImagePixelSize")
  let captureScope ← enumOf OCRCaptureScope.all OCRCaptureScope.text (fs.get? "captureScope")
  let omittedRegionCount ← safeCount (fs.get? "omittedRegionCount")
  let omittedObservationCount ← safeCount (fs.get? "omittedObservationCount")
  let omittedRecognitionLanguageCount ← safeCount (fs.get? "omittedRecognitionLanguageCount")
  guard (isText fs "sourceClipStatus" "unknown")
  guard (isText fs "sourceTextCompleteness" "unknown")
  guard (isText fs "identityScope" "none")
  guard (isText fs "timeMeaning" "local-capture-interval-not-message-sent-time")
  guard (isText fs "storedTextScope" "full-recognized-keyframe-or-novel-lines-delta")
  guard (isText fs "textToObservationMapping" "none")
  guard (validRequest (fs.get? "request"))
  let regions ← (fs.get? "regions").bind Value.elements?
  guard (regions ≠ [] ∧ regions.length ≤ ocrMaxRegions)
  let checked ← validRegions captureScope imageSize regions
  guard ((checked.map CheckedRegion.observations).sum ≤ ocrMaxTextObservations)
  let localOmissions := (checked.map CheckedRegion.omitted).sum
  guard (if omittedRegionCount = 0 then omittedObservationCount = localOmissions
    else localOmissions ≤ omittedObservationCount)
  let collectorCoverage ←
    enumOf OCRCollectorCoverage.all OCRCollectorCoverage.text (fs.get? "collectorCoverage")
  let nothingOmitted := omittedRegionCount = 0 ∧ omittedObservationCount = 0 ∧
    omittedRecognitionLanguageCount = 0 ∧ localOmissions = 0
  guard (collectorCoverage = .complete ↔ nothingOmitted)
  return ⟨captureInterval, collectorCoverage, omittedRegionCount, omittedObservationCount,
    omittedRecognitionLanguageCount⟩

/-! ### Events -/

/-- A value that is an observation. -/
abbrev SupportedOCRObservation := { value : Value // (readObservation value).isSome = true }

/-- What a summary takes from it. -/
def SupportedOCRObservation.reading (observation : SupportedOCRObservation) : OCRReading :=
  (readObservation observation.1).get observation.2

structure MinniEvent where
  id : String
  ts : String
  source : String
  flags : List String
  (end' : Option String := none)
  app : Option String := none
  bundleId : Option String := none
  window : Option String := none
  url : Option String := none
  name : Option String := none
  kind : Option String := none
  anchorId : Option String := none
  conversationId : Option String := none
  text : String
  observation : Option SupportedOCRObservation := none
  deriving DecidableEq

def eventKeys : List String := ["id", "type", "ts", "source", "flags", "text"]

def eventOptionalKeys : List String :=
  ["end", "app", "bundleId", "window", "url", "name", "kind", "anchorId", "conversationId",
    "observation"]

/-- A string that may be absent. -/
def optionalString (fs : Fields) (key : String) : Option (Option String) :=
  match fs.get? key with
  | none => some none
  | some value => value.str?.map some

section
variable (jsonUtf8Length : Value → Nat)

def decodeSupportedOCRObservation (value : Value) : Option SupportedOCRObservation :=
  if value.printable = true ∧ jsonUtf8Length value ≤ ocrMaxJsonUtf8Bytes then
    if h : (readObservation value).isSome = true then some ⟨value, h⟩ else none
  else none

def decodeEvent (value : Value) : Option MinniEvent := do
  let fs ← value.record?
  guard (exactKeys fs eventKeys eventOptionalKeys)
  let id ← stringWhere nonEmptyString (fs.get? "id")
  guard (isText fs "type" "event")
  let ts ← stringWhere isTimestamp (fs.get? "ts")
  let source ← stringWhere Text.truthy (fs.get? "source")
  let flags ← ((fs.get? "flags").bind Value.elements?).bind fun flags => flags.mapM Value.str?
  let text ← (fs.get? "text").bind Value.str?
  let end' ← optionalString fs "end"
  guard (end'.all fun end' => isTimestamp end' && intervalIsOrdered ts end')
  let app ← optionalString fs "app"
  let bundleId ← optionalString fs "bundleId"
  let window ← optionalString fs "window"
  let url ← optionalString fs "url"
  let name ← optionalString fs "name"
  let kind ← optionalString fs "kind"
  let anchorId ← optionalString fs "anchorId"
  let conversationId ← optionalString fs "conversationId"
  let observation :=
    if source = "minni" ∧ kind = some "ocr" then
      (fs.get? "observation").bind (decodeSupportedOCRObservation jsonUtf8Length)
    else none
  return { id, ts, source, flags, end', app, bundleId, window, url, name, kind, anchorId,
           conversationId, text, observation }

end

def MinniEvent.toValue (e : MinniEvent) : Value :=
  .obj (.cons "id" (.str e.id) (.cons "type" (.str "event") (.cons "ts" (.str e.ts)
    (.cons "source" (.str e.source) (.cons "flags" (.ofStrings e.flags) (.cons "text" (.str e.text)
    (.consOption "end" (e.end'.map .str) (.consOption "app" (e.app.map .str)
    (.consOption "bundleId" (e.bundleId.map .str) (.consOption "window" (e.window.map .str)
    (.consOption "url" (e.url.map .str) (.consOption "name" (e.name.map .str)
    (.consOption "kind" (e.kind.map .str) (.consOption "anchorId" (e.anchorId.map .str)
    (.consOption "conversationId" (e.conversationId.map .str)
    (.consOption "observation" (e.observation.map Subtype.val) .nil))))))))))))))))

/-! ### The response -/

inductive SummaryCodecRefusalReason where
  | invalidProducerResponse | duplicateReturnedEventId | invalidContract | unsupportedContractVersion
  deriving DecidableEq

namespace SummaryCodecRefusalReason

def text : SummaryCodecRefusalReason → String
  | invalidProducerResponse => "invalid_producer_response"
  | duplicateReturnedEventId => "duplicate_returned_event_id"
  | invalidContract => "invalid_contract"
  | unsupportedContractVersion => "unsupported_contract_version"

def all : List SummaryCodecRefusalReason :=
  [invalidProducerResponse, duplicateReturnedEventId, invalidContract, unsupportedContractVersion]

end SummaryCodecRefusalReason

/-- `SummaryCodecResult`. -/
inductive CodecResult (α : Type) where
  | ok (value : α)
  | noAuthorizedEvidence
  | refusal (reason : SummaryCodecRefusalReason)
  deriving DecidableEq

structure AcceptedMinniEvidence where
  items : List MinniEvent
  returnedCount : Nat
  localOnlyWithheldCount : Nat
  deriving DecidableEq

def minniGetEventsMaxItems : Nat := 500

/-- The loop of `decodeMinniGetEventsResponse`. -/
def decodeItems (jsonUtf8Length : Value → Nat) :
    List Value → List MinniEvent → CodecResult (List MinniEvent)
  | [], items => .ok items
  | rawItem :: rest, items =>
      match decodeEvent jsonUtf8Length rawItem with
      | none => .refusal .invalidProducerResponse
      | some event =>
          if (items.map MinniEvent.id).contains event.id then .refusal .duplicateReturnedEventId
          else decodeItems jsonUtf8Length rest (items ++ [event])

def decodeMinniGetEventsResponse (jsonUtf8Length : Value → Nat) (value : Value) :
    CodecResult AcceptedMinniEvidence :=
  match value.record? with
  | none => .refusal .invalidProducerResponse
  | some fs =>
      match (fs.get? "items").bind Value.elements?, safeCount (fs.get? "localOnlyWithheld") with
      | some items, some localOnlyWithheld =>
          if !exactKeys fs ["items", "localOnlyWithheld"] [] ||
              minniGetEventsMaxItems < items.length then .refusal .invalidProducerResponse
          else if items.isEmpty then .noAuthorizedEvidence
          else
            match decodeItems jsonUtf8Length items [] with
            | .ok items => .ok ⟨items, items.length, localOnlyWithheld⟩
            | .noAuthorizedEvidence => .noAuthorizedEvidence
            | .refusal reason => .refusal reason
      | _, _ => .refusal .invalidProducerResponse

end Runir.Minni
