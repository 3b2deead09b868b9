import Runir.Capture.Extraction
import Runir.Lib.OrdMap
import Runir.Lib.Shared

/-!
# Lifecycle — Usefulness

`src/lifecycle/semion/usefulness-feedback.ts` and `usefulness-accrual.ts`, with
`patchSemioteUsefulness` of `src/storage/surreal/phase2-store.ts` and the seam
`fireUsefulnessAccrual` of the capture hook puts between them.

* `applyUsefulnessFeedback`: the state of a memory after one more evaluation.
* `buildUsefulnessAccrual`: the patches of one answer.
* `UsefulnessStore`: the memories and the traces, and what has been evaluated so far.
* `accrueUsefulnessFromCapture`: the run, query by query.

Numbers are exact.
-/

namespace Runir
open Shared Recall

/-! ### Evidence -/

/-- `Resolution`. -/
inductive Resolution where
  | explicitSuccess | implicitSuccess | rephrased | failure
  deriving DecidableEq

/-- `clamp(value)`. -/
def clampUnit (value : ℚ) : ℚ := min 1 (max 0 value)

/-- A character of `[\p{L}\p{N}_]`. -/
def isTokenChar (u : Unicode) (c : Char) : Bool := u.isL c || u.isN c || c == '_'

/-- The words of a text, but for those of one code unit. -/
def tokenize (u : Unicode) (text : String) : List String :=
  (((u.toLowerCase text).toList.splitOnP fun c => !isTokenChar u c).map String.ofList).filter
    fun token => 1 < Text.length token

def lexicalOverlap (u : Unicode) (memoryText answer : String) : ℚ :=
  let memoryTokens := distinct (tokenize u memoryText)
  let answerTokens := distinct (tokenize u answer)
  if memoryTokens.length = 0 ∨ answerTokens.length = 0 then 0
  else
    let overlap := (memoryTokens.filter fun token => answerTokens.contains token).length
    clampUnit (overlap / memoryTokens.length)

def resolutionWeight : Option Resolution → ℚ
  | some .explicitSuccess => 1
  | some .implicitSuccess => 4 / 5
  | some .rephrased => 9 / 20
  | some .failure => 0
  | none => 7 / 10

/-- `Partial<UsefulnessState>`; the usefulness columns of a memory, and of its payload. -/
structure PartialUsefulness where
  usefulnessAlpha : Option ℚ := none
  usefulnessBeta : Option ℚ := none
  usefulnessScore : Option ℚ := none
  retrievedCount : Option Nat := none
  usedCount : Option Nat := none
  successfulUseCount : Option Nat := none
  crossSessionUseCount : Option Nat := none
  contradictionCount : Option Nat := none
  lastRetrievedAt : Option String := none
  lastUsedAt : Option String := none
  lastEvaluatedAt : Option String := none

structure UsefulnessState where
  usefulnessAlpha : ℚ
  usefulnessBeta : ℚ
  usefulnessScore : ℚ
  retrievedCount : Nat
  usedCount : Nat
  successfulUseCount : Nat
  crossSessionUseCount : Nat
  contradictionCount : Nat
  lastRetrievedAt : String
  lastUsedAt : Option String
  lastEvaluatedAt : String

structure UsefulnessFeedbackInput where
  memoryText : String
  answer : String
  responseResolution : Option Resolution := none
  corrected : Bool
  crossSession : Bool
  previous : PartialUsefulness
  traceCreatedAt : Option String := none

def UsefulnessFeedbackInput.evidence (u : Unicode) (input : UsefulnessFeedbackInput) : ℚ :=
  let evidence := 13 / 20 * lexicalOverlap u input.memoryText input.answer +
    7 / 20 * resolutionWeight input.responseResolution
  let evidence := if input.corrected then evidence - 7 / 10 else evidence
  let evidence := if input.crossSession then evidence + 1 / 20 else evidence
  clampUnit evidence

/-- The alpha and the beta of a memory that has none. -/
def initializeUsefulnessState (confidence : Option ℚ) : ℚ × ℚ :=
  let prior := clampUnit (confidence.getD (1 / 2))
  (1 + 4 * prior, 1 + 4 * (1 - prior))

/-- `now` is the clock of the call, or the date it is given. -/
def applyUsefulnessFeedback (u : Unicode) (now : String) (input : UsefulnessFeedbackInput) :
    UsefulnessState :=
  let previous := input.previous
  let base := initializeUsefulnessState previous.usefulnessScore
  let evidence := input.evidence u
  let nextAlpha := previous.usefulnessAlpha.getD base.1 + evidence
  let nextBeta := previous.usefulnessBeta.getD base.2 + (1 - evidence)
  let used : Bool := decide (7 / 20 ≤ evidence)
  let successful : Bool := decide (7 / 10 ≤ evidence) && !input.corrected
  { usefulnessAlpha := nextAlpha
    usefulnessBeta := nextBeta
    usefulnessScore := nextAlpha / (nextAlpha + nextBeta)
    retrievedCount := previous.retrievedCount.getD 0 + 1
    usedCount := previous.usedCount.getD 0 + used.toNat
    successfulUseCount := previous.successfulUseCount.getD 0 + successful.toNat
    crossSessionUseCount := previous.crossSessionUseCount.getD 0 +
      (successful && input.crossSession).toNat
    contradictionCount := previous.contradictionCount.getD 0 + input.corrected.toNat
    lastRetrievedAt := input.traceCreatedAt.getD now
    lastUsedAt := if used then some now else previous.lastUsedAt
    lastEvaluatedAt := now }

/-! ### Patches -/

structure PriorSemioteUsefulness where
  id : String
  memoryText : String
  previous : PartialUsefulness
  statusRetrievedCount : Nat
  statusUsedCount : Nat

structure AccrualPatch extends UsefulnessState where
  id : String
  statusRetrievedCount : Option Nat := none
  statusUsedCount : Option Nat := none

/-- What an answer is evaluated against the memories with; a capture gives no resolution, and no
correction. -/
structure AccrualParams where
  answer : String
  intentLabel : QueryIntent
  responseResolution : Option Resolution := none
  corrected : Bool := false
  crossSession : Bool := false
  traceCreatedAt : Option String := none

def AccrualParams.input (params : AccrualParams) (row : PriorSemioteUsefulness) :
    UsefulnessFeedbackInput where
  memoryText := row.memoryText
  answer := params.answer
  responseResolution := params.responseResolution
  corrected := params.corrected
  crossSession := params.crossSession
  previous := row.previous
  traceCreatedAt := params.traceCreatedAt

/-- The patch of one row. -/
def AccrualParams.patch (u : Unicode) (now : String) (params : AccrualParams)
    (row : PriorSemioteUsefulness) : AccrualPatch :=
  let next := applyUsefulnessFeedback u now (params.input row)
  if isStatusClassIntent params.intentLabel then
    let wasUsed : Bool := decide (row.previous.usedCount.getD 0 < next.usedCount)
    { next with
      id := row.id
      statusRetrievedCount := some (row.statusRetrievedCount + 1)
      statusUsedCount := some (row.statusUsedCount + wasUsed.toNat) }
  else { next with id := row.id }

def buildUsefulnessAccrual (u : Unicode) (now : String) (params : AccrualParams)
    (rows : List PriorSemioteUsefulness) : List AccrualPatch :=
  rows.map (params.patch u now)

/-! ### The store -/

/-- What a memory's row has to do with its usefulness. -/
structure UsefulnessRow where
  columns : PartialUsefulness := {}
  statusRetrievedCount : Option Nat := none
  statusUsedCount : Option Nat := none
  payload : PartialUsefulness := {}
  confidence : Option ℚ := none
  l2 : Option String := none
  data : Option String := none

/-- The row as the capture hook loads it. -/
def UsefulnessRow.prior (row : UsefulnessRow) (id : String) : PriorSemioteUsefulness where
  id := id
  memoryText := (row.l2.or row.data).getD ""
  statusRetrievedCount := row.statusRetrievedCount.getD 0
  statusUsedCount := row.statusUsedCount.getD 0
  previous :=
    { usefulnessAlpha := some ((row.columns.usefulnessAlpha.or row.payload.usefulnessAlpha).getD 0)
      usefulnessBeta := some ((row.columns.usefulnessBeta.or row.payload.usefulnessBeta).getD 0)
      usefulnessScore := some (((row.columns.usefulnessScore.or row.payload.usefulnessScore).or
        row.confidence).getD (1 / 2))
      retrievedCount := some ((row.columns.retrievedCount.or row.payload.retrievedCount).getD 0)
      usedCount := some ((row.columns.usedCount.or row.payload.usedCount).getD 0)
      successfulUseCount := some
        ((row.columns.successfulUseCount.or row.payload.successfulUseCount).getD 0)
      crossSessionUseCount := some
        ((row.columns.crossSessionUseCount.or row.payload.crossSessionUseCount).getD 0)
      contradictionCount := some
        ((row.columns.contradictionCount.or row.payload.contradictionCount).getD 0)
      lastRetrievedAt := row.columns.lastRetrievedAt.or row.payload.lastRetrievedAt
      lastUsedAt := row.columns.lastUsedAt.or row.payload.lastUsedAt
      lastEvaluatedAt := row.columns.lastEvaluatedAt.or row.payload.lastEvaluatedAt }

/-- `patchSemioteUsefulness`, on the row. -/
def UsefulnessRow.patched (row : UsefulnessRow) (patch : AccrualPatch) : UsefulnessRow :=
  let payload : PartialUsefulness :=
    { usefulnessAlpha := some patch.usefulnessAlpha
      usefulnessBeta := some patch.usefulnessBeta
      usefulnessScore := some patch.usefulnessScore
      retrievedCount := some patch.retrievedCount
      usedCount := some patch.usedCount
      successfulUseCount := some patch.successfulUseCount
      crossSessionUseCount := some patch.crossSessionUseCount
      contradictionCount := some patch.contradictionCount
      lastRetrievedAt := some patch.lastRetrievedAt
      lastUsedAt := patch.lastUsedAt
      lastEvaluatedAt := some patch.lastEvaluatedAt }
  { row with
    columns := { payload with lastUsedAt := patch.lastUsedAt.or row.columns.lastUsedAt }
    statusRetrievedCount := patch.statusRetrievedCount.or row.statusRetrievedCount
    statusUsedCount := patch.statusUsedCount.or row.statusUsedCount
    payload := payload }

structure AccrualTrace where
  id : String
  sessionId : Option String
  intentLabel : QueryIntent
  createdAt : String
  items : List String

/-- One evaluation of a memory: what it counts as. -/
structure Evaluation where
  id : String
  evidence : ℚ
  used : Bool
  successful : Bool
  status : Bool

/-- What the patch of a row evaluates. -/
def AccrualParams.evaluation (u : Unicode) (params : AccrualParams) (row : PriorSemioteUsefulness) :
    Evaluation :=
  let evidence := (params.input row).evidence u
  { id := row.id
    evidence := evidence
    used := decide (7 / 20 ≤ evidence)
    successful := decide (7 / 10 ≤ evidence) && !params.corrected
    status := isStatusClassIntent params.intentLabel }

/-- The traces of each user, the newest first; the memories; and the evaluations that have been
written, by whom, the last first, which no query reads. -/
structure UsefulnessStore where
  traces : String → List AccrualTrace
  rows : OrdMap String UsefulnessRow
  evaluations : List (Nat × Evaluation) := []

/-- The evaluation a patch stands for comes with it. -/
inductive UsefulnessQuery where
  | listTraces (userId : String) (limit : Nat)
  | loadPriorState (ids : List String)
  | persistPatch (patch : AccrualPatch) (evaluation : Evaluation)

abbrev UsefulnessQuery.Reply : UsefulnessQuery → Type
  | .listTraces _ _ => List AccrualTrace
  | .loadPriorState _ => List PriorSemioteUsefulness
  | .persistPatch _ _ => Unit

def UsefulnessStore.perform (caller : Nat) : (q : UsefulnessQuery) → UsefulnessStore →
    UsefulnessStore × Option q.Reply
  | .listTraces userId limit, s => (s, some ((s.traces userId).take limit))
  | .loadPriorState ids, s =>
      (s, some ((s.rows.entries.filter fun e => ids.contains e.1).map fun e => e.2.prior e.1))
  | .persistPatch patch evaluation, s =>
      match s.rows.get? patch.id with
      | none => (s, some ())
      | some row =>
          ({ s with
              rows := s.rows.set patch.id (row.patched patch)
              evaluations := (caller, evaluation) :: s.evaluations }, some ())

/-! ### The run -/

/-- `UsefulnessAccrualResult`. -/
inductive AccrualResult where
  | ok (traceId : String) (evaluated : Nat) (statusConditioned : Bool)
  | noAssistantTurn
  | noTrace
  | noRows (traceId : String)
  | error

abbrev AccrualRoutine := Routine UsefulnessQuery UsefulnessQuery.Reply

def findLastAssistantAnswer (messages : List CaptureMessage) : Option String :=
  match messages.getLast? with
  | none => none
  | some last =>
      if last.role ≠ "assistant" then none
      else
        let text := Text.trim last.content
        if 0 < Text.length text then some text else none

def pickTraceForSession (traces : List AccrualTrace) (sessionId : Option String) :
    Option AccrualTrace :=
  if sessionId.any Text.truthy then traces.find? fun t => t.sessionId == sessionId else traces.head?

structure UsefulnessAccrualParams where
  userId : String
  sessionId : Option String := none
  messages : List CaptureMessage
  traceLookback : Nat := 10
  now : String

/-- The patches are written one by one, until one raises. -/
def persistPatches : List (AccrualPatch × Evaluation) → AccrualRoutine Bool
  | [] => return true
  | (patch, evaluation) :: rest => do
      match ← Routine.attempt (UsefulnessQuery.persistPatch patch evaluation) with
      | none => return false
      | some _ => persistPatches rest

/-- The rows of a trace are evaluated. -/
def accrueRows (u : Unicode) (now : String) (trace : AccrualTrace) (answer : String)
    (rows : List PriorSemioteUsefulness) : AccrualRoutine AccrualResult := do
  if rows.isEmpty then
    return .noRows trace.id
  else
    let params : AccrualParams :=
      { answer := answer, intentLabel := trace.intentLabel, traceCreatedAt := some trace.createdAt }
    let patches := buildUsefulnessAccrual u now params rows
    if ← persistPatches (patches.zip (rows.map (params.evaluation u))) then
      return .ok trace.id patches.length (isStatusClassIntent trace.intentLabel)
    else
      return .error

def accrueTrace (u : Unicode) (now : String) (trace : AccrualTrace) (answer : String) :
    AccrualRoutine AccrualResult := do
  let itemIds := trace.items.filter Text.truthy
  if itemIds.isEmpty then
    return .noRows trace.id
  else
    match ← Routine.attempt (UsefulnessQuery.loadPriorState itemIds) with
    | none => return .error
    | some rows => accrueRows u now trace answer rows

def accrueUsefulnessFromCapture (u : Unicode) (params : UsefulnessAccrualParams) :
    AccrualRoutine AccrualResult := do
  match findLastAssistantAnswer params.messages with
  | none => return .noAssistantTurn
  | some answer =>
      match ← Routine.attempt (UsefulnessQuery.listTraces params.userId params.traceLookback) with
      | none => return .error
      | some traces =>
          match pickTraceForSession traces params.sessionId with
          | none => return .noTrace
          | some trace => accrueTrace u params.now trace answer

end Runir
