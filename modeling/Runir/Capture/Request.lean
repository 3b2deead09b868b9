import Runir.Lib.Attempt
import Runir.Capture.Extraction
import Runir.Capture.Spool

/-!
# Capture — The request

`/hooks/capture` in `src/app/routes/hooks/index.ts`, with the source store on.

* `CaptureEnv`: what the request carries, and how every step it waits for ends.
* `sourceTurns`: which turns it reserves, which of them an extraction would complete, and which
  messages were extracted before.
* `rawFacts`: the facts that go on to the writes, each with the source it is attributed to.
* `hooksCapture`: all exits, and what each of them has committed to the spool.

A step that is awaited may raise.  What a step does besides ending, in the database or in a log, is
left out.
-/

namespace Runir
open Attempt

/-- The steps that may raise, in the order they are first taken. -/
inductive CaptureStep where
  | resolveContext | resolveSession | resolveHexis | parseReceipt | buildContext | validateReceipt
  | compress | fingerprint | seedKnownIds | seenCandidates | readRows | reserve | persistReceipt
  | salience | dedup | readShown
  | arbitrate (place : Nat) | relate (place : Nat)
  | projectState | linkEntities
  | commitSeen | commitNoise | commitRedaction | commitEmpty | commitWritten | commitLeft
  deriving DecidableEq

/-- How a request is answered. -/
inductive CaptureResponse where
  | noMessages | noNormalizable | redactionDrop | badReceipt | alreadyCaptured | noApiKey
  | noiseBank | noFacts | captured | failed
  deriving DecidableEq

/-- A row of `session_turn`, as the request reads it. -/
structure StoredTurn where
  userId : Option String
  contentHmac : Option String
  keyFingerprint : Option String

structure CaptureEnv where
  ex : ExtractionHost
  reader : ReplyReader
  /-- `normalizeCaptureMessages(body.messages)`. -/
  formatted : List CaptureMessage
  messagesGiven : Bool := true
  redactable : Bool := true
  receiptRequested : Bool := false
  apiKey : Bool := true
  /-- The noise bank is asked, and says so. -/
  isNoise : Bool := false
  /-- `compressMessagesWithIndices`: the places of the messages that are kept, in order. -/
  retained : List Nat
  /-- `prepareSourceTurn`, of the message at a place; `none` where it throws. -/
  prepare : Nat → Option SourceTurn
  /-- `knownIds`, or all ids before they are seeded. -/
  known : String → Bool
  /-- The index of the spool when the turns are looked up, and when they are reserved. -/
  seenIndex : SpoolIndex
  reserveIndex : SpoolIndex
  stored : String → Option StoredTurn
  reply : ModelReply
  /-- `redactFact`; `none` where it throws. -/
  redactFact : FactObject → Option FactObject
  /-- Which places the duplicates and the facts that were shown before leave. -/
  keeps : Nat → Bool := fun _ => true
  shownIds : Bool := false
  /-- A fact that is too short, or noise. -/
  isRejected : FactObject → Bool := fun _ => false
  /-- A fact that was derived from one shown before. -/
  isDerived : Nat → Bool := fun _ => false
  debug : Bool := false
  raises : CaptureStep → Bool := fun _ => false

namespace CaptureEnv
variable (env : CaptureEnv)

/-- The input of the extraction. -/
def compressed : List CaptureMessage := env.retained.filterMap fun place => env.formatted[place]?

/-- `compressedWithIndices[idx].originalIndex`. -/
def originalIndex (idx : ℚ) : Option Nat :=
  if 0 ≤ idx ∧ idx.den = 1 then env.retained[idx.num.toNat]? else none

/-! ### Sources -/

def keyAllowed : Bool := !env.raises .fingerprint

/-- The turns of the messages that can be prepared, with the places of these. -/
def prepared : List (Nat × SourceTurn) :=
  (List.range env.formatted.length).filterMap fun place =>
    (env.prepare place).map fun turn => (place, turn)

/-- The part of `seenCandidates` that says the turn was extracted before. -/
def isExtracted (turn : SourceTurn) : Bool :=
  !env.seenIndex.isForgotten turn.id && (env.seenIndex.extracted.get? turn.id).any fun marker =>
    decide (marker.userId = turn.userId) && decide (marker.hmac = turn.contentHmac) &&
      decide (marker.keyFingerprint = turn.keyFingerprint)

/-- A turn that is known and was not extracted is looked up. -/
def isUnresolved (turn : SourceTurn) : Bool := env.known turn.id && !env.isExtracted turn

def storedRow (turn : SourceTurn) : Option StoredTurn :=
  if env.prepared.any (fun p => env.isUnresolved p.2 && decide (p.2.id = turn.id)) then
    env.stored turn.id
  else none

/-- The row of a turn's id is of another turn. -/
def conflicts (turn : SourceTurn) : Bool :=
  (env.storedRow turn).any fun row =>
    decide (row.userId ≠ some turn.userId) || !row.contentHmac.any Text.truthy ||
      decide (row.contentHmac ≠ some turn.contentHmac) ||
      decide (row.keyFingerprint ≠ some turn.keyFingerprint)

/-- Whether a turn needs no extraction any more. -/
def isSeen (turn : SourceTurn) : Bool :=
  !env.conflicts turn && decide (turn.identityQuality ≠ .contentOnly) &&
    (env.seenIndex.isForgotten turn.id && (env.storedRow turn).isNone || env.isExtracted turn)

def unseen : List (Nat × SourceTurn) := env.prepared.filter fun p => !env.isSeen p.2

/-- `alreadyExtractedIndices`. -/
def alreadyExtracted : List Nat :=
  if env.keyAllowed then (env.prepared.filter fun p => env.isSeen p.2).map (·.1) else []

/-- No message that is kept has a turn that needs an extraction, and all could be prepared. -/
def allCaptured : Bool :=
  !env.unseen.any (fun p => env.retained.contains p.1) &&
    decide (env.prepared.length = env.formatted.length)

/-- `reserveCapture` accepts what was not forgotten. -/
def isAccepted (turn : SourceTurn) : Bool := !env.reserveIndex.isForgotten turn.id

/-- The turns that are reserved. -/
def reservedTurns : List SourceTurn := (env.unseen.map (·.2)).filter env.isAccepted

/-- `sourceTurnsByMessage`: of two entries of a place the later one counts. -/
def sourceTurnsByMessage : List (Nat × (SourceTurn × Bool)) :=
  if env.keyAllowed then
    (env.unseen.map fun p => (p.1, (p.2, env.isAccepted p.2))) ++
      (env.prepared.filter fun p => env.isSeen p.2).map fun p => (p.1, (p.2, true))
  else []

/-- `extractionCompletionTurns`, once they are cut down to what the extraction is shown. -/
def completionTurns : List SourceTurn :=
  if env.keyAllowed then
    (env.reservedTurns.filter fun turn => turn.identityQuality ≠ .contentOnly).filter fun turn =>
      env.sourceTurnsByMessage.any fun entry =>
        env.retained.contains entry.1 && decide (entry.2.1.id = turn.id)
  else []

/-! ### Facts -/

def extractedRawFacts : List FactObject :=
  extractMemories env.ex env.reader env.compressed env.reply

/-- A fact of a message that was extracted before. -/
def isOldSource (sourceTurnIndex : Option ℚ) : Bool :=
  (sourceTurnIndex.bind env.originalIndex).any env.alreadyExtracted.contains

/-- `rawFacts`, with `sourceIndexByFact`; `none` where a fact cannot be redacted. -/
def rawFacts : Option (List (FactObject × Option ℚ)) :=
  (env.extractedRawFacts.filter fun fact => !env.isOldSource fact.sourceTurnIndex).mapM fun fact =>
    (env.redactFact fact).map fun redacted =>
      (normalizeExtractedFact env.ex redacted, fact.sourceTurnIndex)

/-- The message a fact is written for. -/
def messageOf (entry : FactObject × Option ℚ) : Option Nat := entry.2.bind env.originalIndex

/-- The turn its memory is linked to. -/
def linkOf (entry : FactObject × Option ℚ) : Option (SourceTurn × Bool) :=
  (env.messageOf entry).bind fun place => env.sourceTurnsByMessage.reverse.lookup place

/-- The facts of the write loop, with their places. -/
def filteredFacts (facts : List (FactObject × Option ℚ)) :
    List ((FactObject × Option ℚ) × Nat) :=
  facts.zipIdx.filter fun p => env.keeps p.2

end CaptureEnv

/-! ### The handler -/

/-- A call of `commitCapture`. -/
structure SpoolCall where
  turns : List SourceTurn
  completed : List SourceTurn

structure CaptureState where
  calls : List SpoolCall := []
  reserved : List SourceTurn := []
  committed : Bool := false
  /-- `lockCaptureTurns` has returned. -/
  locked : Bool := false
  /-- The facts the write loop is through with. -/
  passed : List (FactObject × Option ℚ) := []

abbrev Handler (α : Type) := EStateM CaptureResponse CaptureState α

namespace CaptureEnv
variable (env : CaptureEnv)

def await (step : CaptureStep) : Handler Unit := throwIf (env.raises step) .failed

/-- `commitCapture(reservedCaptureTurns, completed)`. -/
def commit (completed : List SourceTurn) (step : CaptureStep) : Handler Unit := do
  modify fun s => { s with calls := s.calls ++ [⟨s.reserved, completed⟩] }
  env.await step
  modify fun s => { s with committed := true }

/-- What comes before the sources. -/
def bindRequest : Handler Unit := do
  throwIf (!env.messagesGiven) .noMessages
  env.await .resolveContext
  throwIf (decide (env.formatted = [])) .noNormalizable
  throwIf (!env.redactable) .redactionDrop
  onlyIf (!env.receiptRequested) do
    env.await .resolveSession
    env.await .resolveHexis
  throwIf (env.receiptRequested && env.raises .parseReceipt) .badReceipt
  env.await .buildContext
  onlyIf env.receiptRequested do
    env.await .validateReceipt
    env.await .resolveSession
    env.await .resolveHexis
  env.await .compress

def reserve : Handler Unit := do
  env.await .reserve
  modify fun s => { s with reserved := env.reservedTurns }

/-- The answer where no message that is kept needs an extraction. -/
def answerCaptured : Handler Unit := do
  onlyIf (decide (env.unseen ≠ [])) do
    env.reserve
    env.commit [] .commitSeen
  onlyIf env.receiptRequested (env.await .persistReceipt)
  throw .alreadyCaptured

/-- The sources are reserved, or the request is answered without an extraction. -/
def reserveSources : Handler Unit :=
  onlyIf env.keyAllowed do
    env.await .seedKnownIds
    modify fun s => { s with locked := true }
    env.await .seenCandidates
    onlyIf (env.prepared.any fun p => env.isUnresolved p.2) (env.await .readRows)
    onlyIf env.allCaptured env.answerCaptured
    env.reserve

/-- One round of the write loop; what fails in linking a source is caught. -/
def writeFact (entry : (FactObject × Option ℚ) × Nat) : Handler Unit := do
  onlyIf (!env.isRejected entry.1.1) do
    env.await (.arbitrate entry.2)
    onlyIf (env.isDerived entry.2) (env.await (.relate entry.2))
  modify fun s => { s with passed := s.passed ++ [entry.1] }

/-- What comes after the extraction. -/
def writeFacts : Handler Unit :=
  match env.rawFacts with
  | none => do
      env.commit [] .commitRedaction
      throw .redactionDrop
  | some [] => do
      onlyIf env.receiptRequested (env.await .persistReceipt)
      env.commit env.completionTurns .commitEmpty
      throw .noFacts
  | some (fact :: facts) => do
      env.await .dedup
      onlyIf env.shownIds (env.await .readShown)
      (env.filteredFacts (fact :: facts)).forM env.writeFact
      env.await .projectState
      onlyIf env.debug (env.await .linkEntities)
      onlyIf env.receiptRequested (env.await .persistReceipt)
      env.commit env.completionTurns .commitWritten
      throw .captured

/-- The body of the handler; every way it ends is a response. -/
def handle : Handler Unit := do
  env.bindRequest
  env.reserveSources
  env.await .salience
  throwIf (!env.apiKey) .noApiKey
  onlyIf env.isNoise do
    env.commit [] .commitNoise
    throw .noiseBank
  env.writeFacts

/-- The `finally` of the handler: what was reserved and not committed is, and the locks go. -/
def leave (s : CaptureState) : CaptureState :=
  if !s.committed && decide (s.reserved ≠ []) then
    { s with calls := s.calls ++ [⟨s.reserved, []⟩], locked := false }
  else { s with locked := false }

/-- `/hooks/capture`: the response, and what it leaves. -/
def hooksCapture : CaptureResponse × CaptureState :=
  match env.handle.run {} with
  | .ok _ s => (.failed, leave s)
  | .error response s => (response, leave s)

end CaptureEnv

/-! ### A request of one message -/

def turnOfMessage : SourceTurn where
  id := "x"
  userId := "u"
  client := "c"
  sessionId := "s"
  sessionEpoch := ""
  turnKey := "k"
  role := .user
  content := "I moved to Oslo"
  contentHmac := "h"
  keyFingerprint := "f"
  redactionVersion := 1
  sourceFormat := 1
  identityQuality := .native
  occurredAt := "2026-01-01T00:00:00.000Z"
  scope := .user
  truncated := false
  originalBytes := 15

/-- A request of one message, as the model replies to it. -/
def requestOfOne (reader : ReplyReader) (reply : ModelReply) : CaptureEnv where
  ex := .ascii
  reader := reader
  formatted := [⟨"user", "I moved to Oslo"⟩]
  retained := [0]
  prepare place := if place = 0 then some turnOfMessage else none
  known := fun _ => false
  seenIndex := {}
  reserveIndex := {}
  stored := fun _ => none
  reply := reply
  redactFact := some

end Runir
