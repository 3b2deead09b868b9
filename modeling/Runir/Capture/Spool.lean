import Runir.Lib.Journal
import Runir.Lib.OrdMap
import Runir.Lib.Text

/-!
# Capture — The source spool

`src/capture/source-turn-spool.ts`: the fsynced journal of source turns, and what the process
holds of it.

* `SourceTurn`, `SpoolEntry`: what a line of the journal says.
* `SpoolIndex`: the pending turns, the forgotten ids, the completed extractions.
* `applyLine`, `initializeSpool`: reading the journal back.
* `appendLines`: one append, which may fail and be rolled back.
* `commitCapture`, `flushAppends`, `markExtracted`, `markDone`, `forgetIds`: what each call does
  while it is its turn in the sequence.

The format of a line is a parameter; a turn that `appendBatch` refuses as unredacted never gets
here, and counts and known ids are left out.
-/

namespace Runir

inductive TurnRole where
  | user | assistant
  deriving DecidableEq

inductive IdentityQuality where
  | native | ordinal | contentOnly
  deriving DecidableEq

inductive TurnScope where
  | user | session | project | team
  deriving DecidableEq

/-- `SourceTurn`, less its proof of redaction, which no line carries. -/
structure SourceTurn where
  id : String
  userId : String
  client : String
  sessionId : String
  sessionEpoch : String
  turnKey : String
  turnIndex : Option Int := none
  role : TurnRole
  content : String
  contentHmac : String
  keyFingerprint : String
  redactionVersion : Nat
  sourceFormat : Nat
  identityQuality : IdentityQuality
  occurredAt : String
  scope : TurnScope
  teamId : Option String := none
  projectKey : Option String := none
  path : Option String := none
  truncated : Bool
  originalBytes : Nat
  deriving DecidableEq

/-- What is kept of a completed extraction. -/
structure ExtractedMarker where
  userId : String
  sessionId : String
  hmac : String
  keyFingerprint : String
  deriving DecidableEq

/-- A line of the journal. -/
inductive SpoolEntry where
  | put (turn : SourceTurn) (queuedAt : Option String)
  | done (id : String)
  | forget (id : String)
  | extracted (id : String) (marker : ExtractedMarker)
  deriving DecidableEq

/-- A pending turn: where its line stands, and what is known of it without reading the line. -/
structure Pending where
  offset : Nat
  length : Nat
  queuedAt : String
  bytes : Nat
  userId : String
  sessionId : String
  hmac : String
  deriving DecidableEq

@[ext] structure SpoolIndex where
  pending : OrdMap String Pending := .empty
  forgotten : List String := []
  extracted : OrdMap String ExtractedMarker := .empty
  deriving DecidableEq

namespace SpoolIndex

def isForgotten (id : String) (s : SpoolIndex) : Bool := id ∈ s.forgotten

def pendingHmac (id : String) (s : SpoolIndex) : Option String := (s.pending.get? id).map (·.hmac)

/-! ### Reading the journal back -/

def pendingOf (turn : SourceTurn) (queuedAt : String) (offset length : Nat) : Pending where
  offset := offset
  length := length
  queuedAt := queuedAt
  bytes := turn.content.utf8ByteSize
  userId := turn.userId
  sessionId := turn.sessionId
  hmac := turn.contentHmac

/-- One line in the loop of `initialize`. -/
def applyLine (offset length : Nat) (entry : SpoolEntry) (s : SpoolIndex) : SpoolIndex :=
  match entry with
  | .put turn queuedAt =>
      if s.isForgotten turn.id then s
      else
        { s with
          pending := s.pending.set turn.id
            (pendingOf turn (queuedAt.getD turn.occurredAt) offset length) }
  | .extracted id marker =>
      if s.isForgotten id then s else { s with extracted := s.extracted.set id marker }
  | .done id => { s with pending := s.pending.erase id }
  | .forget id =>
      { pending := s.pending.erase id
        forgotten := if s.isForgotten id then s.forgotten else s.forgotten ++ [id]
        extracted := s.extracted.erase id }

/-! ### The live updates -/

/-- `pending.set` after an append. -/
def recordPut (queuedAt : String) (s : SpoolIndex) (put : SourceTurn × (Nat × Nat)) : SpoolIndex :=
  { s with pending := s.pending.set put.1.id (pendingOf put.1 queuedAt put.2.1 put.2.2) }

def markerOf (turn : SourceTurn) : ExtractedMarker :=
  ⟨turn.userId, turn.sessionId, turn.contentHmac, turn.keyFingerprint⟩

def recordExtracted (s : SpoolIndex) (turn : SourceTurn) : SpoolIndex :=
  { s with extracted := s.extracted.set turn.id (markerOf turn) }

def recordDone (s : SpoolIndex) (id : String) : SpoolIndex :=
  { s with pending := s.pending.erase id }

def recordForgotten (s : SpoolIndex) (id : String) : SpoolIndex :=
  { pending := s.pending.erase id
    forgotten := if s.isForgotten id then s.forgotten else s.forgotten ++ [id]
    extracted := s.extracted.erase id }

/-! ### What each call appends -/

/-- The earlier content hash of an id, where there is a non-empty one. -/
def priorHmac (s : SpoolIndex) (staged : OrdMap String SourceTurn) (id : String) : Option String :=
  ((s.pendingHmac id).or ((staged.get? id).map (·.contentHmac))).filter Text.truthy

/-- A turn of `commitCapture`: one whose content differs from what is pending is put again. -/
def stageCapture (s : SpoolIndex) (staged : OrdMap String SourceTurn) (turn : SourceTurn) :
    OrdMap String SourceTurn :=
  if s.isForgotten turn.id then staged
  else if s.priorHmac staged turn.id = some turn.contentHmac then staged
  else staged.set turn.id turn

def capturePuts (s : SpoolIndex) (turns : List SourceTurn) : List SourceTurn :=
  (turns.foldl s.stageCapture .empty).values

def captureMarkers (s : SpoolIndex) (completed : List SourceTurn) : List SourceTurn :=
  completed.filter fun turn => !s.isForgotten turn.id

/-- A turn of `flushAppends`: whether it is accepted, and what is staged after it. -/
def stageAppend (s : SpoolIndex) (staged : OrdMap String SourceTurn) (turn : SourceTurn) :
    Bool × OrdMap String SourceTurn :=
  if s.isForgotten turn.id then (false, staged)
  else
    match s.priorHmac staged turn.id with
    | some hmac => (hmac = turn.contentHmac, staged)
    | none => (true, staged.set turn.id turn)

/-- The turns of a batch, in order: which of them are accepted, and what is staged. -/
def stageAppends (s : SpoolIndex) : List SourceTurn → OrdMap String SourceTurn →
    List Bool × OrdMap String SourceTurn
  | [], staged => ([], staged)
  | turn :: turns, staged =>
      let (accepted, staged) := s.stageAppend staged turn
      let (rest, staged) := stageAppends s turns staged
      (accepted :: rest, staged)

/-- The extractions `markExtracted` has not recorded yet. -/
def freshMarkers (s : SpoolIndex) (turns : List SourceTurn) : List SourceTurn :=
  turns.filter fun turn => !s.isForgotten turn.id &&
    (s.extracted.get? turn.id).all fun marker =>
      marker.hmac ≠ turn.contentHmac || marker.userId ≠ turn.userId ||
        marker.keyFingerprint ≠ turn.keyFingerprint

end SpoolIndex

/-! ### The journal -/

structure SpoolJournal where
  file : List UInt8 := []
  rollbackFailed : Bool := false
  deriving DecidableEq

/-- How an append ends: written and synced; failed, with nothing left of it; or failed with a part
of it left, because the rollback failed too. -/
inductive AppendOutcome where
  | synced
  | rolledBack
  | stuck (left : Nat)
  deriving DecidableEq

section
variable (fmt : LineFormat SpoolEntry UInt8)

/-- `appendLines`: where the lines stand, or nothing where it throws. -/
def appendLines (outcome : AppendOutcome) (lines : List SpoolEntry) (j : SpoolJournal) :
    SpoolJournal × Option (List (Nat × Nat)) :=
  if j.rollbackFailed then (j, none)
  else
    match outcome with
    | .synced => ({ j with file := j.file ++ fmt.text lines }, some (fmt.positions j.file.length lines))
    | .rolledBack => (j, none)
    | .stuck left =>
        ({ file := j.file ++ (fmt.text lines).take left, rollbackFailed := true }, none)

/-- `readTurn`: the turn a pending line holds. -/
def readTurn (file : List UInt8) (entry : Pending) : Option SourceTurn :=
  let body := (file.drop entry.offset).take entry.length
  if body.length < entry.length then none
  else
    match fmt.parse body with
    | some (.put turn _) => some turn
    | _ => none

/-- `initialize`: the journal, read chunk by chunk; what follows its last line is cut off. -/
def initializeSpool (chunks : List (List UInt8)) : Option (SpoolJournal × SpoolIndex) :=
  (fmt.readChunks SpoolIndex.applyLine chunks ⟨0, [], {}⟩).map fun r =>
    ({ file := chunks.flatten.take r.offset }, r.state)

/-- The journal and what the process holds of it. -/
@[ext] structure Spool where
  journal : SpoolJournal := {}
  index : SpoolIndex := {}
  deriving DecidableEq

/-- A call's turn in the sequence: its lines are appended, and once they are durable the index is
updated.  A call that has nothing to append does nothing. -/
def Spool.write (outcome : AppendOutcome) (lines : List SpoolEntry)
    (update : List (Nat × Nat) → SpoolIndex → SpoolIndex) (s : Spool) : Spool × Bool :=
  if lines = [] then (s, true)
  else
    match appendLines fmt outcome lines s.journal with
    | (journal, none) => ({ s with journal := journal }, false)
    | (journal, some positions) => (⟨journal, update positions s.index⟩, true)

/-- The puts of a call, at their positions. -/
def recordPuts (queuedAt : String) (puts : List SourceTurn) (positions : List (Nat × Nat))
    (s : SpoolIndex) : SpoolIndex :=
  (puts.zip positions).foldl (SpoolIndex.recordPut queuedAt) s

def putLines (queuedAt : String) (puts : List SourceTurn) : List SpoolEntry :=
  puts.map fun turn => .put turn (some queuedAt)

def markerLines (turns : List SourceTurn) : List SpoolEntry :=
  turns.map fun turn => .extracted turn.id (SpoolIndex.markerOf turn)

/-- `commitCapture`; whether it returns. -/
def commitCapture (turns completed : List SourceTurn) (queuedAt : String) (outcome : AppendOutcome)
    (s : Spool) : Spool × Bool :=
  let puts := s.index.capturePuts turns
  let markers := s.index.captureMarkers completed
  s.write fmt outcome (putLines queuedAt puts ++ markerLines markers) fun positions index =>
    markers.foldl SpoolIndex.recordExtracted (recordPuts queuedAt puts positions index)

/-- A batch of `flushAppends`; the turns it acknowledges as accepted. -/
def flushAppends (requests : List (List SourceTurn)) (queuedAt : String) (outcome : AppendOutcome)
    (s : Spool) : Spool × List SourceTurn :=
  let turns := requests.flatten
  let (accepted, staged) := s.index.stageAppends turns .empty
  let puts := staged.values
  match s.write fmt outcome (putLines queuedAt puts) fun positions =>
      recordPuts queuedAt puts positions with
  | (s', true) => (s', ((turns.zip accepted).filter (·.2)).map (·.1))
  | (s', false) => (s', [])

/-- `markExtracted`; whether it returns. -/
def markExtracted (turns : List SourceTurn) (outcome : AppendOutcome) (s : Spool) : Spool × Bool :=
  let fresh := s.index.freshMarkers turns
  s.write fmt outcome (markerLines fresh) fun _ index => fresh.foldl SpoolIndex.recordExtracted index

/-- The end of a drain: what it has written, and is still pending, is done. -/
def markDone (done : List String) (outcome : AppendOutcome) (s : Spool) : Spool × Bool :=
  let eligible := done.filter fun id =>
    (s.index.pending.get? id).isSome && !s.index.isForgotten id
  s.write fmt outcome (eligible.map .done) fun _ index => eligible.foldl SpoolIndex.recordDone index

/-- `forget`, up to the writes it then waits for; whether it goes on. -/
def forgetIds (ids : List String) (outcome : AppendOutcome) (s : Spool) : Spool × Bool :=
  s.write fmt outcome (ids.map .forget) fun _ index => ids.foldl SpoolIndex.recordForgotten index

end

end Runir
