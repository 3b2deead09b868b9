import Runir.Writes.AtomicShadow
import Runir.Writes.Commit

/-!
# Writes — Shadow tables

`src/storage/surreal/atomic-shadow-store.ts` and `supersede-shadow-store.ts`: what arbitration
records about the decisions it did not take.

* `createAtomicShadowAttempt`, `createAtomicShadowEvent`, `createAtomicShadowNomination`: one row
  each.  A nomination is unique for its write and its candidate.
* `finalizeAtomicShadowAttemptIfComplete`: marks an attempt whose nominations read back exactly.
* `logSupersedeShadow`: swallows its failure.

A column that holds JSON holds the value itself here; whether it prints is asked where the source
prints it.
-/

namespace Runir

structure AtomicShadowAttempt where
  writeEventId : String
  activationClass : AtomicShadowActivationClass
  pairKey : Option String := none
  selectionHash : Option String := none
  retiredCandidateId : Option String := none
  nominationManifestKeys : Option (List String) := none
  frame : AtomicFrameSource
  replayStepId : Option String := none
  errorDetail : Option String := none
  finalized : Bool := false
  deriving DecidableEq

structure AtomicShadowEvent where
  writeEventId : String
  isolatedOutcome : DecisionOutcome
  isolatedMatchedId : Option String
  isolatedReferentProof : Option String
  isolatedGuardKeepBothReason : Option String
  isolatedUnresolved : Bool
  incomingSnapshot : AtomicIncomingSnapshot
  candidateSnapshot : Option AtomicCandidateSnapshot
  laneClockMs : Int
  appliedOutcome : DecisionOutcome
  appliedMatchedId : Option String
  deriving DecidableEq

structure AtomicShadowNomination where
  writeEventId : String
  nomination : AtomicNominationRecord
  deriving DecidableEq

/-- What a lane came to: its outcome, or a judge's answer still to come. -/
inductive LaneOutcome where
  | judgePending
  | outcome (o : DecisionOutcome)
  deriving DecidableEq

structure LiveFlags where
  cueGate : Bool
  temporalGuard : Bool
  keepBothGuard : Bool
  addSkipGuard : Bool
  judgeGate : Bool
  f2JudgeConfirm : Bool
  atomicIdentityProof : Bool
  f2RequireValueChange : Bool
  mergeKeepBothOnFusion : Bool
  deriving DecidableEq

/-- `SupersedeShadowParams`. -/
structure SupersedeShadowParams where
  appliedMemoryId : Option String
  userId : String
  scope : MemoryScope
  sessionId : Option String
  source : WriteSource
  appliedOutcome : DecisionOutcome
  baselineOutcome : LaneOutcome
  wouldOutcome : LaneOutcome
  diverged : Bool
  liveFlags : LiveFlags
  wouldMatchedId : Option String
  wouldCosine : Option ℚ
  wouldSignal : Option SupersedeSignal
  wouldReason : String
  wouldBand : Option Band
  baselineMatchedId : Option String
  baselineBand : Option Band
  incomingTextTrunc : String
  wouldNominationBlocked : Option String
  referentVerdict : Option ReferentStamp
  referentProof : Option String
  incomingTextFull : String
  incomingTags : Option (List String)
  candidateSnapshot : Option ShadowCandidateSnapshot
  shadowCorrelationId : Option String
  writeEventId : String
  deriving DecidableEq

structure Shadow where
  attempts : List AtomicShadowAttempt := []
  events : List AtomicShadowEvent := []
  nominations : List AtomicShadowNomination := []
  supersedeShadow : List SupersedeShadowParams := []
  deriving DecidableEq

abbrev Record (α : Type) := Prog ArbitrateError Shadow α

/-! ### Printing -/

/-- A value that is absent, or that JSON prints. -/
def printableOption (v : Option Value) : Bool := (v.map Value.printable).getD true

def ShadowCandidateSnapshot.printable (s : ShadowCandidateSnapshot) : Bool :=
  printableOption s.factKey && printableOption s.noemaClaimKey && printableOption s.atomicFact

def AtomicCandidateSnapshot.printable (s : AtomicCandidateSnapshot) : Bool :=
  printableOption s.atomicFact

def AtomicIncomingSnapshot.printable (s : AtomicIncomingSnapshot) : Bool :=
  printableOption s.atomicFact

/-- `JSON.stringify`, as far as it may throw. -/
def stringify (printable : Bool) : Record Unit :=
  if printable then pure () else throw .unprintable

/-! ### The writers -/

section
variable (shadow : ShadowEnv)

/-- A query on a shadow table. -/
def shadowQuery (query : ShadowQuery) (f : Shadow → Shadow) : Record Unit :=
  if shadow.answered query then modify f else throw (.shadowTable query)

def createAtomicShadowAttempt (attempt : AtomicShadowAttempt) : Record Unit :=
  shadowQuery shadow .attempt fun s => { s with attempts := s.attempts ++ [attempt] }

def createAtomicShadowEvent (event : AtomicShadowEvent) : Record Unit :=
  shadowQuery shadow .event fun s => { s with events := s.events ++ [event] }

/-- The rows of a write, as their unique index sees them. -/
def nominatedIds (writeEventId : String) (s : Shadow) : List String :=
  (s.nominations.filter fun n => n.writeEventId = writeEventId).map
    (·.nomination.nominationCandidateId)

def createAtomicShadowNomination (nomination : AtomicShadowNomination) : Record Unit := do
  let query := .nomination nomination.nomination.nominationCandidateId
  let s ← get
  if (nominatedIds nomination.writeEventId s).contains
      nomination.nomination.nominationCandidateId then
    throw (.shadowTable query)
  else shadowQuery shadow query fun s => { s with nominations := s.nominations ++ [nomination] }

/-- The attempts of a write, marked. -/
def finalizeAttempts (writeEventId : String) (s : Shadow) : Shadow :=
  { s with
    attempts := s.attempts.map fun a =>
      if a.writeEventId = writeEventId then { a with finalized := true } else a }

def finalizeAtomicShadowAttemptIfComplete (writeEventId : String)
    (manifestCandidateIds : List String) : Record Bool := do
  shadowQuery shadow .readBack id
  let persistedIds := nominatedIds writeEventId (← get)
  if persistedIds.length = manifestCandidateIds.length ∧
      (distinct persistedIds).length = manifestCandidateIds.length ∧
      (distinct persistedIds).length = (distinct manifestCandidateIds).length ∧
      manifestCandidateIds.all persistedIds.contains then do
    shadowQuery shadow .finalize (finalizeAttempts writeEventId)
    pure true
  else pure false

def logSupersedeShadow (params : SupersedeShadowParams) : Record Unit :=
  if shadow.answered .supersedeShadow then
    modify fun s => { s with supersedeShadow := s.supersedeShadow ++ [params] }
  else pure ()

end

end Runir
