import Runir.Writes.Shadow

/-!
# Writes — Arbitrate

`arbitrateWrite` of `src/storage/writes/write-arbitrator.ts`: the decide step, the shadow of it,
and the commit step.

* `prepare`: the configuration, the cache view, the candidates, the decision; it changes nothing.
* `shadowLanes`: the decision with every flip flag on and the one with every flag off.
* `atomicIsolated`, `attemptRow`, `emitAtomicFrameArtifacts`: the isolated evaluation and its
  rows.  A failed attempt row is thrown, the rest is swallowed.
* `emitShadow`: the report on the lanes, after the branch.
-/

namespace Runir

open Prog

section
variable (env : ArbitrateEnv) (shadow : ShadowEnv) (input : WriteArbitrationInput)

/-! ### Deciding -/

/-- The floor of the correction pass: the environment's when it is set, else the caller's; what
is out of range falls back to the merge threshold. -/
def resolvedFloor (config : ArbitrationConfig) : ℚ :=
  let clamp := fun v : ℚ =>
    if 0 < v ∧ v ≤ config.mergeThreshold then v else config.mergeThreshold
  match env.candidateFloor with
  | some (some v) => clamp v
  | some none => config.mergeThreshold
  | none => (config.supersedeCandidateFloor.map clamp).getD config.mergeThreshold

def resolvedConfig : ArbitrationConfig :=
  { input.config with supersedeCandidateFloor := some (resolvedFloor env input.config) }

def recentWriteTtlMs : ℚ := input.config.recentWriteTtlMinutes * 60 * 1000

def pruneNowMs : Int := nowAt env input .prune

/-- The entries the cache view holds for the call. -/
def recentCandidates (s : Applied) : List RecentWrite :=
  ((prunedRecentWritesView (recentWriteTtlMs input) (pruneNowMs env input) s.recentWrites).get?
    (getRecentWriteKey input.userId input.scope input.sessionId)).getD []

/-- The candidates of the call; none when the fingerprint does not match. -/
def similarCandidates (s : Applied) : Except ArbitrateError (List SimilarCandidate) :=
  if input.fingerprintOk = some false then .ok []
  else if env.reply .search ≠ .answered then .error (.unreachable .search)
  else
    .ok (findSimilarMemories env.cosine (nowAt env input .search) input.userId input.embedding
      (resolvedConfig env input).mergeWindowHours (resolvedConfig env input).candidateLimit
      (some input.scope) input.sessionId s.rows)

def incomingTags : Option (List String) := (metadataProp input "tags").bind Value.strings?

def incomingValidAt : Option String := (metadataProp input "validAt").bind Value.str?

def incomingTier : Option String := (metadataProp input "tier").bind Value.str?

def incomingReferentKeys : ReferentKeys :=
  referentKeys env.host (metadataProp input "factKey") (metadataProp input "continuitySubjectKey")
    (metadataProp input "atomicFact")

/-- The judge is asked only where the gate is open and there is one. -/
def judgeEnabled : Bool := env.flags.judgeGate && input.judge.isSome

/-- The anchor of the temporal guard, read only where the guard is on. -/
def arbitrationNowMs : Int :=
  if env.flags.supersedeTemporalGuard then env.clock .arbitration else 0

def laneClockMs : Int := nowAt env input .lane

/-- The parameters of the applied decision. -/
def appliedInput (recent : List RecentWrite) (similar : List SimilarCandidate) : ResolveInput where
  text := input.text
  recentCandidates := recent
  similarCandidates := similar
  embedding := input.embedding
  config := resolvedConfig env input
  incomingTags := incomingTags input
  judgeEnabled := judgeEnabled env input
  keepBothGuardEnabled := env.flags.mergeKeepBothGuard
  temporalGuardEnabled := env.flags.supersedeTemporalGuard
  incomingValidAt := incomingValidAt input
  incomingTier := incomingTier input
  arbitrationNowMs := arbitrationNowMs env
  additiveSkipGuard := env.flags.additiveSkipGuard
  cueGateParam := env.flags.cueGate
  incomingKeys := incomingReferentKeys env input
  withinHoursNowMs := input.nowMs
  f2JudgeConfirm := env.flags.f2JudgeConfirm
  atomicAuthority := env.flags.atomicFactIdentityProof
  laneClockMs := laneClockMs env input
  f2RequireValueChange := env.flags.f2RequireValueChange
  mergeKeepBothOnFusion := env.flags.mergeKeepBothOnFusion

/-- The resolution of an escalation; one without a candidate cannot be read. -/
def resolveEscalation (judge : Option JudgeHandle) (decisionId : String)
    (temporalGuardEnabled : Bool) (nowMs : Int) (f2ConfirmOrigin : Bool)
    (decision : ArbitrationDecision) : Except ArbitrateError ArbitrationDecision :=
  match decision.candidate with
  | none => .error .noCandidate
  | some candidate =>
      .ok (resolveJudgeDecision env.host decisionId (Date.toISOString (env.clock .judge))
        env.sha256 decision candidate judge input.text temporalGuardEnabled
        (incomingValidAt input) (incomingTier input) nowMs f2ConfirmOrigin)

/-- The applied decision, its escalation resolved and its ledger row filled in. -/
def appliedDecision (applied : ResolveInput) : Except ArbitrateError ArbitrationDecision := do
  let decision := resolveDecision env.host env.wall applied
  let decision ←
    if decision.outcome = .judge then
      resolveEscalation env input input.judge env.judgeDecisionId env.flags.supersedeTemporalGuard
        (arbitrationNowMs env)
        (env.flags.f2JudgeConfirm && isF2SupersedeSignal decision.supersedeSignal) decision
    else .ok decision
  .ok
    { decision with
      judgeLedgerPending := decision.judgeLedgerPending.map fun row =>
        { row with userId := input.userId, scope := input.scope.text } }

/-- What the decide step hands on: the parameters it decided under, and its decision. -/
structure Decided where
  applied : ResolveInput
  decision : ArbitrationDecision
  deriving DecidableEq

/-- The decide step. -/
def decideStep (s : Applied) : Except ArbitrateError Decided := do
  let similar ← similarCandidates env input s
  let applied := appliedInput env input (recentCandidates env input s) similar
  let decision ← appliedDecision env input applied
  .ok ⟨applied, decision⟩

/-! ### The shadow lanes -/

/-- `input.nowMs ?? Date.now()`, read once for both lanes. -/
def shadowNowMs : Int := nowAt env input .shadow

/-- WOULD: every flip flag on, no judge, the low floor. -/
def wouldInput (applied : ResolveInput) : ResolveInput :=
  { applied with
    config := { applied.config with supersedeCandidateFloor := some (75 / 100) }
    judgeEnabled := false
    keepBothGuardEnabled := true
    temporalGuardEnabled := true
    arbitrationNowMs := shadowNowMs env input
    additiveSkipGuard := true
    cueGateParam := true
    withinHoursNowMs := some (shadowNowMs env input)
    f2JudgeConfirm := true
    atomicAuthority := true
    f2RequireValueChange := false
    mergeKeepBothOnFusion := false }

/-- BASELINE: every flip flag off, no judge, the merge threshold as floor. -/
def baselineInput (applied : ResolveInput) : ResolveInput :=
  { applied with
    config := { applied.config with
      supersedeCandidateFloor := some applied.config.mergeThreshold }
    judgeEnabled := false
    keepBothGuardEnabled := false
    temporalGuardEnabled := false
    arbitrationNowMs := shadowNowMs env input
    additiveSkipGuard := false
    cueGateParam := false
    withinHoursNowMs := some (shadowNowMs env input)
    f2JudgeConfirm := false
    atomicAuthority := false
    f2RequireValueChange := false
    mergeKeepBothOnFusion := false }

/-- The WOULD decision before its judge. -/
def wouldDecision (applied : ResolveInput) : ArbitrationDecision :=
  resolveDecision env.host env.wall (wouldInput env input applied)

/-- The WOULD decision; an F2 escalation goes to the shadow judge where there is one, and leaves
neither ledger row nor provenance. -/
def resolvedWould (applied : ResolveInput) : Except ArbitrateError ArbitrationDecision :=
  let would := wouldDecision env input applied
  if would.outcome = .judge ∧ input.shadowJudge.isSome ∧
      isF2SupersedeSignal would.supersedeSignal then do
    let resolved ← resolveEscalation env input input.shadowJudge shadow.decisionId true
      (shadowNowMs env input) true would
    .ok { resolved with judgeLedgerPending := none, supersessionProvenance := none }
  else .ok would

structure ShadowLanes where
  would : ArbitrationDecision
  baseline : ArbitrationDecision
  deriving DecidableEq

/-- Both lanes, where the shadow is on and neither throws. -/
def shadowLanes (applied : ResolveInput) : Option ShadowLanes :=
  if !shadow.enabled || shadow.laneThrows then none
  else
    match resolvedWould env shadow input applied with
    | .error _ => none
    | .ok would =>
        some ⟨would, resolveDecision env.host env.wall (baselineInput env input applied)⟩

/-! ### The isolated evaluation -/

/-- The frame of an attempt: the caller's, or the UTC day of the lane clock. -/
def atomicFrame : AtomicFrameSource :=
  input.atomicFrameSource.getD
    ⟨.organic, "organic:" ++ Text.sliceTo (Date.toISOString (laneClockMs env input)) 10⟩

/-- The evaluation, `none` where the shadow is off or the evaluation throws; a throw is put on
record first, and a record that fails is thrown. -/
def atomicIsolated (d : Decided) :
    Prog ArbitrateError (Applied × Shadow) (Option AtomicIsolatedEvaluation) :=
  if !shadow.enabled then pure none
  else if shadow.isolatedThrows then do
    second (createAtomicShadowAttempt shadow
      { writeEventId := env.writeEventId, activationClass := .computationFailed,
        frame := atomicFrame env input, replayStepId := input.shadowCorrelationId,
        errorDetail := some "computation_failed" })
    pure none
  else
    pure (some (computeAtomicIsolatedEvaluation env.host env.wall d.applied d.decision
      (metadataProp input "atomicFact")))

def manifestKeys (evaluation : AtomicIsolatedEvaluation) : List String :=
  evaluation.nominations.map (·.nominationCandidateId)

/-- The attempt row, before anything is applied. -/
def attemptRow (isolated : Option AtomicIsolatedEvaluation) :
    Prog ArbitrateError (Applied × Shadow) Unit :=
  match isolated with
  | none => pure ()
  | some evaluation =>
      match evaluation.activationClass with
      | none => pure ()
      | some activationClass =>
          let retired :=
            if activationClass = .safetyActivation then evaluation.retiredCandidateId else none
          let pairKey := retired.map (atomicPairKey env.writeEventId)
          second (createAtomicShadowAttempt shadow
            { writeEventId := env.writeEventId, activationClass := activationClass,
              pairKey := pairKey, selectionHash := pairKey.map env.sha256,
              retiredCandidateId := retired,
              nominationManifestKeys := some (manifestKeys evaluation),
              frame := atomicFrame env input, replayStepId := input.shadowCorrelationId })

/-- The event packet of an evaluation. -/
def emitEvent (d : Decided) (evaluation : AtomicIsolatedEvaluation) : Record Unit := do
  stringify evaluation.incomingSnapshot.printable
  stringify ((evaluation.candidateSnapshot.map AtomicCandidateSnapshot.printable).getD true)
  createAtomicShadowEvent shadow
    { writeEventId := env.writeEventId
      isolatedOutcome := evaluation.isolatedDecision.outcome
      isolatedMatchedId := evaluation.isolatedDecision.candidate.map (·.id)
      isolatedReferentProof := evaluation.isolatedDecision.referentProof
      isolatedGuardKeepBothReason := evaluation.isolatedDecision.guardKeepBoth.map (·.reason)
      isolatedUnresolved := evaluation.isolatedUnresolved
      incomingSnapshot := evaluation.incomingSnapshot
      candidateSnapshot := evaluation.candidateSnapshot
      laneClockMs := evaluation.laneClockMs
      appliedOutcome := d.decision.outcome
      appliedMatchedId := d.decision.candidate.map (·.id) }

def emitNominations (evaluation : AtomicIsolatedEvaluation) : Record Unit :=
  evaluation.nominations.forM fun nomination => do
    stringify nomination.snapshot.printable
    createAtomicShadowNomination shadow ⟨env.writeEventId, nomination⟩

/-- The packet, its nominations, the finalization; the first failure ends it, unthrown. -/
def emitAtomicFrameArtifacts (d : Decided) (isolated : Option AtomicIsolatedEvaluation) :
    Record Unit :=
  match isolated with
  | none => pure ()
  | some evaluation =>
      if evaluation.activationClass = none then pure ()
      else
        tryCatch
          (do
            emitEvent env shadow d evaluation
            emitNominations env shadow evaluation
            let _ ← finalizeAtomicShadowAttemptIfComplete shadow env.writeEventId
              (manifestKeys evaluation)
            pure ())
          fun _ => pure ()

/-! ### The report on the lanes -/

def laneOutcome (decision : ArbitrationDecision) : LaneOutcome :=
  if decision.outcome = .judge ∨ decision.judgeUnresolved.isSome then .judgePending
  else .outcome decision.outcome

def liveFlags : LiveFlags where
  cueGate := env.flags.cueGate
  temporalGuard := env.flags.supersedeTemporalGuard
  keepBothGuard := env.flags.mergeKeepBothGuard
  addSkipGuard := env.flags.additiveSkipGuard
  judgeGate := judgeEnabled env input
  f2JudgeConfirm := env.flags.f2JudgeConfirm
  atomicIdentityProof := env.flags.atomicFactIdentityProof
  f2RequireValueChange := env.flags.f2RequireValueChange
  mergeKeepBothOnFusion := env.flags.mergeKeepBothOnFusion

def shadowParams (d : Decided) (lanes : ShadowLanes) (appliedMemoryId : Option String) :
    SupersedeShadowParams where
  appliedMemoryId := appliedMemoryId
  userId := input.userId
  scope := input.scope
  sessionId := input.sessionId
  source := input.source
  appliedOutcome := d.decision.outcome
  baselineOutcome := laneOutcome lanes.baseline
  wouldOutcome := laneOutcome lanes.would
  diverged :=
    laneOutcome lanes.would ≠ .judgePending ∧ laneOutcome lanes.baseline ≠ laneOutcome lanes.would
  liveFlags := liveFlags env input
  wouldMatchedId := lanes.would.candidate.map (·.id)
  wouldCosine := lanes.would.candidate.map (·.similarity)
  wouldSignal := lanes.would.supersedeSignal
  wouldReason := lanes.would.reason
  wouldBand := lanes.would.band
  baselineMatchedId := lanes.baseline.candidate.map (·.id)
  baselineBand := lanes.baseline.band
  incomingTextTrunc := Text.sliceUnits input.text 200
  wouldNominationBlocked := lanes.would.blockedNomination
  referentVerdict := lanes.would.referentVerdict
  referentProof := lanes.would.referentProof
  incomingTextFull := input.text
  incomingTags := incomingTags input
  candidateSnapshot := lanes.would.shadowCandidateSnapshot
  shadowCorrelationId := input.shadowCorrelationId
  writeEventId := env.writeEventId

/-- The snapshot of a decision prints, if there is one. -/
def snapshotPrints (decision : ArbitrationDecision) : Bool :=
  (decision.shadowCandidateSnapshot.map ShadowCandidateSnapshot.printable).getD true

/-- The snapshot is printed before the log's own error handling begins. -/
def emitShadow (d : Decided) (lanes : Option ShadowLanes) (appliedMemoryId : Option String) :
    Record Unit :=
  match lanes with
  | none => pure ()
  | some lanes => do
      stringify (snapshotPrints lanes.would)
      logSupersedeShadow shadow (shadowParams env input d lanes appliedMemoryId)

/-! ### The whole call -/

/-- A branch, then its report. -/
def reported (d : Decided) (lanes : Option ShadowLanes) (appliedMemoryId : Option String)
    (branch : Commit ArbitrationResult) :
    Prog ArbitrateError (Applied × Shadow) ArbitrationResult := do
  let result ← first branch
  second (emitShadow env shadow input d lanes appliedMemoryId)
  pure result

/-- The commit step. -/
def commitStep (d : Decided) (lanes : Option ShadowLanes) :
    Prog ArbitrateError (Applied × Shadow) ArbitrationResult :=
  match d.decision.outcome, d.decision.candidate with
  | .skip, _ => reported env shadow input d lanes none (applySkip env input d.decision)
  | .mergeUpdate, some candidate =>
      reported env shadow input d lanes (some candidate.id)
        (applyMergeUpdate env input d.decision candidate)
  | .supersede, some candidate =>
      reported env shadow input d lanes (some env.memoryId)
        (applySupersede env input d.decision candidate)
  | .mergeUpdate, none | .supersede, none => throw .noCandidate
  | .create, _ | .judge, _ =>
      reported env shadow input d lanes (some env.memoryId) (applyCreate env input d.decision)

/-- The decide step on the state at hand. -/
def decideNow : Commit Decided := fun s =>
  match decideStep env input s with
  | .ok d => .ok d s
  | .error e => .error e s

/-- Everything after the decide step. -/
def applyDecided (d : Decided) : Prog ArbitrateError (Applied × Shadow) ArbitrationResult := do
  let lanes := shadowLanes env shadow input d.applied
  let isolated ← atomicIsolated env shadow input d
  attemptRow env shadow input isolated
  first (writeCache (pruneRecentWrites (recentWriteTtlMs input) (pruneNowMs env input)))
  second (emitAtomicFrameArtifacts env shadow d isolated)
  commitStep env shadow input d lanes

def arbitrateWrite : Prog ArbitrateError (Applied × Shadow) ArbitrationResult :=
  if Text.trim input.text = "" then pure { outcome := .skip, reason := "empty-text" }
  else do
    let d ← first (decideNow env input)
    applyDecided env shadow input d

end

/-- Surroundings in which every flag is off, every service answers and every clock reads `now`;
any two embeddings have the given similarity. -/
def plainEnv (now : Int) (similarity : ℚ) (memoryId : String) : ArbitrateEnv where
  host := .ascii
  flags := {}
  clock _ := now
  wall _ _ := now
  writeEventId := "event"
  judgeDecisionId := "decision"
  memoryId := memoryId
  sha256 s := s
  cosine _ _ := similarity
  embedText _ := some [1]
  overlayOptions := ⟨10, 100⟩
  overlayTtlMs := 60000
  reply _ := .answered

end Runir
