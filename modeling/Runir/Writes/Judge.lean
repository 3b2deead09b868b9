import Runir.Writes.Resolve

/-!
# Writes — Judge

`resolveJudgeDecision` of `src/storage/writes/write-arbitrator.ts`: what becomes of a decision
that was escalated to the supersession judge.

A judge is its identity and an answer for each pair of texts, `none` when the call throws.  What
is not a verdict that supersedes or finds a duplicate with enough confidence keeps both
memories.  The counters a judge keeps of its resolutions are left out.
-/

namespace Runir

inductive VerdictLabel where
  | duplicate | supersede | independent
  deriving DecidableEq

def VerdictLabel.text : VerdictLabel → String
  | .duplicate => "duplicate"
  | .supersede => "supersede"
  | .independent => "independent"

structure SupersessionVerdict where
  verdict : VerdictLabel
  /-- The number, where it is finite: of the others the arbitrator only asks that. -/
  confidence : Option ℚ

inductive JudgeOutcome where
  | verdict (verdict : SupersessionVerdict)
  | unavailable
  | transportError
  | invalidResponse

/-- `SupersessionJudgeHandle`. -/
structure JudgeHandle where
  identity : JudgeIdentity
  judge : String → String → Option JudgeOutcome

/-- The detail that replaces the provider's own. -/
def providerError : String := "provider_error"

/-- The answer of a judge, where there is one; a throw counts as a transport error. -/
def judgeOutcome (judge : Option JudgeHandle) (oldText newText : String) : JudgeOutcome :=
  match judge with
  | none => .unavailable
  | some handle => (handle.judge oldText newText).getD .transportError

def signalText (signal : Option SupersedeSignal) : String :=
  (signal.map SupersedeSignal.text).getD "undefined"

section
variable (host : Host) (decisionId decisionTs : String) (sha256 : String → String)
  (decision : ArbitrationDecision) (candidate : SimilarCandidate) (judge : Option JudgeHandle)
  (incomingText : String) (f2Origin : Bool)

def identityStatus : IdentityStatus := if judge.isSome then .resolved else .noHandle

def buildProvenance (result : F2JudgeCheckResult) (appliedOutcome : DecisionOutcome)
    (confidence : Option ℚ) (guardOverride : Option GuardOverride) : SupersessionProvenance where
  decisionId := decisionId
  appliedOutcome := appliedOutcome
  result := result
  confidence := confidence
  guardOverride := guardOverride
  judgeIdentity := judge.map (·.identity)
  identityStatus := identityStatus judge

/-- The caller fills in the user and the scope. -/
def buildLedger (result : F2JudgeCheckResult) (appliedOutcome : DecisionOutcome)
    (confidence : Option ℚ) (guardOverride : Option GuardOverride) : JudgeLedgerRow where
  decisionId := decisionId
  ts := decisionTs
  userId := ""
  scope := ""
  candidateId := candidate.id
  candidateSha256 := sha256 candidate.l2
  incomingSha256 := sha256 incomingText
  signal := (decision.supersedeSignal.map SupersedeSignal.text).getD "unknown"
  band := decision.band
  cosine := candidate.similarity
  result := result
  confidence := confidence
  guardOverride := guardOverride
  judgeIdentity := judge.map (·.identity)
  identityStatus := identityStatus judge
  appliedOutcome := appliedOutcome

/-- Every resolution keeps the snapshot of the decision it resolves; one that began as an F2
signal carries its provenance and a ledger row. -/
def withF2Meta (base : ArbitrationDecision) (result : F2JudgeCheckResult)
    (confidence : Option ℚ) (guardOverride : Option GuardOverride) : ArbitrationDecision :=
  let withSnapshot :=
    { base with
      shadowCandidateSnapshot :=
        base.shadowCandidateSnapshot.or decision.shadowCandidateSnapshot }
  if !f2Origin then withSnapshot
  else
    { withSnapshot with
      supersessionProvenance :=
        some (buildProvenance decisionId judge result base.outcome confidence guardOverride)
      judgeLedgerPending :=
        some (buildLedger decisionId decisionTs sha256 decision candidate judge incomingText result
          base.outcome confidence guardOverride) }

/-- The create that keeps both memories, with the stamps of the escalated decision. -/
def judgeKept (reason : String) : ArbitrationDecision where
  outcome := .create
  reason := reason
  band := decision.band
  candidate := some candidate
  supersedeSignal := decision.supersedeSignal
  referentVerdict := decision.referentVerdict
  referentProof := decision.referentProof

/-- Which judge speaks in a reason. -/
def judgeName : String := if f2Origin then "f2_judge_confirm" else "llm_judge"

/-- The resolution of an answer that is no verdict. -/
def judgeUnresolvedAs (status : F2JudgeCheckResult) (statusText : String)
    (detail : Option String) : ArbitrationDecision :=
  let what := statusText ++ (detail.map (": " ++ ·)).getD ""
  let reason :=
    judgeName f2Origin ++ ": kept both (" ++ what ++
      (if f2Origin then
        "; signal " ++ signalText decision.supersedeSignal ++ ", " ++
          cosineText candidate.similarity
      else "") ++ ")"
  withF2Meta decisionId decisionTs sha256 decision candidate judge incomingText f2Origin
    { judgeKept decision candidate reason with judgeUnresolved := some ⟨status, detail⟩ } status
    none none

/-- The guard that overrules a verdict to supersede, where the guards are on. -/
def judgeGuard (temporalGuardEnabled : Bool) (incomingValidAt incomingTier : Option String)
    (arbitrationNowMs : Int) : Option GuardOverride :=
  if !temporalGuardEnabled then none
  else
    match durableTransientKeepBothReason host candidate incomingText incomingTier with
    | some reason => some ⟨.durability, reason⟩
    | none =>
        (temporalOrderingKeepBothReason host candidate incomingValidAt arbitrationNowMs).map
          fun reason => ⟨.temporal, reason⟩

/-- The name of a guard in a reason. -/
def guardText : GuardLeg → String
  | .durability => "durability"
  | .temporal => "temporal-ordering"
  | .occasion => "distinct-occasion"

/-- The resolution of a verdict: a confident supersede no guard overrules, a confident duplicate,
or keeping both. -/
def resolveVerdict (verdict : SupersessionVerdict) (guardOverride : Option GuardOverride) :
    ArbitrationDecision :=
  let conf := (verdict.confidence.map (Text.toFixed 2)).getD "NaN"
  let floor := (judge.map (·.identity.confidenceFloor)).getD 0
  let actionable := verdict.confidence.any fun c => decide (floor ≤ c ∧ c ≤ 1)
  let stamped := fun base result guardOverride =>
    withF2Meta decisionId decisionTs sha256 decision candidate judge incomingText f2Origin base
      result verdict.confidence guardOverride
  if actionable && verdict.verdict = .supersede then
    match guardOverride with
    | some g =>
        stamped
          (judgeKept decision candidate (judgeName f2Origin ++
            " supersede overridden — kept both (" ++ guardText g.leg ++ " guard: " ++ g.reason ++
            ", conf " ++ conf ++ ")"))
          .confirmed (some g)
    | none =>
        stamped
          { outcome := .supersede
            candidate := some candidate
            supersedeSignal := if f2Origin then decision.supersedeSignal else some .llmJudge
            reason :=
              if f2Origin then
                "superseded via f2_judge_confirm (signal " ++
                  signalText decision.supersedeSignal ++ ", " ++ cosineText candidate.similarity ++
                  ", conf " ++ conf ++ ")"
              else
                "superseded via llm_judge (" ++ cosineText candidate.similarity ++ ", conf " ++
                  conf ++ ")"
            band := decision.band.or (if f2Origin then some .correctionSupersede else none)
            referentVerdict := if f2Origin then some .f2Exception else none
            referentProof :=
              if f2Origin then some ("signal:" ++ signalText decision.supersedeSignal) else none }
          .confirmed none
  else if actionable && verdict.verdict = .duplicate then
    stamped
      { outcome := .skip
        candidate := some candidate
        reason := judgeName f2Origin ++ ": duplicate of existing memory (conf " ++ conf ++ ")"
        band := decision.band
        supersedeSignal := decision.supersedeSignal }
      .duplicate none
  else
    stamped
      (judgeKept decision candidate (judgeName f2Origin ++ ": kept both (verdict " ++
        verdict.verdict.text ++ ", conf " ++ conf ++
        (if f2Origin then "; signal " ++ signalText decision.supersedeSignal else "") ++ ")"))
      .vetoed none

/-- `candidate` is the decision's own. -/
def resolveJudgeDecision (temporalGuardEnabled : Bool)
    (incomingValidAt incomingTier : Option String) (arbitrationNowMs : Int)
    (f2ConfirmOrigin : Bool) : ArbitrationDecision :=
  let f2Origin := f2ConfirmOrigin || isF2SupersedeSignal decision.supersedeSignal
  let unresolved :=
    judgeUnresolvedAs decisionId decisionTs sha256 decision candidate judge incomingText f2Origin
  match judgeOutcome judge candidate.l2 incomingText with
  | .unavailable => unresolved .unavailable "unavailable" none
  | .transportError => unresolved .transportError "transport_error" (some providerError)
  | .invalidResponse => unresolved .invalidResponse "invalid_response" (some providerError)
  | .verdict verdict =>
      resolveVerdict decisionId decisionTs sha256 decision candidate judge incomingText f2Origin
        verdict
        (judgeGuard host candidate incomingText temporalGuardEnabled incomingValidAt incomingTier
          arbitrationNowMs)

/-! ### What a resolution keeps -/

variable {host decisionId decisionTs sha256 decision candidate judge incomingText f2Origin}

theorem withF2Meta_snapshot {base : ArbitrationDecision} {result : F2JudgeCheckResult}
    {confidence : Option ℚ} {guardOverride : Option GuardOverride}
    (h : base.shadowCandidateSnapshot = none) :
    (withF2Meta decisionId decisionTs sha256 decision candidate judge incomingText f2Origin base
        result confidence guardOverride).shadowCandidateSnapshot =
      decision.shadowCandidateSnapshot := by
  unfold withF2Meta
  cases f2Origin with
  | true => simp [h]
  | false => simp [h]

theorem resolveVerdict_snapshot (verdict : SupersessionVerdict)
    (guardOverride : Option GuardOverride) :
    (resolveVerdict decisionId decisionTs sha256 decision candidate judge incomingText f2Origin
        verdict guardOverride).shadowCandidateSnapshot = decision.shadowCandidateSnapshot := by
  unfold resolveVerdict
  simp only
  split
  · cases guardOverride with
    | none => exact withF2Meta_snapshot rfl
    | some g => exact withF2Meta_snapshot rfl
  · split
    · exact withF2Meta_snapshot rfl
    · exact withF2Meta_snapshot rfl

/-- **The judge never touches the snapshot.** -/
theorem resolveJudgeDecision_snapshot {temporalGuardEnabled : Bool}
    {incomingValidAt incomingTier : Option String} {arbitrationNowMs : Int}
    {f2ConfirmOrigin : Bool} :
    (resolveJudgeDecision host decisionId decisionTs sha256 decision candidate judge incomingText
        temporalGuardEnabled incomingValidAt incomingTier arbitrationNowMs
        f2ConfirmOrigin).shadowCandidateSnapshot = decision.shadowCandidateSnapshot := by
  unfold resolveJudgeDecision
  simp only
  cases judgeOutcome judge candidate.l2 incomingText with
  | unavailable => exact withF2Meta_snapshot rfl
  | transportError => exact withF2Meta_snapshot rfl
  | invalidResponse => exact withF2Meta_snapshot rfl
  | verdict v => exact resolveVerdict_snapshot v _

end

end Runir
