import Runir.Writes.Judge

/-!
# Writes — What a judge resolution records

Each resolution of an escalated decision leaves a decision and, where the escalation was an F2
signal's, a provenance and a ledger row.

* `JudgeExit`: the four ways to resolve, as the outcome, the result and the guard they record.
* `resolveJudgeDecision_exit`: every resolution is one of the four.
* `resolveJudgeDecision_supersede_iff`: which answers retire.
* `resolveJudgeDecision_uncertain`: both, and the agreement of the three records.
-/

namespace Runir

section
variable {host : Host} {decisionId decisionTs : String} {sha256 : String → String}
  {decision : ArbitrationDecision} {candidate : SimilarCandidate} {judge : Option JudgeHandle}
  {incomingText : String} {f2Origin : Bool}

/-- How a resolution ends, by what it records of it. -/
inductive JudgeExit : DecisionOutcome → F2JudgeCheckResult → Option GuardOverride → Prop where
  /-- No actionable verdict. -/
  | kept {result : F2JudgeCheckResult} (h : result ≠ .confirmed) : JudgeExit .create result none
  /-- A verdict to supersede, which a guard overrules. -/
  | overruled (g : GuardOverride) : JudgeExit .create .confirmed (some g)
  | superseded : JudgeExit .supersede .confirmed none
  | duplicate : JudgeExit .skip .duplicate none

variable {g : Option GuardOverride} {result : F2JudgeCheckResult}

theorem JudgeExit.outcome {outcome : DecisionOutcome} (h : JudgeExit outcome result g) :
    outcome = .create ∨ outcome = .skip ∨ outcome = .supersede := by
  cases h with
  | kept _ => exact Or.inl rfl
  | overruled _ => exact Or.inl rfl
  | superseded => exact Or.inr (Or.inr rfl)
  | duplicate => exact Or.inr (Or.inl rfl)

/-- A confirmation that creates is one that a guard overruled. -/
theorem JudgeExit.overruled_iff {outcome : DecisionOutcome} (h : JudgeExit outcome result g) :
    (result = .confirmed ∧ outcome = .create) ↔ g.isSome = true := by
  cases h with
  | kept h => simp [h]
  | overruled _ => simp
  | superseded => simp
  | duplicate => simp

/-! ### Every resolution is an exit -/

/-- The decision records an exit. -/
def Resolves (decisionId decisionTs : String) (sha256 : String → String)
    (decision : ArbitrationDecision) (candidate : SimilarCandidate) (judge : Option JudgeHandle)
    (incomingText : String) (f2Origin : Bool) (d : ArbitrationDecision) : Prop :=
  ∃ base result confidence g, JudgeExit base.outcome result g ∧
    d = withF2Meta decisionId decisionTs sha256 decision candidate judge incomingText f2Origin base
      result confidence g

theorem resolveVerdict_exit (verdict : SupersessionVerdict) (g : Option GuardOverride) :
    Resolves decisionId decisionTs sha256 decision candidate judge incomingText f2Origin
      (resolveVerdict decisionId decisionTs sha256 decision candidate judge incomingText f2Origin
        verdict g) := by
  unfold resolveVerdict
  simp only
  split
  · cases g with
    | some g => exact ⟨_, _, _, _, .overruled g, rfl⟩
    | none => exact ⟨_, _, _, _, .superseded, rfl⟩
  · split
    · exact ⟨_, _, _, _, .duplicate, rfl⟩
    · exact ⟨_, _, _, _, .kept (by simp), rfl⟩

theorem resolveJudgeDecision_exit (temporalGuardEnabled : Bool)
    (incomingValidAt incomingTier : Option String) (arbitrationNowMs : Int)
    (f2ConfirmOrigin : Bool) :
    Resolves decisionId decisionTs sha256 decision candidate judge incomingText
      (f2ConfirmOrigin || isF2SupersedeSignal decision.supersedeSignal)
      (resolveJudgeDecision host decisionId decisionTs sha256 decision candidate judge incomingText
        temporalGuardEnabled incomingValidAt incomingTier arbitrationNowMs f2ConfirmOrigin) := by
  unfold resolveJudgeDecision
  simp only
  cases judgeOutcome judge candidate.l2 incomingText with
  | unavailable => exact ⟨_, _, _, _, .kept (by simp), rfl⟩
  | transportError => exact ⟨_, _, _, _, .kept (by simp), rfl⟩
  | invalidResponse => exact ⟨_, _, _, _, .kept (by simp), rfl⟩
  | verdict v => exact resolveVerdict_exit v _

theorem withF2Meta_outcome {base : ArbitrationDecision} {confidence : Option ℚ} :
    (withF2Meta decisionId decisionTs sha256 decision candidate judge incomingText f2Origin base
      result confidence g).outcome = base.outcome := by
  unfold withF2Meta
  cases f2Origin with
  | true => rfl
  | false => rfl

/-! ### Which answers retire -/

/-- A verdict to supersede, confident enough for its judge. -/
def Retires (judge : Option JudgeHandle) (oldText newText : String) : Prop :=
  ∃ handle verdict c, judge = some handle ∧
    handle.judge oldText newText = some (.verdict verdict) ∧ verdict.verdict = .supersede ∧
    verdict.confidence = some c ∧ handle.identity.confidenceFloor ≤ c ∧ c ≤ 1

theorem judgeOutcome_eq_verdict {oldText newText : String} {v : SupersessionVerdict} :
    judgeOutcome judge oldText newText = .verdict v ↔
      ∃ handle, judge = some handle ∧ handle.judge oldText newText = some (.verdict v) := by
  cases judge with
  | none => simp [judgeOutcome]
  | some handle =>
      unfold judgeOutcome
      cases hanswer : handle.judge oldText newText with
      | none => simp [hanswer]
      | some outcome => simp [hanswer]

theorem resolveVerdict_supersede {v : SupersessionVerdict} :
    (resolveVerdict decisionId decisionTs sha256 decision candidate judge incomingText f2Origin v
        g).outcome = .supersede ↔
      v.verdict = .supersede ∧ g = none ∧
        ∃ c, v.confidence = some c ∧ (judge.map (·.identity.confidenceFloor)).getD 0 ≤ c ∧ c ≤ 1 := by
  unfold resolveVerdict
  simp only
  split
  · next hact =>
      simp only [Bool.and_eq_true, decide_eq_true_eq, Option.any_eq_true] at hact
      cases g with
      | some g => simp [withF2Meta_outcome, judgeKept]
      | none =>
          obtain ⟨⟨c, hc, hrange⟩, hlabel⟩ := hact
          simp [withF2Meta_outcome, hlabel, hc, hrange]
  · next hact =>
      have hnot : ¬(v.verdict = .supersede ∧ g = none ∧ ∃ c, v.confidence = some c ∧
          (judge.map (·.identity.confidenceFloor)).getD 0 ≤ c ∧ c ≤ 1) := by
        rintro ⟨hlabel, -, c, hc, hrange⟩
        exact hact (by simp [hlabel, hc, hrange])
      refine iff_of_false ?_ hnot
      split
      · simp [withF2Meta_outcome]
      · simp [withF2Meta_outcome, judgeKept]

variable {incomingValidAt incomingTier : Option String}

theorem judgeGuard_eq_none {temporalGuardEnabled : Bool} {arbitrationNowMs : Int} :
    judgeGuard host candidate incomingText temporalGuardEnabled incomingValidAt incomingTier
        arbitrationNowMs = none ↔
      (temporalGuardEnabled = true →
        durableTransientKeepBothReason host candidate incomingText incomingTier = none ∧
          temporalOrderingKeepBothReason host candidate incomingValidAt arbitrationNowMs =
            none) := by
  unfold judgeGuard
  cases temporalGuardEnabled with
  | false => simp
  | true =>
      cases durableTransientKeepBothReason host candidate incomingText incomingTier with
      | some reason => simp
      | none => simp

/-- **What retires**: a confident verdict to supersede that the guards permit. -/
theorem resolveJudgeDecision_supersede_iff {temporalGuardEnabled : Bool} {arbitrationNowMs : Int}
    {f2ConfirmOrigin : Bool} :
    (resolveJudgeDecision host decisionId decisionTs sha256 decision candidate judge incomingText
        temporalGuardEnabled incomingValidAt incomingTier arbitrationNowMs
        f2ConfirmOrigin).outcome = .supersede ↔
      Retires judge candidate.l2 incomingText ∧
        (temporalGuardEnabled = true →
          durableTransientKeepBothReason host candidate incomingText incomingTier = none ∧
            temporalOrderingKeepBothReason host candidate incomingValidAt arbitrationNowMs =
              none) := by
  rw [← judgeGuard_eq_none]
  unfold resolveJudgeDecision
  simp only
  cases houtcome : judgeOutcome judge candidate.l2 incomingText with
  | verdict v =>
      obtain ⟨handle, rfl, hjudge⟩ := judgeOutcome_eq_verdict.mp houtcome
      simp only
      rw [resolveVerdict_supersede]
      constructor
      · rintro ⟨hlabel, hguard, c, hc, hfloor, hone⟩
        exact ⟨⟨handle, v, c, rfl, hjudge, hlabel, hc, hfloor, hone⟩, hguard⟩
      · rintro ⟨⟨handle', v', c, hhandle, hjudge', hlabel, hc, hfloor, hone⟩, hguard⟩
        obtain rfl := Option.some.inj hhandle
        obtain rfl := JudgeOutcome.verdict.inj (Option.some.inj (hjudge.symm.trans hjudge'))
        exact ⟨hlabel, hguard, c, hc, hfloor, hone⟩
  | unavailable | transportError | invalidResponse =>
      refine iff_of_false ?_ ?_
      · simp [judgeUnresolvedAs, withF2Meta_outcome, judgeKept]
      · rintro ⟨⟨handle, v, c, hhandle, hjudge, -⟩, -⟩
        rw [judgeOutcome_eq_verdict.mpr ⟨handle, hhandle, hjudge⟩] at houtcome
        cases houtcome

end

/-- **An uncertain judge never retires**, and its records agree.  Every resolution creates, skips or
supersedes; it supersedes only on a confident verdict to supersede that the guards permit; where
the escalation is an F2 signal's, the ledger row and the provenance carry one result, the outcome of
the decision, and a guard exactly where a confirmation creates; and the snapshot is kept. -/
theorem resolveJudgeDecision_uncertain (host : Host) (decisionId decisionTs : String)
    (sha256 : String → String) (decision : ArbitrationDecision) (candidate : SimilarCandidate)
    (judge : Option JudgeHandle) (incomingText : String) (temporalGuardEnabled : Bool)
    (incomingValidAt incomingTier : Option String) (arbitrationNowMs : Int)
    (f2ConfirmOrigin : Bool) :
    let d := resolveJudgeDecision host decisionId decisionTs sha256 decision candidate judge
      incomingText temporalGuardEnabled incomingValidAt incomingTier arbitrationNowMs
      f2ConfirmOrigin
    (d.outcome = .create ∨ d.outcome = .skip ∨ d.outcome = .supersede) ∧
    (d.outcome = .supersede → Retires judge candidate.l2 incomingText ∧
      (temporalGuardEnabled = true →
        durableTransientKeepBothReason host candidate incomingText incomingTier = none ∧
          temporalOrderingKeepBothReason host candidate incomingValidAt arbitrationNowMs = none)) ∧
    (f2ConfirmOrigin = true ∨ isF2SupersedeSignal decision.supersedeSignal = true →
      ∃ row provenance, d.judgeLedgerPending = some row ∧
        d.supersessionProvenance = some provenance ∧
        row.result = provenance.result ∧ row.appliedOutcome = d.outcome ∧
        provenance.appliedOutcome = d.outcome ∧ row.guardOverride = provenance.guardOverride ∧
        ((row.result = .confirmed ∧ row.appliedOutcome = .create) ↔
          row.guardOverride.isSome = true)) ∧
    d.shadowCandidateSnapshot = decision.shadowCandidateSnapshot := by
  intro d
  have hresolves : Resolves decisionId decisionTs sha256 decision candidate judge incomingText
      (f2ConfirmOrigin || isF2SupersedeSignal decision.supersedeSignal) d :=
    resolveJudgeDecision_exit temporalGuardEnabled incomingValidAt incomingTier arbitrationNowMs
      f2ConfirmOrigin
  obtain ⟨base, result, confidence, g, hexit, hd⟩ := hresolves
  have hout : d.outcome = base.outcome := (congrArg (·.outcome) hd).trans withF2Meta_outcome
  refine ⟨?_, resolveJudgeDecision_supersede_iff.mp, ?_, resolveJudgeDecision_snapshot⟩
  · rw [hout]
    exact hexit.outcome
  · intro hF2
    have horigin : (f2ConfirmOrigin || isF2SupersedeSignal decision.supersedeSignal) = true := by
      simpa using hF2
    rw [horigin] at hd
    have hrow : d.judgeLedgerPending = some (buildLedger decisionId decisionTs sha256 decision
        candidate judge incomingText result base.outcome confidence g) :=
      congrArg (·.judgeLedgerPending) hd
    have hprovenance : d.supersessionProvenance =
        some (buildProvenance decisionId judge result base.outcome confidence g) :=
      congrArg (·.supersessionProvenance) hd
    exact ⟨_, _, hrow, hprovenance, rfl, hout.symm, hout.symm, rfl, hexit.overruled_iff⟩

end Runir
