import Runir.Lib.Value

/-!
# Domain — Types

The types of `src/domain/memory/lifecycle.ts` that write arbitration reads and returns.

* `SimilarCandidate`, `RecentWrite`, `ArbitrationConfig`: what a decision is made from.
* `ArbitrationDecision`: the decision, with the texts it is reported under and the provenance
  it carries to the applied record.

Strings the source leaves open stay strings; the closed unions are enumerations.  Numbers are
exact, times are milliseconds since the epoch.
-/

namespace Runir

/-- `MemoryScope`. -/
inductive MemoryScope where
  | session | user | team | global
  deriving DecidableEq

def MemoryScope.text : MemoryScope → String
  | .session => "session"
  | .user => "user"
  | .team => "team"
  | .global => "global"

/-- `WriteSource`. -/
inductive WriteSource where
  | memoryStore | agentEnd | sessionSummary
  deriving DecidableEq

def WriteSource.text : WriteSource → String
  | .memoryStore => "memory_store"
  | .agentEnd => "agent_end"
  | .sessionSummary => "session_summary"

/-- A candidate memory found during similarity search. -/
structure SimilarCandidate where
  id : String
  l2 : String
  similarity : ℚ
  createdAt : String
  updatedAt : Option String := none
  validAt : Option String := none
  lineageRootId : Option String := none
  continuitySubjectKey : Option Value := none
  tags : Option (List String) := none
  tier : Option String := none
  factKey : Option Value := none
  noemaClaimKey : Option Value := none
  atomicFact : Option Value := none
  deriving DecidableEq

/-- An entry of the in-memory recent-write cache. -/
structure RecentWrite where
  text : String
  normalizedText : String
  embedding : List ℚ
  userId : String
  scope : MemoryScope
  sessionId : Option String := none
  source : WriteSource
  writtenAtMs : Int
  deriving DecidableEq

/-- Thresholds and limits for write arbitration. -/
structure ArbitrationConfig where
  skipThreshold : ℚ := 95 / 100
  skipWindowHours : ℚ := 24
  mergeThreshold : ℚ := 85 / 100
  mergeWindowHours : ℚ := 72
  candidateLimit : Nat := 5
  recentWriteTtlMinutes : ℚ := 5
  supersedeCandidateFloor : Option ℚ := none
  deriving DecidableEq

/-- The floor of the correction pass: `supersedeCandidateFloor ?? mergeThreshold`. -/
def ArbitrationConfig.supersedeFloor (config : ArbitrationConfig) : ℚ :=
  config.supersedeCandidateFloor.getD config.mergeThreshold

/-- The outcomes of a decision; `judge` is internal to the arbitrator. -/
inductive DecisionOutcome where
  | create | skip | mergeUpdate | supersede | judge
  deriving DecidableEq

def DecisionOutcome.text : DecisionOutcome → String
  | .create => "create"
  | .skip => "skip"
  | .mergeUpdate => "merge-update"
  | .supersede => "supersede"
  | .judge => "judge"

/-- Which arbitration pass produced a decision. -/
inductive Band where
  | exactDup | correctionSupersede | recentNearDupSkip | storeNearDupSkip | mergeBand | create
  deriving DecidableEq

/-- What drove a supersede. -/
inductive SupersedeSignal where
  | deterministicText | extractorCorrectionSlot | extractorCorrectionNamedValue
  | currentnessCueSlot | llmJudge
  deriving DecidableEq

def SupersedeSignal.text : SupersedeSignal → String
  | .deterministicText => "deterministic_text"
  | .extractorCorrectionSlot => "extractor_correction:slot"
  | .extractorCorrectionNamedValue => "extractor_correction:named_value"
  | .currentnessCueSlot => "currentness_cue:slot"
  | .llmJudge => "llm_judge:supersede"

/-- The verdict stamped on a decision. -/
inductive ReferentStamp where
  | proven | conflict | f2Exception
  deriving DecidableEq

inductive SnapshotRole where
  | matchedCandidate | blockedNomination
  deriving DecidableEq

/-- A point-in-time copy of a candidate's content. -/
structure ShadowCandidateSnapshot where
  id : Option String
  l2 : String
  tags : Option (List String)
  factKey : Option Value
  noemaClaimKey : Option Value
  atomicFact : Option Value
  snapshotRole : SnapshotRole
  deriving DecidableEq

inductive GuardLeg where
  | durability | temporal | occasion
  deriving DecidableEq

/-- Which guard turned a proven retirement into a create, and the signal it withheld. -/
structure GuardKeepBoth where
  leg : GuardLeg
  reason : String
  signal : SupersedeSignal
  deriving DecidableEq

inductive F2JudgeCheckResult where
  | confirmed | vetoed | duplicate | unavailable | transportError | invalidResponse
  deriving DecidableEq

structure GuardOverride where
  leg : GuardLeg
  reason : String
  deriving DecidableEq

/-- `SupersessionJudgeIdentity`. -/
structure JudgeIdentity where
  model : String
  promptVersion : String
  promptSha256 : String
  confidenceFloor : ℚ
  temperature : ℚ
  effectiveJsonMode : Bool
  baseUrl : String
  timeoutMs : ℚ
  deriving DecidableEq

inductive IdentityStatus where
  | resolved | noHandle
  deriving DecidableEq

/-- `SupersessionProvenance`; its authority is always `f2_exception`. -/
structure SupersessionProvenance where
  decisionId : String
  appliedOutcome : DecisionOutcome
  result : F2JudgeCheckResult
  confidence : Option ℚ
  guardOverride : Option GuardOverride
  judgeIdentity : Option JudgeIdentity
  identityStatus : IdentityStatus
  deriving DecidableEq

/-- `SupersessionJudgeLedgerRow`. -/
structure JudgeLedgerRow where
  decisionId : String
  ts : String
  userId : String
  scope : String
  candidateId : String
  candidateSha256 : String
  incomingSha256 : String
  signal : String
  band : Option Band
  cosine : ℚ
  result : F2JudgeCheckResult
  confidence : Option ℚ
  guardOverride : Option GuardOverride
  judgeIdentity : Option JudgeIdentity
  identityStatus : IdentityStatus
  appliedOutcome : DecisionOutcome
  deriving DecidableEq

/-- A judge answer that is not a verdict. -/
structure JudgeUnresolved where
  status : F2JudgeCheckResult
  detail : Option String
  deriving DecidableEq

/-- A decision of the arbitrator before it is applied. -/
structure ArbitrationDecision where
  outcome : DecisionOutcome
  reason : String
  candidate : Option SimilarCandidate := none
  mergedText : Option String := none
  supersedeSignal : Option SupersedeSignal := none
  supersessionProvenance : Option SupersessionProvenance := none
  judgeLedgerPending : Option JudgeLedgerRow := none
  judgeUnresolved : Option JudgeUnresolved := none
  band : Option Band := none
  blockedNomination : Option String := none
  referentVerdict : Option ReferentStamp := none
  referentProof : Option String := none
  shadowCandidateSnapshot : Option ShadowCandidateSnapshot := none
  guardKeepBoth : Option GuardKeepBoth := none
  deriving DecidableEq

end Runir
