import Runir.Domain.ExactQa
import Runir.Recall.Hits

/-!
# Recall — Status policy

`src/recall/continuity/recall-status-policy.ts`: what kind of memory a hit is, which hits answer a
question about the current state, and how they are ranked.  Arithmetic is exact; `Math.pow` is a
parameter.
-/

namespace Runir.Recall
open Regex

/-- `RecallMemoryKind`: a role other than `project_state`. -/
inductive RecallMemoryKind where
  | currentStatus | sessionHandoff | recentWork | debuggingActive | planningActive
  | architectureReference | researchContext | deployOps | adminProcess | operationalNoise
  deriving DecidableEq

def RecallMemoryKind.role : RecallMemoryKind → MemoryRole
  | .currentStatus => .currentStatus
  | .sessionHandoff => .sessionHandoff
  | .recentWork => .recentWork
  | .debuggingActive => .debuggingActive
  | .planningActive => .planningActive
  | .architectureReference => .architectureReference
  | .researchContext => .researchContext
  | .deployOps => .deployOps
  | .adminProcess => .adminProcess
  | .operationalNoise => .operationalNoise

def MemoryRole.kind? : MemoryRole → Option RecallMemoryKind
  | .projectState => none
  | .currentStatus => some .currentStatus
  | .sessionHandoff => some .sessionHandoff
  | .recentWork => some .recentWork
  | .debuggingActive => some .debuggingActive
  | .planningActive => some .planningActive
  | .architectureReference => some .architectureReference
  | .researchContext => some .researchContext
  | .deployOps => some .deployOps
  | .adminProcess => some .adminProcess
  | .operationalNoise => some .operationalNoise

/-! ### Patterns -/

/-- `/\bs\b/i`, for an `s` in lower case. -/
def phrase (s : String) : Regex := seqs [bound, liti s, bound]

/-- `/\b(?:MIM|STY)-\d+\b/i`. -/
def ticket (project : String) : Regex := seqs [bound, liti project, chr '-', plus digit, bound]

/-- `STATUS_SIGNAL_PATTERNS`. -/
def statusSignalPatterns : List Regex :=
  ["currently", "working on", "in progress", "next step", "blocked", "resume here", "handoff",
    "current status", "latest progress", "remaining work", "open issue", "implementing", "fixing",
    "testing", "debugging"].map phrase ++ [ticket "mim", ticket "sty"]

/-- `OPERATIONAL_NOISE_PATTERNS`. -/
def operationalNoisePatterns : List Regex :=
  [ phrase "scout", phrase "builder brief", phrase "brief",
    seqs [bound, liti "deploy", opt (liti "ed"), bound],
    phrase "pm2", phrase "digitalocean",
    seqs [bound, liti "admin", opt (liti "istrative"), bound],
    phrase "maintenance", phrase "workflow", phrase "housekeeping", phrase "task initialization",
    phrase "environment setup", phrase "server restart", phrase "tsconfig.json",
    seqs [bound, liti "npx", plus (.cls Text.isSpace), liti "tsx", bound],
    phrase "scripts/",
    seqs [bound, liti "script run", opt (liti "s"), bound],
    seqs [bound, liti "read", oneOf "- ", liti "path", bound],
    phrase "context insufficiency",
    seqs [bound, liti "project", opt (oneOf "_ -"), liti "state update flow", bound],
    phrase "/clear", phrase "checkpoint hook", phrase "watermark progression",
    phrase "memory synchronization loop" ]

/-- `HISTORICAL_PATTERNS`. -/
def historicalPatterns : List Regex :=
  ["was deployed", "successfully deployed", "completed", "shipped", "launched", "finished"].map
      phrase ++
    [seqs [bound, liti "all", plus (.cls Text.isSpace), plus digit, plus (.cls Text.isSpace),
      liti "test", opt (liti "s"), plus (.cls Text.isSpace), liti "passed", bound]]

def countMatches (text : String) (patterns : List Regex) : Nat :=
  (patterns.filter fun pattern => Text.test pattern text).length

/-- `/\bs₁\b|\bs₂\b|…/i.test(text)`. -/
def mentions (text : String) (phrases : List String) : Bool :=
  phrases.any fun s => Text.test (phrase s) text

def hasTicketSignal (text : String) : Bool :=
  Text.test (ticket "mim") text || Text.test (ticket "sty") text

def hasActiveSignal (text : String) : Bool := decide (0 < countMatches text statusSignalPatterns)

/-! ### The kind of a memory -/

def storedRecallKind (hit : SearchHit) : Option RecallMemoryKind :=
  hit.memoryRole.bind MemoryRole.kind?

def classifyRecallMemoryKind (hit : SearchHit) : RecallMemoryKind :=
  match storedRecallKind hit with
  | some storedKind => storedKind
  | none =>
      let text := hit.text
      if mentions text ["session handoff", "resume here", "next time"] then .sessionHandoff
      else if mentions text ["debugging", "failing test", "test failure", "blocked"] then
        .debuggingActive
      else if mentions text ["current status", "currently"] then .currentStatus
      else if mentions text ["plan", "next step", "milestone"] then .planningActive
      else if mentions text ["architecture", "invariant", "pipeline", "data flow",
          "postprocessrecallresults"] then .architectureReference
      else if mentions text ["scout", "research"] then .researchContext
      else if mentions text ["deploy", "deployed", "pm2", "digitalocean", "port 7700"] then
        .deployOps
      else if mentions text ["admin", "administrative", "workflow", "bd prime",
          "push git changes"] then .adminProcess
      else if mentions text ["builder brief", "task initialization", "housekeeping", "maintenance",
            "tsconfig.json"] ||
          Text.test (seqs [bound, liti "npx", plus (.cls Text.isSpace), liti "tsx", bound]) text ||
          mentions text ["script run", "script runs"] then .operationalNoise
      -- the last pattern of the source answers the same as its default
      else .recentWork

def memoryKindScore : RecallMemoryKind → ℚ
  | .currentStatus => 1
  | .sessionHandoff => 95 / 100
  | .recentWork => 8 / 10
  | .debuggingActive => 75 / 100
  | .planningActive => 6 / 10
  | .architectureReference => 35 / 100
  | .researchContext => 15 / 100
  | .deployOps => 0
  | .adminProcess => 0
  | .operationalNoise => 0

/-! ### Scores -/

def continuityRoleScore (hit : SearchHit) : ℚ :=
  if hit.memoryRole = some .projectState then 1
  else memoryKindScore ((storedRecallKind hit).getD (classifyRecallMemoryKind hit))

def validityScore (hit : SearchHit) : ℚ :=
  if hit.memoryRole = none then 0 else if hit.invalidAt.any Text.truthy then 0 else 1

def hasStoredStatusRole (hit : SearchHit) : Bool :=
  hit.memoryRole.any
    [MemoryRole.projectState, .currentStatus, .sessionHandoff, .recentWork, .debuggingActive,
      .planningActive].contains

def scoreStatusSignals (hit : SearchHit) : ℚ :=
  min 1 ((countMatches hit.text statusSignalPatterns : ℚ) / 3)

def scoreOperationalNoise (hit : SearchHit) : ℚ :=
  min 1 ((countMatches hit.text operationalNoisePatterns : ℚ) / 3)

def scoreHistoricalStatusPenalty (hit : SearchHit) : ℚ :=
  if hasActiveSignal hit.text then 0
  else if 0 < countMatches hit.text historicalPatterns then 1
  else 0

/-- A path that is not empty. -/
def SearchHit.path? (hit : SearchHit) : Option String := hit.path.filter Text.truthy

def scoreScopeMatch (hit : SearchHit) (requestedPath : Option String) : ℚ :=
  match requestedPath.filter Text.truthy with
  | none => if hit.path?.isSome then 1 / 2 else 35 / 100
  | some requested =>
      if hit.path = some requested then 1 else if hit.path? = none then 35 / 100 else 0

def unresolvedWorkScore (hit : SearchHit) : ℚ :=
  if mentions hit.text ["in progress", "blocked", "working on", "implementing", "fixing", "testing",
    "debugging", "next step"] then 1 else 0

def normalizeSemanticScore (hit : SearchHit) (maxScore : Score) : Score :=
  if maxScore.any (· ≤ 0) then some 0
  else do return Score.clamp ((← hit.score) / (← maxScore))

def hasStrongStatusEvidence (hit : SearchHit) (requestedPath : Option String) : Bool :=
  decide (hit.memoryRole = some .projectState) || hasStoredStatusRole hit ||
    decide (66 / 100 ≤ scoreStatusSignals hit) ||
    hasTicketSignal hit.text && decide (1 ≤ scoreScopeMatch hit requestedPath)

section
variable (host : Host) (pow : ℚ → ℚ → ℚ) (now : Int)

/-- `Math.max(0, (now - Date.parse(stamp)) / 86_400_000)`. -/
def ageDays (stamp : String) : Score :=
  (host.dateParse stamp).map fun parsed => max 0 (((now - parsed : Int) : ℚ) / 86400000)

/-- `hit.updatedAt ?? hit.createdAt`, where it is not empty. -/
def SearchHit.stamp? (hit : SearchHit) : Option String :=
  (hit.updatedAt.or hit.createdAt).filter Text.truthy

def recencyScore (hit : SearchHit) : Score :=
  match hit.stamp? with
  | none => some 0
  | some stamp => (ageDays host now stamp).map fun age => pow (1 / 2) (age / 7)

def computeCurrentStatusScore (candidatePool : List SearchHit) (requestedPath : Option String)
    (hit : SearchHit) : Score := do
  let maxScore := Score.maxWithOne (candidatePool.map SearchHit.score)
  let semantic ← normalizeSemanticScore hit maxScore
  let recency ← recencyScore host pow now hit
  return 30 / 100 * semantic + 18 / 100 * recency + 15 / 100 * scoreStatusSignals hit +
    10 / 100 * scoreScopeMatch hit requestedPath + 15 / 100 * continuityRoleScore hit +
    5 / 100 * validityScore hit + 7 / 100 * unresolvedWorkScore hit -
    15 / 100 * scoreOperationalNoise hit - 5 / 100 * scoreHistoricalStatusPenalty hit

/-- The order of `rerankCurrentStatusHits`: `a` does not go after `b`. -/
def statusOrder (a b : SearchHit) : Bool :=
  if Score.differs a.score b.score then !Score.lt a.score b.score
  else
    let aStamp := (a.updatedAt.or a.createdAt).getD ""
    let bStamp := (b.updatedAt.or b.createdAt).getD ""
    if aStamp ≠ bStamp then decide (host.localeCompare bStamp aStamp ≠ .gt)
    else decide (host.localeCompare a.id b.id ≠ .gt)

def rerankCurrentStatusHits (hits : List SearchHit) (requestedPath : Option String) :
    List SearchHit :=
  (hits.map fun hit =>
    { hit with score := computeCurrentStatusScore host pow now hits requestedPath hit }).insertionSort
      fun a b => statusOrder host a b = true

end

/-! ### Candidates -/

inductive ContinuityResolverMode where
  | strict | fallback
  deriving DecidableEq

structure StatusCandidates where
  selectedPool : List SearchHit
  droppedByPolicy : List SearchHit
  mode : ContinuityResolverMode

def isStrictCandidate (requestedPath : Option String) (hit : SearchHit) : Bool :=
  let kind := classifyRecallMemoryKind hit
  let hasPositiveGate := decide (hit.memoryRole = some .projectState) || hasStoredStatusRole hit ||
    decide (0 < scoreStatusSignals hit) || hasTicketSignal hit.text ||
    [RecallMemoryKind.currentStatus, .sessionHandoff, .recentWork, .debuggingActive].contains kind
  let hardNegative :=
    [RecallMemoryKind.deployOps, .adminProcess, .operationalNoise, .researchContext].contains kind
  decide (0 < scoreScopeMatch hit requestedPath) && hasPositiveGate &&
    !(hardNegative && !hasStrongStatusEvidence hit requestedPath)

def isFallbackCandidate (requestedPath : Option String) (hit : SearchHit) : Bool :=
  decide (0 < scoreScopeMatch hit requestedPath) &&
    decide (classifyRecallMemoryKind hit ≠ .operationalNoise)

/-- The hits whose id is not among these. -/
def withoutIds (ids : List String) (hits : List SearchHit) : List SearchHit :=
  hits.filter fun hit => !ids.contains hit.id

def filterCurrentStatusCandidates (hits : List SearchHit) (requestedPath : Option String) :
    StatusCandidates :=
  let strictCandidates := hits.filter (isStrictCandidate requestedPath)
  if 2 ≤ strictCandidates.length then
    ⟨strictCandidates, withoutIds (strictCandidates.map SearchHit.id) hits, .strict⟩
  else
    let fallbackCandidates := hits.filter (isFallbackCandidate requestedPath)
    ⟨fallbackCandidates, withoutIds (fallbackCandidates.map SearchHit.id) hits, .fallback⟩

end Runir.Recall
