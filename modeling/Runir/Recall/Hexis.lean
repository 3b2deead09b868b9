import Runir.Lib.OrdMap
import Runir.Recall.Hits

/-!
# Recall — Hexis

`src/hexis/runtime-hexis.ts` and `src/recall/policy/retrieval-controller.ts`: the hits near the
boundary of a pool are lifted by how well they fit what an agent is about.

A number is exact, and the logistic curve of `calibHexisFit` is a parameter.
-/

namespace Runir.Recall

/-- The text of a role. -/
def MemoryRole.text : MemoryRole → String
  | .projectState => "project_state"
  | .currentStatus => "current_status"
  | .sessionHandoff => "session_handoff"
  | .recentWork => "recent_work"
  | .debuggingActive => "debugging_active"
  | .planningActive => "planning_active"
  | .architectureReference => "architecture_reference"
  | .researchContext => "research_context"
  | .deployOps => "deploy_ops"
  | .adminProcess => "admin_process"
  | .operationalNoise => "operational_noise"

namespace Hexis

/-- The fields of `SearchHit` that are read or written here. -/
structure Hit where
  id : String
  text : String
  score : ℚ
  tags : Option (List String) := none
  memoryRole : Option MemoryRole := none
  path : Option String := none
  category : Option String := none
  scope : Option String := none
  confidence : Option ℚ := none
  scoreStages : Option (OrdMap String Value) := none
  hexisId : Option String := none
  hexisVersion : Option ℚ := none
  hexisFit : Option ℚ := none
  rankingExplanation : Option (List String) := none
  preHexisScore : Option ℚ := none
  postHexisScore : Option ℚ := none
  poolRank : Option Nat := none
  boundaryGap : Option ℚ := none
  gateValue : Option ℚ := none
  hexisMode : Option Nat := none
  laneLambda : Option ℚ := none
  deriving DecidableEq

/-- `HexisAdmissibility`. -/
structure Admissibility where
  allowedScopes : Option (List String) := none
  allowedMemoryRoles : Option (List MemoryRole) := none
  minAuthority : Option ℚ := none

/-- `HexisState`, with the one relevance weight that is read. -/
structure HexisState where
  id : String
  label : String
  goals : List String := []
  roles : List String := []
  hypotheses : Option (List String) := none
  topicBias : Option (OrdMap String ℚ) := none
  memoryRoleWeights : Option (OrdMap MemoryRole ℚ) := none
  hexisMatch : ℚ := 1
  admissibility : Option Admissibility := none
  version : ℚ := 1

/-- `HexisRerankOptions`. -/
structure RerankOptions where
  maxRankWindow : Option Int := none
  scoreEpsilon : Option ℚ := none
  lambda : Option ℚ := none
  gateEpsilon : Option ℚ := none
  laneLambda : Option ℚ := none

/-- What is not in the state: the switches of the process, the characters, and the curve. -/
structure Env where
  unicode : Unicode
  /-- `HEXIS_DISABLE_GATE` is `"1"`. -/
  gateDisabled : Bool := false
  /-- `HEXIS_DISABLE_CALIB` is `"1"`. -/
  calibDisabled : Bool := false
  /-- `1 / (1 + Math.exp(-6 * (x - 0.5)))`. -/
  logistic : ℚ → ℚ

def defaultMaxRankWindow : Int := 7
def defaultScoreEpsilon : ℚ := 15 / 10000
def defaultLambda : ℚ := 1
def defaultGateEpsilon : ℚ := 1 / 1000

/-- `[...hits].sort((a, b) => b.score - a.score)`. -/
def sortHits (hits : List Hit) : List Hit := hits.insertionSort fun a b => b.score ≤ a.score

/-! ### How well a hit fits -/

section
variable (env : Env)

/-- `/[\p{L}\p{N}_-]+/gu`. -/
def tokenPattern : Regex :=
  .plus (.cls fun c => env.unicode.isL c || env.unicode.isN c || c == '_' || c == '-')

def tokenize (value : String) : List String :=
  (Text.matches' (tokenPattern env) (env.unicode.toLowerCase value)).filter
    fun token => decide (1 < Text.length token)

def hasHexisSignal (hexis : HexisState) : Bool :=
  !hexis.goals.isEmpty || !hexis.roles.isEmpty || !(hexis.hypotheses.getD []).isEmpty ||
    decide (0 < (hexis.topicBias.getD .empty).size) ||
    decide (0 < (hexis.memoryRoleWeights.getD .empty).size)

/-- What bars a hit, if anything. -/
def blocked (hit : Hit) (hexis : HexisState) : Option String :=
  let admissibility := hexis.admissibility.getD {}
  if admissibility.allowedScopes.any fun allowed =>
      hit.scope.any fun scope => Text.truthy scope && !allowed.contains scope then
    some "hexis:scope-blocked"
  else if admissibility.allowedMemoryRoles.any fun allowed =>
      hit.memoryRole.any fun role => !allowed.contains role then
    some "hexis:role-blocked"
  else if admissibility.minAuthority.any fun least => decide (hit.confidence.getD 0 < least) then
    some "hexis:authority-blocked"
  else none

def scoreHexisFit (hit : Hit) (hexis : HexisState) : ℚ × List String :=
  match blocked hit hexis with
  | some why => (0, [why])
  | none =>
      let candidateTokens := distinct (tokenize env (Text.join " " ([hit.text] ++
        hit.tags.getD [] ++ [(hit.memoryRole.map MemoryRole.text).getD "", hit.path.getD "",
          hit.category.getD ""])))
      let hexisTokens := distinct (tokenize env (Text.join " " ([hexis.label] ++ hexis.goals ++
        hexis.roles ++ hexis.hypotheses.getD [])))
      let overlap := (hexisTokens.filter fun token => candidateTokens.contains token).length
      let semanticFit : ℚ := if 0 < hexisTokens.length then overlap / hexisTokens.length else 0
      let topics := (hexis.topicBias.getD .empty).entries.filter fun e =>
        let normalized := env.unicode.toLowerCase e.1
        candidateTokens.contains normalized ||
          Text.includes (env.unicode.toLowerCase hit.text) normalized
      let topicSum := (topics.map fun e => max 0 e.2).sum
      let topicFit := Score.clamp (topicSum / max (hexis.topicBias.getD .empty).size 1)
      let roleFit := (hit.memoryRole.map fun role =>
        Score.clamp (((hexis.memoryRoleWeights.getD .empty).get? role).getD 0)).getD 0
      let explanation :=
        (if 0 < semanticFit then ["hexis:semantic=" ++ Text.toFixed 2 semanticFit] else []) ++
        (topics.map fun e => "hexis:topic:" ++ env.unicode.toLowerCase e.1) ++
        (if 0 < roleFit then (hit.memoryRole.map fun role => "hexis:role:" ++ role.text).toList
          else [])
      (Score.clamp (semanticFit * (6 / 10) + topicFit * (25 / 100) + roleFit * (15 / 100)),
        explanation)

def calibHexisFit (fit : ℚ) : ℚ :=
  if env.calibDisabled then Score.clamp fit else env.logistic (Score.clamp fit)

/-! ### The window and the gate -/

/-- `sorted[i].score`. -/
def scoreAt (sorted : List Hit) (i : Nat) : ℚ := ((sorted[i]?).map Hit.score).getD 0

/-- How much the score falls past the first `n` hits. -/
def boundaryGapAt (sorted : List Hit) (n : Nat) : ℚ :=
  max 0 (scoreAt sorted (n - 1) - scoreAt sorted n)

def computeAmbiguityGate (hits : List Hit) (W : Nat) (epsilon : ℚ) : ℚ :=
  if env.gateDisabled then 1
  else if hits = [] then 0
  else if hits.length < W + 1 then 1
  else
    let gap := boundaryGapAt (sortHits hits) W
    if epsilon ≤ 0 then (if gap ≤ 0 then 1 else 0)
    else if gap ≤ epsilon then 1
    else if 4 * epsilon ≤ gap then 0
    else Score.clamp ((4 * epsilon - gap) / (3 * epsilon))

/-- `Math.max(1, options?.maxRankWindow ?? DEFAULT_MAX_RANK_WINDOW)`. -/
def rankWindow (options : RerankOptions) : Nat :=
  (max 1 (options.maxRankWindow.getD defaultMaxRankWindow)).toNat

def resolveHexisReorderWindow (hits : List Hit) (options : RerankOptions) : List String :=
  let sorted := sortHits hits
  let scoreEpsilon := max 0 (options.scoreEpsilon.getD defaultScoreEpsilon)
  let cutoffScore := scoreAt sorted (min sorted.length (rankWindow options) - 1)
  ((sorted.zipIdx.filter fun e => decide (e.2 < rankWindow options) ||
    decide (cutoffScore - scoreEpsilon ≤ e.1.score)).map fun e => e.1.id)

/-! ### The boost -/

/-- `poolRankById.get(id) ?? 0`. -/
def poolRankOf (sorted : List Hit) (id : String) : Nat :=
  (((sorted.zipIdx.reverse.find? fun e => decide (e.1.id = id))).map fun e => e.2 + 1).getD 0

/-- A hit where no boost is given at all. -/
def bypassed (sorted : List Hit) (hit : Hit) : Hit :=
  let nextScoreStages := hit.scoreStages.map (OrdMap.erase · "hexis")
  { hit with
    scoreStages := nextScoreStages.filter fun stages => decide (0 < stages.size)
    preHexisScore := some hit.score
    postHexisScore := some hit.score
    poolRank := some (poolRankOf sorted hit.id)
    boundaryGap := some 0
    gateValue := some 0
    hexisMode := some 1
    laneLambda := some 0 }

def unsignalled (sorted : List Hit) (laneLambda : ℚ) (hit : Hit) : Hit :=
  { hit with
    preHexisScore := some hit.score
    postHexisScore := some hit.score
    poolRank := some (poolRankOf sorted hit.id)
    boundaryGap := some 0
    gateValue := some 0
    hexisMode := some 5
    laneLambda := some laneLambda }

/-- What a pass over the hits has worked out before it looks at one. -/
structure Pass where
  sorted : List Hit
  boundaryGap : ℚ
  gate : ℚ
  admissibleIds : List String
  lambda : ℚ
  laneLambda : ℚ

/-- The mode of a hit of the window. -/
def windowMode (gate : ℚ) : Nat :=
  if gate ≤ 0 ∧ env.gateDisabled = false then 2
  else if env.gateDisabled then 3
  else if env.calibDisabled then 4
  else 0

/-- What is added to the score of a hit of the window. -/
def boost (hexis : HexisState) (pass : Pass) (hit : Hit) : ℚ :=
  if windowMode env pass.gate = 2 then 0
  else pass.gate * pass.lambda * calibHexisFit env (scoreHexisFit env hit hexis).1 *
    Score.clamp hexis.hexisMatch * (25 / 100)

def outside (pass : Pass) (hit : Hit) : Hit :=
  { hit with
    preHexisScore := some hit.score
    postHexisScore := some hit.score
    poolRank := some (poolRankOf pass.sorted hit.id)
    boundaryGap := some pass.boundaryGap
    gateValue := some pass.gate
    hexisMode := some (if pass.gate ≤ 0 then 2 else 0)
    laneLambda := some pass.laneLambda }

def inside (hexis : HexisState) (pass : Pass) (hit : Hit) : Hit :=
  let fit := scoreHexisFit env hit hexis
  let mode := windowMode env pass.gate
  let stage : Value := .obj (.cons "fit" (.num fit.1) (.cons "boost"
    (.num (boost env hexis pass hit)) (.cons "version" (.num hexis.version) .nil)))
  { hit with
    score := hit.score + boost env hexis pass hit
    hexisId := some hexis.id
    hexisVersion := some hexis.version
    hexisFit := some fit.1
    rankingExplanation := some fit.2
    preHexisScore := some hit.score
    postHexisScore := some (hit.score + boost env hexis pass hit)
    poolRank := some (poolRankOf pass.sorted hit.id)
    boundaryGap := some pass.boundaryGap
    gateValue := some (if env.gateDisabled then 1 else pass.gate)
    hexisMode := some mode
    laneLambda := some pass.laneLambda
    scoreStages := if mode = 2 then hit.scoreStages
      else some ((hit.scoreStages.getD .empty).set "hexis" stage) }

/-- What becomes of one hit. -/
def rescored (hexis : HexisState) (pass : Pass) (hit : Hit) : Hit :=
  if pass.admissibleIds.contains hit.id then inside env hexis pass hit else outside pass hit

def applyHexisToHits (hits : List Hit) (hexis : Option HexisState) (options : RerankOptions) :
    List Hit :=
  let window := rankWindow options
  let lambda := options.lambda.getD defaultLambda
  let gateEpsilon := max 0 (options.gateEpsilon.getD defaultGateEpsilon)
  let laneLambda := options.laneLambda.getD lambda
  let sorted := sortHits hits
  if laneLambda = 0 then hits.map (bypassed sorted)
  else
    match hexis with
    | none => hits.map (unsignalled sorted laneLambda)
    | some hexis =>
        if hasHexisSignal hexis = false then hits.map (unsignalled sorted laneLambda)
        else
          hits.map (rescored env hexis
            { sorted := sorted
              boundaryGap := if window + 1 ≤ sorted.length then boundaryGapAt sorted window else 0
              gate := computeAmbiguityGate env hits window gateEpsilon
              admissibleIds := resolveHexisReorderWindow hits options
              lambda := lambda
              laneLambda := laneLambda })

/-! ### By policy -/

/-- `HexisLanePolicy`. -/
structure LanePolicy where
  enabled : Bool
  reorderWindow : Int
  scoreEpsilon : ℚ
  ambiguityThreshold : ℚ
  hexisLambda : ℚ

/-- `HexisGateDecision`. -/
structure GateDecision where
  enabled : Bool
  reason : String
  reorderWindow : Int
  ambiguityGap : ℚ
  admissibleIds : List String

/-- `HexisPolicyApplication`. -/
structure PolicyApplication where
  hits : List Hit
  gate : GateDecision

/-- The options a window is resolved with. -/
def LanePolicy.windowOptions (policy : LanePolicy) : RerankOptions :=
  { maxRankWindow := some policy.reorderWindow, scoreEpsilon := some policy.scoreEpsilon }

/-- The options hits are rescored with. -/
def LanePolicy.options (policy : LanePolicy) : RerankOptions :=
  { policy.windowOptions with lambda := some policy.hexisLambda }

/-- How far the first score is from the second. -/
def topGap (sorted : List Hit) : ℚ := scoreAt sorted 0 - scoreAt sorted 1

def evaluateHexisGate (hits : List Hit) (policy : LanePolicy) : GateDecision :=
  let sorted := sortHits hits
  let admissibleIds :=
    if policy.enabled then resolveHexisReorderWindow sorted policy.windowOptions else []
  let decision (enabled : Bool) (reason : String) (reorderWindow : Int) : GateDecision :=
    { enabled := enabled, reason := reason, reorderWindow := reorderWindow,
      ambiguityGap := topGap sorted, admissibleIds := admissibleIds }
  if policy.enabled = false then decision false "lane_disabled" 0
  else if sorted.length < 2 then decision false "insufficient_candidates" policy.reorderWindow
  else if policy.ambiguityThreshold < topGap sorted then
    decision false "top_gap_clear" policy.reorderWindow
  else decision true "ambiguous_boundary" policy.reorderWindow

def applyHexisByPolicy (hits : List Hit) (hexis : Option HexisState) (policy : LanePolicy) :
    PolicyApplication :=
  if policy.hexisLambda = 0 then
    { hits := hits.map (bypassed (sortHits hits))
      gate :=
        { enabled := false, reason := "bypass_lane_lambda", reorderWindow := policy.reorderWindow,
          ambiguityGap := topGap (sortHits hits), admissibleIds := [] } }
  else
    let gate := evaluateHexisGate hits policy
    match hexis with
    | none => { hits := hits, gate := gate }
    | some hexis =>
        if gate.enabled = false then { hits := hits, gate := gate }
        else
          { hits := sortHits (applyHexisToHits env (sortHits hits) (some hexis) policy.options)
            gate := gate }

end

end Hexis

end Runir.Recall
