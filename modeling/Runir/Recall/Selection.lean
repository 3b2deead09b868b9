import Runir.Recall.Injection
import Runir.Recall.StatusPolicy

/-!
# Recall — Selection

`src/recall/selection/recall-selection.ts` with `src/recall/policy/admissibility-contract.ts`: the
stages that make the selected memories out of what was retrieved.

* `applyStaleSignalDemotion`, `applyRecencyPenaltyForStatus`: scores go down, nothing is dropped.
* `collapseContradictions`: of two memories that say the same, one stays.
* `buildCandidatePoolForSelectorProfile`: what a selector profile admits, in its own order.
* `selectPathScopedTopK`, `enforcePrimaryRepresentativeOnSelection`, `fitSelectionToBudget`.
* `postProcessRecallResults`: all of them, one after the other.

The audit of the admissibility and the preference packet, which no stage reads, are left out.
-/

namespace Runir.Recall

/-! ### Contracts -/

inductive SelectorProfile where
  | statusContinuity | guidanceReference | workflowPosture | recentWork | mixedDefault
  deriving DecidableEq

inductive AdmissibilityContinuityClass where
  | durableGuidance | transientContinuity | neutral
  deriving DecidableEq

inductive AdmissibilityContinuityDisposition where
  | preferred | allowed | capped | compatibilityOnly | disallowed
  deriving DecidableEq

structure AdmissibilityCap where
  group : RecallMemoryKind
  max : Nat

/-- `AdmissibilityContractDefinition`, without what only the audit shows. -/
structure AdmissibilityContractDefinition where
  selectorProfile : SelectorProfile
  primaryGroups : List RecallMemoryKind
  secondaryGroups : List RecallMemoryKind
  barredGroups : List RecallMemoryKind
  cappedGroups : List AdmissibilityCap
  continuityClasses : AdmissibilityContinuityClass → AdmissibilityContinuityDisposition
  requirePrimaryRepresentative : Bool

def guidanceReferenceContract : AdmissibilityContractDefinition where
  selectorProfile := .guidanceReference
  primaryGroups := [.planningActive, .architectureReference]
  secondaryGroups := [.recentWork, .sessionHandoff]
  barredGroups := [.currentStatus, .operationalNoise, .adminProcess, .deployOps]
  cappedGroups := []
  continuityClasses
    | .durableGuidance => .preferred
    | .transientContinuity => .capped
    | .neutral => .disallowed
  requirePrimaryRepresentative := true

def workflowPostureContract : AdmissibilityContractDefinition where
  selectorProfile := .workflowPosture
  primaryGroups := [.planningActive, .sessionHandoff]
  secondaryGroups := [.recentWork, .architectureReference]
  barredGroups := [.operationalNoise, .adminProcess, .deployOps]
  cappedGroups := [⟨.currentStatus, 1⟩]
  continuityClasses
    | .durableGuidance => .preferred
    | .transientContinuity => .capped
    | .neutral => .disallowed
  requirePrimaryRepresentative := true

def recentWorkContract : AdmissibilityContractDefinition where
  selectorProfile := .recentWork
  primaryGroups := [.recentWork, .planningActive, .architectureReference]
  secondaryGroups := [.sessionHandoff, .currentStatus]
  barredGroups := [.operationalNoise, .adminProcess, .deployOps]
  cappedGroups := [⟨.currentStatus, 1⟩]
  continuityClasses
    | .durableGuidance => .allowed
    | .transientContinuity => .allowed
    | .neutral => .disallowed
  requirePrimaryRepresentative := true

def statusContinuityContract : AdmissibilityContractDefinition where
  selectorProfile := .statusContinuity
  primaryGroups := [.currentStatus, .sessionHandoff, .recentWork, .debuggingActive]
  secondaryGroups := [.planningActive, .architectureReference]
  barredGroups := []
  cappedGroups := []
  continuityClasses _ := .compatibilityOnly
  requirePrimaryRepresentative := false

def resolveAdmissibilityContractForSelectorProfile :
    SelectorProfile → Option AdmissibilityContractDefinition
  | .guidanceReference => some guidanceReferenceContract
  | .workflowPosture => some workflowPostureContract
  | .recentWork => some recentWorkContract
  | .statusContinuity => some statusContinuityContract
  | .mixedDefault => none

/-! ### Rendering -/

/-- Whether a sentence ends at a character, by what follows it. -/
def endsSentence (c : Char) (rest : List Char) : Bool :=
  (c == '。' || c == '！' || c == '？') ||
    ((c == '.' || c == '!' || c == '?') && rest.head?.all Text.isSpace)

def firstSentenceChars : List Char → List Char
  | [] => []
  | c :: cs => if endsSentence c cs then [c] else c :: firstSentenceChars cs

def extractFirstSentence (text : String) : String :=
  String.ofList (firstSentenceChars (Text.trimChars text.toList))

/-- `formatAtDepth`, of an entry with a text and what is stored of its shorter forms. -/
def formatAtDepth (text : String) (l0 l1 : Option String) (depth : RecallDepth) : String :=
  let abstract := ((l0.map Text.trim).filter Text.truthy).getD (extractFirstSentence text)
  match depth with
  | .l0 => abstract
  | .l1 =>
      match (l1.map Text.trim).filter Text.truthy with
      | some storedL1 => storedL1
      | none =>
          let firstSentence := extractFirstSentence text
          if firstSentence = "" then abstract
          else if abstract = "" then firstSentence
          else if abstract = firstSentence then abstract
          else abstract ++ "\n" ++ firstSentence
  | .full => text

/-- A hit as it is shown: one that answers exactly is shown in full. -/
def renderHit (depth : RecallDepth) (hit : SearchHit) : String :=
  formatAtDepth hit.text hit.l0 hit.l1 (if hit.exactQaCandidate = some true then .full else depth)

/-! ### Demotion -/

/-- The part of `RankingProfile` the selection reads, with a pattern as what it accepts. -/
structure RankingProfile where
  staleSignals : QueryIntent → Option (List (String → Bool)) := fun _ => none
  knownRenames : List ((String → Bool) × (String → Bool)) := []

/-- Whether a hit is noise under an intent: by a pattern, or because it was learned to be. -/
def isStale (label : QueryIntent) (profile : RankingProfile) (learnedNoiseIds : List String)
    (hit : SearchHit) : Bool :=
  ((profile.staleSignals label).getD []).any (fun matches? => matches? hit.text) ||
    isStatusClassIntent label && learnedNoiseIds.contains hit.id

structure Demotion where
  demoted : List SearchHit
  staleDemotedIds : List String

def applyStaleSignalDemotion (hits : List SearchHit) (label : QueryIntent)
    (profile : RankingProfile) (learnedNoiseIds : List String) : Demotion :=
  let learnedApplies := !learnedNoiseIds.isEmpty && isStatusClassIntent label
  if (profile.staleSignals label).isNone && !learnedApplies then ⟨hits, []⟩
  else
    let stale := isStale label profile learnedNoiseIds
    { demoted := sortByScore (hits.map fun hit =>
        if stale hit then { hit with score := hit.score.times (40 / 100) } else hit)
      staleDemotedIds := (hits.filter stale).map SearchHit.id }

/-- `applyRecencyPenaltyForStatus`, of memories older than seven days. -/
def applyRecencyPenaltyForStatus (host : Host) (now : Int) (hits : List SearchHit)
    (label : QueryIntent) : List SearchHit :=
  if !isStatusClassIntent label then hits
  else
    let cutoff := now - 7 * 86400000
    sortByScore (hits.map fun hit =>
      let created := match hit.createdAt.filter Text.truthy with
        | none => some 0
        | some createdAt => host.dateParse createdAt
      if created.any (· < cutoff) then { hit with score := hit.score.times (50 / 100) } else hit)

/-! ### Collapse -/

section
variable (host : Host)

def normalizeStatementKey (text : String) : String :=
  let kept := (host.unicode.toLowerCase text).toList.filter fun c =>
    Regex.isLowerChar c || Regex.isDigitChar c || Text.isSpace c
  Text.trim (Text.collapse (String.ofList kept))

def wordSet (text : String) : List String :=
  distinct ((Text.splitOn (normalizeStatementKey host text) ' ').filter Text.truthy)

def jaccardSimilarity (a b : List String) : ℚ :=
  if a = [] ∧ b = [] then 1
  else
    let intersection := (a.filter b.contains).length
    let union := a.length + b.length - intersection
    if union = 0 then 0 else (intersection : ℚ) / union

/-- Whether `tieBreakWinner` answers its first argument. -/
def winsTie (a b : SearchHit) : Bool :=
  if a.path?.isSome && b.path?.isNone then true
  else if b.path?.isSome && a.path?.isNone then false
  else if a.confidence.getD 0 ≠ b.confidence.getD 0 then
    decide (b.confidence.getD 0 < a.confidence.getD 0)
  else
    let aDate := (a.updatedAt.or a.createdAt).getD ""
    let bDate := (b.updatedAt.or b.createdAt).getD ""
    if aDate ≠ bDate then decide (bDate < aDate)
    else match a.score, b.score with
      | some x, some y => decide (y ≤ x)
      | _, _ => false

def tieBreakWinner (a b : SearchHit) : SearchHit := if winsTie a b then a else b

/-- The best of some hits. -/
def bestOf : List SearchHit → Option SearchHit
  | [] => none
  | hit :: hits => some (hits.foldl tieBreakWinner hit)

/-- The id a rename pair eliminates. -/
def renameLoser (hits : List SearchHit) (pair : (String → Bool) × (String → Bool)) :
    Option String :=
  match bestOf (hits.filter fun hit => pair.1 hit.text),
    bestOf (hits.filter fun hit => pair.2 hit.text) with
  | some bestA, some bestB =>
      let winner := tieBreakWinner bestA bestB
      some (if winner.id = bestA.id then bestB.id else bestA.id)
  | _, _ => none

structure FirstSentence where
  hit : SearchHit
  key : String
  words : List String

def firstSentenceOf (hit : SearchHit) : FirstSentence :=
  let first := extractFirstSentence hit.text
  ⟨hit, normalizeStatementKey host first, wordSet host first⟩

/-- Whether a hit says what one before it says. -/
def repeats (existing incoming : FirstSentence) : Bool :=
  (existing.key == incoming.key ||
      decide (7 / 10 < jaccardSimilarity existing.words incoming.words)) &&
    !areAnswerDistinctTexts host (extractFirstSentence existing.hit.text)
      (extractFirstSentence incoming.hit.text) &&
    isCompactComparableClaim host existing.hit.text && isCompactComparableClaim host incoming.hit.text

/-- The first that a hit repeats, with the better of the two in its place; and the id of the
other. -/
def mergeInto (incoming : FirstSentence) :
    List FirstSentence → Option (List FirstSentence × String)
  | [] => none
  | existing :: rest =>
      if repeats host existing incoming then
        if winsTie existing.hit incoming.hit then some (existing :: rest, incoming.hit.id)
        else some (incoming :: rest, existing.hit.id)
      else (mergeInto incoming rest).map fun r => (existing :: r.1, r.2)

structure Collapse where
  firstSentences : List FirstSentence := []
  eliminatedIds : List String

def Collapse.add (c : Collapse) (hit : SearchHit) : Collapse :=
  let incoming := firstSentenceOf host hit
  match mergeInto host incoming c.firstSentences with
  | some (firstSentences, loserId) => ⟨firstSentences, loserId :: c.eliminatedIds⟩
  | none => { c with firstSentences := c.firstSentences ++ [incoming] }

def collapseContradictions (hits : List SearchHit)
    (knownRenames : List ((String → Bool) × (String → Bool))) : List SearchHit :=
  let renamed := knownRenames.filterMap (renameLoser hits)
  let collapse := (withoutIds renamed hits).foldl (Collapse.add host) { eliminatedIds := renamed }
  withoutIds collapse.eliminatedIds hits

end

/-! ### Candidates -/

inductive ClientScopeMode where
  | none | prefer | strict
  deriving DecidableEq

def applyPreferredClientSoftScope (hits : List SearchHit) (preferredClient : Option String)
    (mode : ClientScopeMode) : List SearchHit :=
  match preferredClient.filter Text.truthy, mode with
  | .none, _ => hits
  | some _, .none => hits
  | some preferred, .strict => hits.filter fun hit => hit.client = some preferred
  | some preferred, .prefer =>
      sortByScore (hits.map fun hit =>
        match hit.client.filter Text.truthy with
        | .none => hit
        | some client =>
            if client = preferred then { hit with score := hit.score.times (108 / 100) }
            else { hit with score := hit.score.times (72 / 100) })

def continuityClassForKind : RecallMemoryKind → AdmissibilityContinuityClass
  | .architectureReference => .durableGuidance
  | .planningActive => .durableGuidance
  | .sessionHandoff => .durableGuidance
  | .currentStatus => .transientContinuity
  | .recentWork => .transientContinuity
  | .debuggingActive => .transientContinuity
  | .researchContext => .neutral
  | .deployOps => .neutral
  | .adminProcess => .neutral
  | .operationalNoise => .neutral

namespace AdmissibilityContractDefinition
variable (contract : AdmissibilityContractDefinition)

/-- `cappedGroups.get(kind)`; of two caps on a kind the later one counts. -/
def cap? (kind : RecallMemoryKind) : Option Nat :=
  (contract.cappedGroups.reverse.find? fun cap => cap.group = kind).map AdmissibilityCap.max

def continuityDispositionScore (kind : RecallMemoryKind) : ℚ :=
  match contract.continuityClasses (continuityClassForKind kind) with
  | .preferred => 1
  | .allowed => 8 / 10
  | .capped => 55 / 100
  | .compatibilityOnly => 45 / 100
  | .disallowed => 0

def roleScore (kind : RecallMemoryKind) : ℚ :=
  if contract.primaryGroups.contains kind then 1
  else if contract.secondaryGroups.contains kind then 72 / 100
  else if (contract.cap? kind).isSome then 45 / 100
  else 15 / 100

def isAdmissible (kind : RecallMemoryKind) : Bool :=
  !contract.barredGroups.contains kind &&
    (contract.primaryGroups.contains kind || contract.secondaryGroups.contains kind ||
      (contract.cap? kind).isSome)

end AdmissibilityContractDefinition

/-- The hits with no more of a capped kind than its cap, taken in order. -/
def underCaps (contract : AdmissibilityContractDefinition) (counts : RecallMemoryKind → Nat) :
    List SearchHit → List SearchHit
  | [] => []
  | hit :: hits =>
      let kind := classifyRecallMemoryKind hit
      if (contract.cap? kind).any (· ≤ counts kind) then underCaps contract counts hits
      else hit :: underCaps contract (Function.update counts kind (counts kind + 1)) hits

section
variable (host : Host) (pow : ℚ → ℚ → ℚ) (now : Int)

def scorePolicyDrivenHit (requestedPath : Option String)
    (contract : AdmissibilityContractDefinition) (maxScore : Score) (hit : SearchHit) : Score := do
  let kind := classifyRecallMemoryKind hit
  let semantic ←
    if maxScore.any (0 < ·) then do return Score.clamp ((← hit.score) / (← maxScore)) else some 0
  let age ← match hit.stamp? with
    | none => some 999
    | some stamp => ageDays host now stamp
  return 42 / 100 * semantic + 20 / 100 * contract.roleScore kind +
    13 / 100 * scoreScopeMatch hit requestedPath + 10 / 100 * pow (1 / 2) (age / 14) +
    15 / 100 * contract.continuityDispositionScore kind

def isOnPath (requestedPath : Option String) (hit : SearchHit) : Bool :=
  match requestedPath.filter Text.truthy with
  | none => true
  | some requested => decide (hit.path = some requested) || hit.path?.isNone

def shapePolicyDrivenHits (hits : List SearchHit) (requestedPath : Option String)
    (contract : AdmissibilityContractDefinition) : List SearchHit :=
  let scopedHits := hits.filter (isOnPath requestedPath)
  let admissibleCandidates := scopedHits.filter fun hit =>
    contract.isAdmissible (classifyRecallMemoryKind hit)
  let maxScore := Score.maxWithOne (admissibleCandidates.map SearchHit.score)
  let reranked := sortByScore (admissibleCandidates.map fun hit =>
    { hit with
      score := scorePolicyDrivenHit host pow now requestedPath contract maxScore hit
      memoryRole := hit.memoryRole.or (some (classifyRecallMemoryKind hit).role) })
  underCaps contract (fun _ => 0) reranked

def buildCandidatePoolForSelectorProfile (hits : List SearchHit) (selectorProfile : SelectorProfile)
    (requestedPath preferredClient : Option String) (clientScopeMode : ClientScopeMode)
    (contract : Option AdmissibilityContractDefinition) : List SearchHit :=
  let clientScopedHits := applyPreferredClientSoftScope hits preferredClient clientScopeMode
  let resolvedContract :=
    contract.or (resolveAdmissibilityContractForSelectorProfile selectorProfile)
  match selectorProfile with
  | .statusContinuity =>
      let filtered := filterCurrentStatusCandidates clientScopedHits requestedPath
      rerankCurrentStatusHits host pow now filtered.selectedPool requestedPath
  | .guidanceReference | .workflowPosture | .recentWork =>
      match resolvedContract with
      | some resolved => shapePolicyDrivenHits host pow now clientScopedHits requestedPath resolved
      | none => clientScopedHits
  | .mixedDefault => clientScopedHits

end

/-! ### The selection -/

/-- The selection of `selectPathScopedTopK`, with one pathless hit where the path has enough. -/
def selectPathScopedTopK (hits : List SearchHit) (requestedPath : Option String) (topK : Nat) :
    List SearchHit :=
  match requestedPath.filter Text.truthy with
  | none => hits.take topK
  | some requested =>
      let exactBucket := sortByScore (hits.filter fun hit => hit.path = some requested)
      let nullBucket := sortByScore (hits.filter fun hit => hit.path?.isNone)
      let exact := exactBucket.take topK
      let adaptiveCap :=
        if (topK + 1) / 2 ≤ exactBucket.length then 1 else topK - exactBucket.length
      exact ++ nullBucket.take (min adaptiveCap (topK - exact.length))

def primaryKindsForContract (selectorProfile : SelectorProfile)
    (contract : Option AdmissibilityContractDefinition) : List RecallMemoryKind :=
  let fallbackContract := resolveAdmissibilityContractForSelectorProfile selectorProfile
  if contract.any (fun c => !c.requirePrimaryRepresentative) then []
  else if fallbackContract.any (fun c => !c.requirePrimaryRepresentative) then []
  else ((contract.or fallbackContract).map (·.primaryGroups)).getD []

/-- A hit of one of these kinds. -/
def isOfKind (kinds : List RecallMemoryKind) (hit : SearchHit) : Bool :=
  kinds.contains (classifyRecallMemoryKind hit)

def enforcePrimaryRepresentativeOnSelection (selected candidatePool : List SearchHit)
    (selectorProfile : SelectorProfile) (contract : Option AdmissibilityContractDefinition)
    (topK : Nat) : List SearchHit :=
  let primaryKinds := primaryKindsForContract selectorProfile contract
  if primaryKinds = [] then selected
  else if selected.any (isOfKind primaryKinds) then selected
  else
    match candidatePool.find? (isOfKind primaryKinds) with
    | none => selected
    | some fallbackPrimary =>
        fallbackPrimary ::
          (selected.filter fun hit => hit.id ≠ fallbackPrimary.id).take (topK - 1)

/-! ### The budget -/

def resolveBudgetTokens (value : Option ℚ) : Option Nat :=
  value.bind fun budget => if 0 < ⌊budget⌋ then some ⌊budget⌋.toNat else none

/-- `BUDGET_DEPTH_LADDER`. -/
def budgetDepthLadder : RecallDepth → List RecallDepth
  | .full => [.full, .l1, .l0]
  | .l1 => [.l1, .l0]
  | .l0 => [.l0]

def wrappedInjectionTokens (renderedLines : List String) : Nat :=
  match formatRecallInjectionFromRendered (renderedLines.map String.toList) with
  | some wrapped => approximateTokens wrapped
  | none => 0

/-- `RecallBudgetFitAudit`. -/
structure RecallBudgetFitAudit where
  budgetTokens : Nat
  approximateTokens : Nat
  depth : RecallDepth
  degraded : Bool
  droppedIds : List String

structure BudgetFit where
  selected : List SearchHit
  renderedText : List String
  budgetFit : RecallBudgetFitAudit

/-- How many hits are left once the tail is dropped that is over the budget. -/
def fittingLength (depth : RecallDepth) (budgetTokens : Nat) (hits : List SearchHit) : Nat → Nat
  | 0 => 0
  | n + 1 =>
      if budgetTokens < wrappedInjectionTokens ((hits.take (n + 1)).map (renderHit depth)) then
        fittingLength depth budgetTokens hits n
      else n + 1

def fitSelectionToBudget (selected : List SearchHit) (intentDepth : RecallDepth)
    (budgetTokens : Nat) : BudgetFit :=
  let tokens := fun depth => wrappedInjectionTokens (selected.map (renderHit depth))
  match (budgetDepthLadder intentDepth).find? fun depth => tokens depth ≤ budgetTokens with
  | some depth =>
      { selected
        renderedText := selected.map (renderHit depth)
        budgetFit := ⟨budgetTokens, tokens depth, depth, decide (depth ≠ intentDepth), []⟩ }
  | none =>
      -- the last rung of every ladder
      let kept := selected.take (fittingLength .l0 budgetTokens selected selected.length)
      let lines := kept.map (renderHit .l0)
      { selected := kept
        renderedText := lines
        budgetFit := ⟨budgetTokens, wrappedInjectionTokens lines, .l0, decide (.l0 ≠ intentDepth),
          (selected.drop kept.length).map SearchHit.id⟩ }

/-! ### All stages -/

structure PostProcessOpts where
  intent : IntentSignal
  topK : Nat
  requestedPath : Option String := none
  preferredClient : Option String := none
  clientScopeMode : Option ClientScopeMode := none
  selectorProfile : Option SelectorProfile := none
  admissibilityContract : Option AdmissibilityContractDefinition := none
  nowMs : Option Int := none
  rankingProfile : Option RankingProfile := none
  learnedNoiseIds : List String := []
  budgetTokens : Option ℚ := none

/-- `PostProcessResult`. -/
structure PostProcessResult where
  selected : List SearchHit
  renderedText : List String
  accessTrackedIds : List String
  dropped : List SearchHit
  budgetFit : Option RecallBudgetFitAudit

namespace PostProcessOpts
variable (opts : PostProcessOpts)

/-- `opts.rankingProfile ?? EMPTY_PROFILE`. -/
def ranking : RankingProfile := opts.rankingProfile.getD {}

def profile : SelectorProfile :=
  opts.selectorProfile.getD
    (if isStatusClassIntent opts.intent.label then .statusContinuity else .mixedDefault)

def isPayloadShapedLabel : Bool :=
  [QueryIntent.sessionOpener, .preCompaction, .postCompactionValidation].contains opts.intent.label

variable (host : Host) (pow : ℚ → ℚ → ℚ) (clock : Int) (hits : List SearchHit)

/-- The pool the selection is made from. -/
def candidatePool : List SearchHit :=
  let now := opts.nowMs.getD clock
  let demotion :=
    applyStaleSignalDemotion hits opts.intent.label opts.ranking opts.learnedNoiseIds
  let afterRecency := applyRecencyPenaltyForStatus host now demotion.demoted opts.intent.label
  let afterCollapse := collapseContradictions host afterRecency opts.ranking.knownRenames
  buildCandidatePoolForSelectorProfile host pow now afterCollapse opts.profile opts.requestedPath
    opts.preferredClient (opts.clientScopeMode.getD .none) opts.admissibilityContract

/-- The selection before it is fitted to a budget. -/
def rankedSelection : List SearchHit :=
  let pool := opts.candidatePool host pow clock hits
  enforcePrimaryRepresentativeOnSelection (selectPathScopedTopK pool opts.requestedPath opts.topK)
    pool opts.profile opts.admissibilityContract opts.topK

/-- The selection at the end, what it is rendered as, and how it was fitted. -/
def fittedSelection : List SearchHit × List String × Option RecallBudgetFitAudit :=
  let selected := opts.rankedSelection host pow clock hits
  match resolveBudgetTokens opts.budgetTokens with
  | some budgetTokens =>
      if opts.isPayloadShapedLabel then (selected, selected.map (renderHit opts.intent.depth), none)
      else
        let fit := fitSelectionToBudget selected opts.intent.depth budgetTokens
        (fit.selected, fit.renderedText, some fit.budgetFit)
  | none => (selected, selected.map (renderHit opts.intent.depth), none)

end PostProcessOpts

/-- `postProcessRecallResults`. -/
def postProcessRecallResults (host : Host) (pow : ℚ → ℚ → ℚ) (clock : Int) (hits : List SearchHit)
    (opts : PostProcessOpts) : PostProcessResult :=
  let staleDemotedIds :=
    (applyStaleSignalDemotion hits opts.intent.label opts.ranking
      opts.learnedNoiseIds).staleDemotedIds
  let (selected, renderedText, budgetFit) := opts.fittedSelection host pow clock hits
  let nullPathIds := (selected.filter fun hit =>
    opts.requestedPath.any Text.truthy && hit.path?.isNone).map SearchHit.id
  { selected
    renderedText
    accessTrackedIds := ((selected.filter fun hit =>
        hit.sourceKind ≠ some .noema && !nullPathIds.contains hit.id &&
          !staleDemotedIds.contains hit.id).map SearchHit.id).filter Text.truthy
    dropped := withoutIds (selected.map SearchHit.id) (opts.candidatePool host pow clock hits)
    budgetFit }

end Runir.Recall
