import Runir.Lib.CodeUnits
import Runir.Lib.Json
import Runir.Lib.Lines
import Runir.Lib.OrdMap
import Runir.Lib.Words

/-!
# Noema — The composition log

`src/noema/composition-log.ts` and `deriveNoemaClaimContract` of `src/noema/claim-contract.ts`: the
log of a decision to compose a noema, from which the decision can be made again.

* `buildNoemaCompositionDecisionLog`, `replayNoemaCompositionDecision`.
* `normalizeCandidate_normalizeCandidate`: the candidate that is logged is normalized already.
* `replays_iff`: the log replays, also after JSON, exactly if the candidate was not made from a
  single source and the bounds compare the same when a number that is not finite is `null`.
* `promotion_not_replayed`: a candidate made from a single source is replayed as a model's.

The hash, the printing of numbers and the character database are parameters.
-/

namespace Runir.Noema

structure NoemaHost where
  unicode : Unicode
  sha256 : String → String
  numeral : ℚ → String

/-! ### Claim contracts -/

inductive NoemaClaimStatus where
  | active | superseded | conflicted | rejected
  deriving DecidableEq

def NoemaClaimStatus.text : NoemaClaimStatus → String
  | .active => "active"
  | .superseded => "superseded"
  | .conflicted => "conflicted"
  | .rejected => "rejected"

structure NoemaStableClaim where
  subject : String
  predicate : String
  value : String
  deriving DecidableEq

structure NoemaClaimContract where
  claimKey : String
  revisionHash : String
  status : NoemaClaimStatus
  stableClaim : NoemaStableClaim
  factKeySeed : Option String
  deriving DecidableEq

def identityVersion : String := "noema-claim-v1"

/-- `value?.trim().toLowerCase().replace(/\s+/g, " ")`, unless that is empty. -/
def normalizeIdentityPart (host : NoemaHost) (value : Option String) (fallback : String) : String :=
  match value with
  | none => fallback
  | some value =>
      let normalized := Text.collapse (host.unicode.toLowerCase (Text.trim value))
      if Text.truthy normalized then normalized else fallback

def normalizeValue (value : String) : String := Text.collapse (Text.trim value)

def hashParts (host : NoemaHost) (init : String) (parts : List (Option String)) : String :=
  host.sha256 (parts.foldl (fun text part => text ++ String.singleton (Char.ofNat 0) ++
    part.getD "") init)

def normalizeNoemaClaimStatus (status : Option String) : NoemaClaimStatus :=
  ([.active, .superseded, .conflicted, .rejected].find? fun valid : NoemaClaimStatus =>
    status = some valid.text).getD .active

def isValidNoemaStatusTransition (source target : NoemaClaimStatus) : Bool :=
  source = target ||
    match source with
    | .active => target = .superseded || target = .conflicted || target = .rejected
    | .conflicted => target = .active || target = .superseded || target = .rejected
    | .superseded => false
    | .rejected => false

structure DeriveNoemaClaimContractInput where
  userId : String
  scope : Option String
  path : Option String
  memoryRole : Option String
  factKey : Option String
  canonicalText : String
  category : Option String
  continuitySubjectKey : Option String
  claimSubject : Option String
  claimPredicate : Option String
  status : Option String

def deriveNoemaClaimContract (host : NoemaHost) (input : DeriveNoemaClaimContractInput) :
    NoemaClaimContract :=
  let stableClaim : NoemaStableClaim := {
    subject := normalizeIdentityPart host (input.claimSubject <|> input.continuitySubjectKey)
      (normalizeIdentityPart host input.category
        (normalizeIdentityPart host input.memoryRole "memory"))
    predicate := normalizeIdentityPart host input.claimPredicate
      (normalizeIdentityPart host input.memoryRole
        (normalizeIdentityPart host input.category "states"))
    value := normalizeValue input.canonicalText }
  let factKeySeed := (input.factKey.map Text.trim).filter Text.truthy
  let claimKey := Text.sliceTo (hashParts host "noema-claim-v1" [some input.userId,
    some (input.scope.getD "user"), some (input.path.getD "*"), factKeySeed,
    some stableClaim.subject, some stableClaim.predicate]) 32
  { claimKey := claimKey
    revisionHash := hashParts host "noema-revision-v1" [some claimKey, some stableClaim.value]
    status := normalizeNoemaClaimStatus input.status
    stableClaim := stableClaim
    factKeySeed := factKeySeed }

/-! ### The input and the log -/

/-- A number of the input, or of a log that was read from JSON, which has `null` for a number that
is not finite. -/
inductive LoggedNumber where
  | finite (q : ℚ)
  | posInf
  | negInf
  | nan
  | null
  deriving DecidableEq

structure NoemaCompositionSource where
  id : String
  text : String
  claimKey : Option String := none
  revisionHash : Option String := none
  status : Option String := none
  stableClaim : Option NoemaStableClaim := none
  deriving DecidableEq

structure NoemaCompositionPromptMetadata where
  promptName : String
  schemaName : String
  schemaVersion : String
  model : Option String := none
  temperature : Option LoggedNumber := none
  maxOutputTokens : Option LoggedNumber := none
  deriving DecidableEq

structure NoemaCompositionRunBounds where
  maxLlmCalls : LoggedNumber
  attemptedLlmCalls : LoggedNumber
  deriving DecidableEq

structure NoemaCompositionCandidate where
  canonicalText : String
  claimSubject : Option String := none
  claimPredicate : Option String := none
  factKey : Option String := none
  status : Option String := none
  supportSemioteIds : List String
  supersedesNoemaId : Option String := none
  conflictsWithNoemaIds : Option (List String) := none
  deriving DecidableEq

structure NoemaCompositionInputSnapshot where
  userId : String
  scope : Option String := none
  path : Option String := none
  memoryRole : Option String := none
  category : Option String := none
  continuitySubjectKey : Option String := none
  sources : List NoemaCompositionSource
  existingStatus : Option String := none
  allowSingletonDeterministicPromotion : Option Bool := none
  deriving DecidableEq

inductive CandidateSource where
  | model | singletonDeterministic | none
  deriving DecidableEq

def CandidateSource.text : CandidateSource → String
  | .model => "model"
  | .singletonDeterministic => "singleton_deterministic"
  | .none => "none"

structure StatusTransition where
  source : Option NoemaClaimStatus
  target : Option NoemaClaimStatus
  allowed : Bool
  deriving DecidableEq

structure NoemaCompositionValidationResult where
  accepted : Bool
  reason : String
  errors : List String
  warnings : List String
  candidateSource : CandidateSource
  claimContract : Option NoemaClaimContract
  transition : StatusTransition
  deriving DecidableEq

structure NoemaCompositionCommitDecision where
  commits : Bool
  reason : String
  status : Option NoemaClaimStatus
  claimKey : Option String
  revisionHash : Option String
  supportSemioteIds : List String
  supersedesNoemaId : Option String
  conflictsWithNoemaIds : List String
  deriving DecidableEq

structure NoemaCompositionDecisionLog where
  runId : String
  createdAt : String
  inputIds : List String
  prompt : NoemaCompositionPromptMetadata
  bounds : NoemaCompositionRunBounds
  promptHash : String
  inputHash : String
  rawOutputHash : Option String
  parsedOutputHash : Option String
  rawModelOutput : Option String
  parsedOutput : Option NoemaCompositionCandidate
  validation : NoemaCompositionValidationResult
  commitDecision : NoemaCompositionCommitDecision
  decisionHash : String
  inputSnapshot : NoemaCompositionInputSnapshot
  deriving DecidableEq

structure BuildNoemaCompositionDecisionLogInput where
  runId : String
  createdAt : String
  input : NoemaCompositionInputSnapshot
  prompt : NoemaCompositionPromptMetadata
  promptText : Option String := none
  bounds : NoemaCompositionRunBounds
  rawModelOutput : Option String := none
  parsedOutput : Option NoemaCompositionCandidate := none
  deriving DecidableEq

/-! ### `stableJson` -/

/-- `stableJson` of a string. -/
def stableString (s : String) : String := String.ofList (Json.printString s)

def stableBool (b : Bool) : String := if b then "true" else "false"

/-- `stableJson` of an array whose items are printed so. -/
def stableArray (items : List String) : String := "[" ++ Text.join "," items ++ "]"

def stableStrings (ss : List String) : String := stableArray (ss.map stableString)

/-- `stableJson` of an object with these properties, of which some may be `undefined`. -/
def stableRecord (record : OrdMap String (Option String)) : String :=
  let entries := (sortStrings record.keys).filterMap fun key =>
    ((record.get? key).join).map fun printed => stableString key ++ ":" ++ printed
  "\x7b" ++ Text.join "," entries ++ "\x7d"

def LoggedNumber.stableJson (host : NoemaHost) : LoggedNumber → String
  | .finite q => host.numeral q
  | _ => "null"

def NoemaStableClaim.stableJson (claim : NoemaStableClaim) : String :=
  stableRecord (.ofList [("subject", some (stableString claim.subject)),
    ("predicate", some (stableString claim.predicate)), ("value", some (stableString claim.value))])

def NoemaClaimContract.stableJson (contract : NoemaClaimContract) : String :=
  stableRecord (.ofList [("identityVersion", some (stableString identityVersion)),
    ("claimKey", some (stableString contract.claimKey)),
    ("revisionHash", some (stableString contract.revisionHash)),
    ("status", some (stableString contract.status.text)),
    ("stableClaim", some contract.stableClaim.stableJson),
    ("factKeySeed", contract.factKeySeed.map stableString)])

def NoemaCompositionSource.stableJson (source : NoemaCompositionSource) : String :=
  stableRecord (.ofList [("id", some (stableString source.id)),
    ("text", some (stableString source.text)), ("claimKey", source.claimKey.map stableString),
    ("revisionHash", source.revisionHash.map stableString),
    ("status", source.status.map stableString),
    ("stableClaim", source.stableClaim.map NoemaStableClaim.stableJson)])

def NoemaCompositionInputSnapshot.stableJson (input : NoemaCompositionInputSnapshot) : String :=
  stableRecord (.ofList [("userId", some (stableString input.userId)),
    ("scope", input.scope.map stableString), ("path", input.path.map stableString),
    ("memoryRole", input.memoryRole.map stableString),
    ("category", input.category.map stableString),
    ("continuitySubjectKey", input.continuitySubjectKey.map stableString),
    ("sources", some (stableArray (input.sources.map NoemaCompositionSource.stableJson))),
    ("existingStatus", input.existingStatus.map stableString),
    ("allowSingletonDeterministicPromotion",
      input.allowSingletonDeterministicPromotion.map stableBool)])

/-- Of the prompt with its text. -/
def NoemaCompositionPromptMetadata.stableJson (host : NoemaHost)
    (prompt : NoemaCompositionPromptMetadata) (promptText : Option String) : String :=
  stableRecord (.ofList [("promptName", some (stableString prompt.promptName)),
    ("schemaName", some (stableString prompt.schemaName)),
    ("schemaVersion", some (stableString prompt.schemaVersion)),
    ("model", prompt.model.map stableString),
    ("temperature", prompt.temperature.map (LoggedNumber.stableJson host)),
    ("maxOutputTokens", prompt.maxOutputTokens.map (LoggedNumber.stableJson host)),
    ("promptText", promptText.map stableString)])

def NoemaCompositionCandidate.stableJson (candidate : NoemaCompositionCandidate) : String :=
  stableRecord (.ofList [("canonicalText", some (stableString candidate.canonicalText)),
    ("claimSubject", candidate.claimSubject.map stableString),
    ("claimPredicate", candidate.claimPredicate.map stableString),
    ("factKey", candidate.factKey.map stableString),
    ("status", candidate.status.map stableString),
    ("supportSemioteIds", some (stableStrings candidate.supportSemioteIds)),
    ("supersedesNoemaId", candidate.supersedesNoemaId.map stableString),
    ("conflictsWithNoemaIds", candidate.conflictsWithNoemaIds.map stableStrings)])

def StatusTransition.stableJson (transition : StatusTransition) : String :=
  stableRecord (.ofList [
    ("from", transition.source.map fun status => stableString status.text),
    ("to", transition.target.map fun status => stableString status.text),
    ("allowed", some (stableBool transition.allowed))])

def NoemaCompositionValidationResult.stableJson (validation : NoemaCompositionValidationResult) :
    String :=
  stableRecord (.ofList [("accepted", some (stableBool validation.accepted)),
    ("reason", some (stableString validation.reason)),
    ("errors", some (stableStrings validation.errors)),
    ("warnings", some (stableStrings validation.warnings)),
    ("candidateSource", some (stableString validation.candidateSource.text)),
    ("claimContract", validation.claimContract.map NoemaClaimContract.stableJson),
    ("transition", some validation.transition.stableJson)])

def NoemaCompositionCommitDecision.stableJson (decision : NoemaCompositionCommitDecision) :
    String :=
  stableRecord (.ofList [
    ("action", some (stableString (if decision.commits then "commit" else "no_commit"))),
    ("reason", some (stableString decision.reason)),
    ("status", decision.status.map fun status => stableString status.text),
    ("claimKey", decision.claimKey.map stableString),
    ("revisionHash", decision.revisionHash.map stableString),
    ("supportSemioteIds", some (stableStrings decision.supportSemioteIds)),
    ("supersedesNoemaId", decision.supersedesNoemaId.map stableString),
    ("conflictsWithNoemaIds", some (stableStrings decision.conflictsWithNoemaIds))])

/-! ### The decision -/

def normalizeString (value : Option String) : String :=
  (value.map fun value => Text.collapse (Text.trim value)).getD ""

/-- `normalizeString(value) || undefined`. -/
def normalizeOptional (value : Option String) : Option String :=
  some (normalizeString value) |>.filter Text.truthy

def uniqueSorted (values : List String) : List String :=
  sortStrings (distinct ((values.map Text.trim).filter Text.truthy))

def normalizeCandidate (candidate : NoemaCompositionCandidate) : NoemaCompositionCandidate where
  canonicalText := normalizeString (some candidate.canonicalText)
  claimSubject := normalizeOptional candidate.claimSubject
  claimPredicate := normalizeOptional candidate.claimPredicate
  factKey := normalizeOptional candidate.factKey
  status := some (normalizeNoemaClaimStatus candidate.status).text
  supportSemioteIds := uniqueSorted candidate.supportSemioteIds
  supersedesNoemaId := normalizeOptional candidate.supersedesNoemaId
  conflictsWithNoemaIds := some (uniqueSorted (candidate.conflictsWithNoemaIds.getD []))

def buildSingletonCandidate (input : NoemaCompositionInputSnapshot) :
    Option NoemaCompositionCandidate :=
  if input.allowSingletonDeterministicPromotion = some true then
    match input.sources with
    | [source] =>
        if Text.truthy (Text.trim source.text) then
          some (normalizeCandidate {
            canonicalText := source.text
            claimSubject := source.stableClaim.map NoemaStableClaim.subject
            claimPredicate := source.stableClaim.map NoemaStableClaim.predicate
            status := source.status <|> some "active"
            supportSemioteIds := [source.id] })
        else none
    | _ => none
  else none

def deriveClaimContract (host : NoemaHost) (input : NoemaCompositionInputSnapshot)
    (candidate : NoemaCompositionCandidate) : NoemaClaimContract :=
  deriveNoemaClaimContract host {
    userId := input.userId
    scope := input.scope
    path := input.path
    memoryRole := input.memoryRole
    category := input.category
    continuitySubjectKey := input.continuitySubjectKey
    factKey := candidate.factKey
    canonicalText := candidate.canonicalText
    claimSubject := candidate.claimSubject
    claimPredicate := candidate.claimPredicate
    status := candidate.status }

/-- `Number(value)`, where that is a number. -/
def LoggedNumber.value : LoggedNumber → Option (WithBot (WithTop ℚ))
  | .finite q => some (q : WithTop ℚ)
  | .posInf => some ⊤
  | .negInf => some ⊥
  | .nan => none
  | .null => some (0 : WithTop ℚ)

/-- `bounds.attemptedLlmCalls > bounds.maxLlmCalls`. -/
def NoemaCompositionRunBounds.exceeded (bounds : NoemaCompositionRunBounds) : Bool :=
  match bounds.attemptedLlmCalls.value, bounds.maxLlmCalls.value with
  | some attempted, some max => max < attempted
  | _, _ => false

def transitionAllowed (existingStatus requestedStatus : Option NoemaClaimStatus) : Bool :=
  match requestedStatus with
  | some requested =>
      existingStatus.all fun existing => isValidNoemaStatusTransition existing requested
  | none => false

def candidateErrors (input : NoemaCompositionInputSnapshot)
    (candidate : NoemaCompositionCandidate) : List String :=
  (if Text.truthy candidate.canonicalText then [] else ["empty_canonical_text"]) ++
    (if candidate.supportSemioteIds = [] then ["missing_support_ids"] else []) ++
    ((candidate.supportSemioteIds.filter fun supportId =>
      !(input.sources.map NoemaCompositionSource.id).contains supportId).map fun supportId =>
        "unknown_support_id:" ++ supportId)

/-- A status in a message. -/
def statusText (status : Option NoemaClaimStatus) : String :=
  (status.map NoemaClaimStatus.text).getD "undefined"

def candidateOf (input : NoemaCompositionInputSnapshot)
    (parsedOutput : Option NoemaCompositionCandidate) :
    Option NoemaCompositionCandidate × CandidateSource :=
  match parsedOutput with
  | some output => (some (normalizeCandidate output), .model)
  | none =>
      match buildSingletonCandidate input with
      | some candidate => (some candidate, .singletonDeterministic)
      | none => (none, .none)

def validateCandidate (host : NoemaHost) (input : NoemaCompositionInputSnapshot)
    (bounds : NoemaCompositionRunBounds) (parsedOutput : Option NoemaCompositionCandidate) :
    Option NoemaCompositionCandidate × NoemaCompositionValidationResult :=
  let candidate := (candidateOf input parsedOutput).1
  let claimContract := candidate.map (deriveClaimContract host input)
  let requestedStatus := candidate.map fun candidate => normalizeNoemaClaimStatus candidate.status
  let existingStatus := (input.existingStatus.filter Text.truthy).map fun status =>
    normalizeNoemaClaimStatus (some status)
  let allowed := transitionAllowed existingStatus requestedStatus
  let warnings := if (candidate.bind fun candidate => candidate.conflictsWithNoemaIds).any
    fun ids => !ids.isEmpty then ["candidate_conflicts_with_existing_noema"] else []
  let errors := (if bounds.exceeded then ["llm_call_budget_exceeded"] else []) ++
    (match candidate with
    | some candidate => candidateErrors input candidate
    | none => ["missing_candidate"]) ++
    (if !allowed && requestedStatus.isSome then
      ["invalid_status_transition:" ++ statusText existingStatus ++ "->" ++
        statusText requestedStatus]
    else [])
  (candidate,
    { accepted := errors.isEmpty
      reason := errors.head?.getD "accepted"
      errors := errors
      warnings := warnings
      candidateSource := (candidateOf input parsedOutput).2
      claimContract := claimContract
      transition := { source := existingStatus, target := requestedStatus, allowed := allowed } })

def decideCommit (candidate : Option NoemaCompositionCandidate)
    (validation : NoemaCompositionValidationResult) : NoemaCompositionCommitDecision :=
  let conflictsWithNoemaIds := (candidate.bind
    NoemaCompositionCandidate.conflictsWithNoemaIds).getD []
  match candidate, validation.claimContract, validation.accepted with
  | some candidate, some claimContract, true =>
      if claimContract.status = .conflicted ∨ conflictsWithNoemaIds ≠ [] then
        { commits := false
          reason := "candidate_conflict_detected"
          status := some .conflicted
          claimKey := some claimContract.claimKey
          revisionHash := some claimContract.revisionHash
          supportSemioteIds := candidate.supportSemioteIds
          supersedesNoemaId := candidate.supersedesNoemaId
          conflictsWithNoemaIds := conflictsWithNoemaIds }
      else
        { commits := true
          reason := "deterministic_validation_passed"
          status := some claimContract.status
          claimKey := some claimContract.claimKey
          revisionHash := some claimContract.revisionHash
          supportSemioteIds := candidate.supportSemioteIds
          supersedesNoemaId := candidate.supersedesNoemaId
          conflictsWithNoemaIds := conflictsWithNoemaIds }
  | candidate, claimContract, _ =>
      { commits := false
        reason := validation.reason
        status := claimContract.map NoemaClaimContract.status
        claimKey := claimContract.map NoemaClaimContract.claimKey
        revisionHash := claimContract.map NoemaClaimContract.revisionHash
        supportSemioteIds := (candidate.map NoemaCompositionCandidate.supportSemioteIds).getD []
        supersedesNoemaId := candidate.bind NoemaCompositionCandidate.supersedesNoemaId
        conflictsWithNoemaIds := conflictsWithNoemaIds }

def buildNoemaCompositionDecisionLog (host : NoemaHost)
    (input : BuildNoemaCompositionDecisionLogInput) : NoemaCompositionDecisionLog :=
  let (candidate, validation) := validateCandidate host input.input input.bounds input.parsedOutput
  let commitDecision := decideCommit candidate validation
  { runId := input.runId
    createdAt := input.createdAt
    inputIds := input.input.sources.map NoemaCompositionSource.id
    prompt := input.prompt
    bounds := input.bounds
    promptHash := host.sha256 (stableRecord (.ofList [
      ("prompt", some (input.prompt.stableJson host input.promptText))]))
    inputHash := host.sha256 input.input.stableJson
    rawOutputHash := input.rawModelOutput.map host.sha256
    parsedOutputHash := candidate.map fun candidate => host.sha256 candidate.stableJson
    rawModelOutput := input.rawModelOutput
    parsedOutput := candidate
    validation := validation
    commitDecision := commitDecision
    decisionHash := host.sha256 (stableRecord (.ofList [
      ("validation", some validation.stableJson),
      ("commitDecision", some commitDecision.stableJson)]))
    inputSnapshot := input.input }

structure NoemaCompositionReplayResult where
  reproduced : Bool
  replayedLog : NoemaCompositionDecisionLog
  originalDecisionHash : String
  replayedDecisionHash : String

def replayNoemaCompositionDecision (host : NoemaHost) (log : NoemaCompositionDecisionLog) :
    NoemaCompositionReplayResult :=
  let replayedLog := buildNoemaCompositionDecisionLog host {
    runId := log.runId
    createdAt := log.createdAt
    input := log.inputSnapshot
    prompt := log.prompt
    bounds := log.bounds
    rawModelOutput := log.rawModelOutput
    parsedOutput := log.parsedOutput }
  { reproduced := replayedLog.decisionHash = log.decisionHash
    replayedLog := replayedLog
    originalDecisionHash := log.decisionHash
    replayedDecisionHash := replayedLog.decisionHash }

/-! ### Through JSON -/

def LoggedNumber.throughJson : LoggedNumber → LoggedNumber
  | .finite q => .finite q
  | _ => .null

def NoemaCompositionRunBounds.throughJson (bounds : NoemaCompositionRunBounds) :
    NoemaCompositionRunBounds :=
  ⟨bounds.maxLlmCalls.throughJson, bounds.attemptedLlmCalls.throughJson⟩

/-- `JSON.parse(JSON.stringify(log))`: strings, booleans and arrays come back as they were, and what
is `undefined` is absent. -/
def NoemaCompositionDecisionLog.throughJson (log : NoemaCompositionDecisionLog) :
    NoemaCompositionDecisionLog :=
  { log with
    prompt := { log.prompt with
      temperature := log.prompt.temperature.map LoggedNumber.throughJson
      maxOutputTokens := log.prompt.maxOutputTokens.map LoggedNumber.throughJson }
    bounds := log.bounds.throughJson }

/-! ### A logged candidate is normalized -/

theorem truthy_iff {s : String} : Text.truthy s = true ↔ s ≠ "" := by
  simp [Text.truthy]

theorem normalizeString_some (s : String) :
    normalizeString (some (normalizeString (some s))) = normalizeString (some s) :=
  Text.collapse_trim_collapse_trim s

theorem normalizeOptional_normalizeOptional (value : Option String) :
    normalizeOptional (normalizeOptional value) = normalizeOptional value := by
  have hstring : normalizeString (some (normalizeString value)) = normalizeString value := by
    cases value with
    | none => rfl
    | some s => exact normalizeString_some s
  by_cases htruthy : Text.truthy (normalizeString value) = true
  · have hsome : normalizeOptional value = some (normalizeString value) :=
      Option.filter_eq_some_iff.mpr ⟨rfl, htruthy⟩
    rw [hsome, normalizeOptional, hstring]
    exact hsome
  · have hnone : normalizeOptional value = none :=
      Option.filter_eq_none_iff.mpr fun s hs => by
        cases hs
        exact htruthy
    rw [hnone]
    rfl

theorem normalizeNoemaClaimStatus_text (status : NoemaClaimStatus) :
    normalizeNoemaClaimStatus (some status.text) = status := by
  cases status with
  | active => rfl
  | superseded => rfl
  | conflicted => rfl
  | rejected => rfl

theorem uniqueSorted_uniqueSorted (values : List String) :
    uniqueSorted (uniqueSorted values) = uniqueSorted values := by
  have hplain : ∀ s ∈ uniqueSorted values, Text.trim s = s ∧ Text.truthy s = true := by
    intro s hs
    obtain ⟨hmem, htruthy⟩ := List.mem_filter.mp (mem_distinct.mp (mem_sortStrings.mp hs))
    obtain ⟨value, -, rfl⟩ := List.mem_map.mp hmem
    exact ⟨trim_trim value, htruthy⟩
  have hmap : (uniqueSorted values).map Text.trim = uniqueSorted values :=
    (List.map_congr_left fun s hs => (hplain s hs).1).trans (List.map_id _)
  have hfilter : (uniqueSorted values).filter Text.truthy = uniqueSorted values :=
    List.filter_eq_self.mpr fun s hs => (hplain s hs).2
  have hagain : uniqueSorted (uniqueSorted values) =
      sortStrings (distinct (uniqueSorted values)) := by
    conv_lhs => rw [uniqueSorted, hmap, hfilter]
  rw [hagain]
  exact sortStrings_distinct_sortStrings _

/-- **A candidate that is normalized is left as it is.** -/
theorem normalizeCandidate_normalizeCandidate (candidate : NoemaCompositionCandidate) :
    normalizeCandidate (normalizeCandidate candidate) = normalizeCandidate candidate := by
  simp only [normalizeCandidate, normalizeString_some, normalizeOptional_normalizeOptional,
    normalizeNoemaClaimStatus_text, Option.getD_some, uniqueSorted_uniqueSorted]

/-! ### Replaying -/

/-- The replay of a log, given as it is or through JSON, comes to what is in the log. -/
structure Replays (host : NoemaHost) (log given : NoemaCompositionDecisionLog) : Prop where
  reproduced : (replayNoemaCompositionDecision host given).reproduced = true
  validation : (replayNoemaCompositionDecision host given).replayedLog.validation = log.validation
  commitDecision : (replayNoemaCompositionDecision host given).replayedLog.commitDecision =
    log.commitDecision
  parsedOutputHash : (replayNoemaCompositionDecision host given).replayedLog.parsedOutputHash =
    log.parsedOutputHash
  decisionHash : (replayNoemaCompositionDecision host given).replayedLog.decisionHash =
    log.decisionHash

/-- A decision commits only what cites its sources, in a transition that is valid. -/
structure CommitsSoundly (input : NoemaCompositionInputSnapshot)
    (parsedOutput : Option NoemaCompositionCandidate) (log : NoemaCompositionDecisionLog) : Prop where
  supported : ∀ id ∈ log.commitDecision.supportSemioteIds, ∃ source ∈ input.sources, source.id = id
  cited : ∀ output ∈ parsedOutput, ∀ id ∈ output.supportSemioteIds, Text.trim id ≠ "" →
    ∃ source ∈ input.sources, source.id = Text.trim id
  transition : ∃ status, log.commitDecision.status = some status ∧
    ∀ existing, input.existingStatus = some existing → existing ≠ "" →
      isValidNoemaStatusTransition (normalizeNoemaClaimStatus (some existing)) status = true

/-- A candidate is made from a single source. -/
def Promotes (input : BuildNoemaCompositionDecisionLogInput) : Prop :=
  input.parsedOutput = none ∧ input.input.allowSingletonDeterministicPromotion = some true ∧
    ∃ source, input.input.sources = [source] ∧ Text.trim source.text ≠ ""

section
variable {host : NoemaHost} {input : BuildNoemaCompositionDecisionLogInput}

theorem promotes_iff : Promotes input ↔
    input.parsedOutput = none ∧ (buildSingletonCandidate input.input).isSome = true := by
  refine and_congr_right fun _ => ?_
  rw [buildSingletonCandidate]
  constructor
  · rintro ⟨hallow, source, hsources, htext⟩
    rw [if_pos hallow, hsources]
    simp [truthy_iff.mpr htext]
  · intro h
    split at h
    · next hallow =>
        split at h
        · next source hsources =>
            split at h
            · next htext => exact ⟨hallow, source, hsources, truthy_iff.mp htext⟩
            · exact nomatch h
        · exact nomatch h
    · exact nomatch h

/-- What commits is a candidate that was accepted, with what it cites and its status. -/
theorem decideCommit_commits {candidate : Option NoemaCompositionCandidate}
    {validation : NoemaCompositionValidationResult}
    (h : (decideCommit candidate validation).commits = true) :
    ∃ c contract, candidate = some c ∧ validation.claimContract = some contract ∧
      validation.accepted = true ∧
      (decideCommit candidate validation).supportSemioteIds = c.supportSemioteIds ∧
      (decideCommit candidate validation).status = some contract.status := by
  obtain ⟨accepted, reason, errors, warnings, candidateSource, claimContract, transition⟩ := validation
  cases candidate with
  | none => exact nomatch h
  | some c =>
      cases claimContract with
      | none => exact nomatch h
      | some contract =>
          cases accepted with
          | false => exact nomatch h
          | true =>
              refine ⟨c, contract, rfl, rfl, rfl, ?_⟩
              simp only [decideCommit] at h ⊢
              split at h
              · exact nomatch h
              · next hfree =>
                  rw [if_neg hfree]
                  exact ⟨rfl, rfl⟩

/-- What a decision that commits rests on: a candidate with no error. -/
theorem exists_of_commits
    (h : (buildNoemaCompositionDecisionLog host input).commitDecision.commits = true) :
    ∃ candidate, (candidateOf input.input input.parsedOutput).1 = some candidate ∧
      candidateErrors input.input candidate = [] ∧
      transitionAllowed ((input.input.existingStatus.filter Text.truthy).map fun status =>
        normalizeNoemaClaimStatus (some status))
        (some (normalizeNoemaClaimStatus candidate.status)) = true ∧
      (buildNoemaCompositionDecisionLog host input).commitDecision.supportSemioteIds =
        candidate.supportSemioteIds ∧
      (buildNoemaCompositionDecisionLog host input).commitDecision.status =
        some (normalizeNoemaClaimStatus candidate.status) := by
  obtain ⟨candidate, contract, hcandidate, hcontract, haccepted, hsupports, hstatus⟩ :=
    decideCommit_commits h
  have hderived : (candidateOf input.input input.parsedOutput).1.map
      (deriveClaimContract host input.input) = some contract := hcontract
  have hsome : (candidateOf input.input input.parsedOutput).1 = some candidate := hcandidate
  rw [hsome, Option.map_some] at hderived
  rw [← Option.some.inj hderived] at hstatus
  simp only [hsome, List.isEmpty_iff, List.append_eq_nil_iff] at haccepted
  obtain ⟨⟨-, herrors⟩, htransition⟩ := haccepted
  refine ⟨candidate, hsome, herrors, ?_, hsupports, hstatus⟩
  rw [Option.map_some] at htransition
  by_contra hnot
  rw [if_pos (by simp [hnot])] at htransition
  exact nomatch htransition

theorem commitsSoundly (hcommits : (buildNoemaCompositionDecisionLog host input).commitDecision.commits
      = true) : CommitsSoundly input.input input.parsedOutput
        (buildNoemaCompositionDecisionLog host input) := by
  obtain ⟨candidate, hcandidate, herrors, hallowed, hsupports, hstatus⟩ :=
    exists_of_commits hcommits
  have hknown : ∀ id ∈ candidate.supportSemioteIds, ∃ source ∈ input.input.sources,
      source.id = id := by
    intro id hid
    have hunknown := (List.append_eq_nil_iff.mp herrors).2
    have hin := List.filter_eq_nil_iff.mp (List.map_eq_nil_iff.mp hunknown) id hid
    simpa using hin
  refine ⟨fun id hid => hknown id (hsupports ▸ hid), ?_, ?_⟩
  · intro output houtput id hid hne
    refine hknown _ ?_
    rw [Option.mem_def.mp houtput] at hcandidate
    have heq : some (normalizeCandidate output) = some candidate := hcandidate
    rw [← Option.some.inj heq]
    refine mem_sortStrings.mpr (mem_distinct.mpr (List.mem_filter.mpr ⟨?_, truthy_iff.mpr hne⟩))
    exact List.mem_map_of_mem hid
  · refine ⟨_, hstatus, fun existing hexisting hne => ?_⟩
    rw [hexisting, Option.filter_some, if_pos (truthy_iff.mpr hne)] at hallowed
    exact hallowed

/-- A replay is given the candidate, the input and the bounds of the log. -/
theorem candidateOf_logged (h : ¬Promotes input) :
    candidateOf input.input (candidateOf input.input input.parsedOutput).1 =
      candidateOf input.input input.parsedOutput := by
  cases hparsed : input.parsedOutput with
  | some output =>
      have hagain := normalizeCandidate_normalizeCandidate output
      show (some (normalizeCandidate (normalizeCandidate output)), CandidateSource.model) = _
      rw [hagain]
      rfl
  | none =>
      cases hsingle : buildSingletonCandidate input.input with
      | some candidate =>
          exact absurd (promotes_iff.mpr ⟨hparsed, by rw [hsingle]; rfl⟩) h
      | none =>
          have hnone : candidateOf input.input none = (none, .none) := by
            rw [candidateOf, hsingle]
          rw [hnone, hnone]

theorem validateCandidate_congr {bounds bounds' : NoemaCompositionRunBounds}
    {snapshot : NoemaCompositionInputSnapshot} {output output' : Option NoemaCompositionCandidate}
    (hcandidate : candidateOf snapshot output = candidateOf snapshot output')
    (hbounds : bounds.exceeded = bounds'.exceeded) :
    validateCandidate host snapshot bounds output =
      validateCandidate host snapshot bounds' output' := by
  simp only [validateCandidate, hcandidate, hbounds]

variable {given : NoemaCompositionDecisionLog}

/-- What is validated the same is decided the same. -/
theorem Replays.of_validateCandidate (hinput : given.inputSnapshot = input.input)
    (hhash : given.decisionHash = (buildNoemaCompositionDecisionLog host input).decisionHash)
    (h : validateCandidate host input.input given.bounds given.parsedOutput =
      validateCandidate host input.input input.bounds input.parsedOutput) :
    Replays host (buildNoemaCompositionDecisionLog host input) given := by
  have hdecision : (replayNoemaCompositionDecision host given).replayedLog.decisionHash =
      (buildNoemaCompositionDecisionLog host input).decisionHash := by
    simp only [replayNoemaCompositionDecision, buildNoemaCompositionDecisionLog, hinput, h]
  refine ⟨?_, ?_, ?_, ?_, hdecision⟩
  · exact decide_eq_true (hdecision.trans hhash.symm)
  · simp only [replayNoemaCompositionDecision, buildNoemaCompositionDecisionLog, hinput, h]
  · simp only [replayNoemaCompositionDecision, buildNoemaCompositionDecisionLog, hinput, h]
  · simp only [replayNoemaCompositionDecision, buildNoemaCompositionDecisionLog, hinput, h]

/-- A replay that comes to the same validation is of no candidate from a single source. -/
theorem not_promotes_of_replays
    (h : Replays host (buildNoemaCompositionDecisionLog host input)
      (buildNoemaCompositionDecisionLog host input)) : ¬Promotes input := by
  intro hpromotes
  obtain ⟨hparsed, hsingle⟩ := promotes_iff.mp hpromotes
  obtain ⟨candidate, hcandidate⟩ := Option.isSome_iff_exists.mp hsingle
  have hfirst : candidateOf input.input input.parsedOutput = (some candidate, .singletonDeterministic) := by
    rw [hparsed, candidateOf, hcandidate]
  have hsource : (candidateOf input.input (candidateOf input.input input.parsedOutput).1).2 =
      (candidateOf input.input input.parsedOutput).2 :=
    congrArg NoemaCompositionValidationResult.candidateSource h.validation
  rw [hfirst] at hsource
  exact nomatch hsource

theorem exceeded_of_replays (hinput : given.inputSnapshot = input.input)
    (hcandidate : candidateOf input.input given.parsedOutput =
      candidateOf input.input input.parsedOutput)
    (h : Replays host (buildNoemaCompositionDecisionLog host input) given) :
    given.bounds.exceeded = input.bounds.exceeded := by
  have herrors : (validateCandidate host given.inputSnapshot given.bounds given.parsedOutput).2.errors =
      (validateCandidate host input.input input.bounds input.parsedOutput).2.errors :=
    congrArg NoemaCompositionValidationResult.errors h.validation
  rw [hinput] at herrors
  simp only [validateCandidate, hcandidate] at herrors
  have hlength := congrArg List.length herrors
  simp only [List.length_append] at hlength
  revert hlength
  cases given.bounds.exceeded <;> cases input.bounds.exceeded <;> simp

/-- **A log replays exactly if its candidate was not made from a single source**, and after JSON if
the bounds also compare the same. -/
theorem replays_iff :
    (Replays host (buildNoemaCompositionDecisionLog host input)
        (buildNoemaCompositionDecisionLog host input) ∧
      Replays host (buildNoemaCompositionDecisionLog host input)
        (buildNoemaCompositionDecisionLog host input).throughJson ∧
      ((buildNoemaCompositionDecisionLog host input).commitDecision.commits = true →
        CommitsSoundly input.input input.parsedOutput
          (buildNoemaCompositionDecisionLog host input))) ↔
      ¬Promotes input ∧ input.bounds.throughJson.exceeded = input.bounds.exceeded := by
  constructor
  · rintro ⟨hdirect, hjson, -⟩
    have hnot := not_promotes_of_replays hdirect
    exact ⟨hnot, exceeded_of_replays rfl (candidateOf_logged hnot) hjson⟩
  · rintro ⟨hnot, hbounds⟩
    have hcandidate := candidateOf_logged hnot
    exact ⟨.of_validateCandidate rfl rfl (validateCandidate_congr hcandidate rfl),
      .of_validateCandidate rfl rfl (validateCandidate_congr hcandidate hbounds), commitsSoundly⟩

end

/-- A single source and no output of a model. -/
def promotedInput : BuildNoemaCompositionDecisionLogInput where
  runId := "run-001"
  createdAt := "2026-05-14T12:00:00.000Z"
  input := {
    userId := "user-1"
    sources := [{ id := "semiote:a", text := "User prefers compact Noema recall." }]
    allowSingletonDeterministicPromotion := some true }
  prompt := {
    promptName := "noema-composer"
    schemaName := "noema-composition-candidate"
    schemaVersion := "1" }
  bounds := { maxLlmCalls := .finite 0, attemptedLlmCalls := .finite 0 }

/-- Hashes that keep all of their input. -/
def plainHost : NoemaHost := ⟨.ascii, id, toString⟩

/-- The replay takes the logged candidate for the model's. -/
theorem promotion_not_replayed :
    ¬Replays plainHost (buildNoemaCompositionDecisionLog plainHost promotedInput)
      (buildNoemaCompositionDecisionLog plainHost promotedInput) := by
  intro h
  refine not_promotes_of_replays h ⟨rfl, rfl, _, rfl, ?_⟩
  decide +kernel

end Runir.Noema
