import Runir.Continuity.ProjectStates
import Runir.Recall.Injection
import Runir.Recall.StatusPolicy

/-!
# Recall — What a continuity payload says

`buildSessionOpenerPayload` of `src/recall/continuity/session-opener.ts`, with
`src/recall/continuity/blocker-next-step.ts` and `directiveToStateLine` of
`src/continuity/directives.ts`: from the state of a project and the hits to the payload.

The evidence of a payload, which no injection shows, is left out.
-/

namespace Runir
open Regex

/-! ### Directives -/

def directiveToStateLine (directive : ContinuityDirective) : Option String :=
  if directive.status = .stale then none
  else
    match directive.kind with
    | .avoidance | .constraint => some (ensureSentence ("Avoid: " ++ directive.text))
    | .question => some (ensureSentence ("Question: " ++ directive.text))
    | .verification => some (ensureSentence ("Verify: " ++ directive.text))
    | .decision => some (ensureSentence ("Decision: " ++ directive.text))
    | _ => some (ensureSentence directive.text)

namespace Recall

/-! ### Texts -/

/-- `compactText`, and `summarizeContinuityText`. -/
def compactText (text : Option String) (maxLength : Nat := 180) : String :=
  (compactDirectiveText (text.getD "") maxLength).getD ""

/-- `/^(.+?[.!?])(?:\s|$)/`, from the second character on. -/
def sentenceEnd? : List Char → Option (List Char)
  | [] => none
  | c :: cs =>
      if (c = '.' || c = '!' || c = '?') && cs.head?.all Text.isSpace then some [c]
      else (sentenceEnd? cs).map (c :: ·)

/-- `firstSentence`, of either the whole text or its first sentence. -/
def firstSentence (text : Option String) : String :=
  let normalized := compactText text 400
  match normalized.toList with
  | [] => ""
  | c :: cs =>
      match sentenceEnd? cs with
      | some sentence => compactText (String.ofList (c :: sentence))
      | none => compactText normalized

/-- At most `n` times, as few as will do. -/
def fewest : Nat → Regex → Regex
  | 0, _ => .empty
  | n + 1, r => .alt .empty (.seq r (fewest n r))

/-- `\s+`. -/
def spaces : Regex := plus (.cls Text.isSpace)

/-- `.+?` in a text of `n` characters without line ends. -/
def someText (n : Nat) : Regex := .seq (.cls fun _ => true) (fewest n (.cls fun _ => true))

/-- `(?:the\s+)?`. -/
def article : Regex := opt (seqs [liti "the", spaces])

/-- `(?:[.;]|$)`. -/
def clauseEnd : Regex := .alt (oneOf ".;") (.test fun _ after => after.isNone)

def pendingRollout (n : Nat) : Regex :=
  seqs [bound, liti "pending", spaces, liti "rollout", spaces, liti "of", spaces, article,
    .group 1 (someText n), spaces, liti "to", spaces, article, .group 2 (someText n), clauseEnd]

def untilLands (n : Nat) : Regex :=
  seqs [bound, liti "blocked", bound, someText n, bound, liti "until", spaces, article,
    .group 1 (someText n), spaces, .alt (liti "lands") (liti "is rolled out"), spaces,
    .alt (liti "in") (liti "to"), spaces, article, .group 2 (someText n), clauseEnd]

def normalizeArticle (text : String) : String :=
  Text.trim (Text.dropFirst (seqs [.test fun before _ => before.isNone,
    alts [liti "the", liti "a", liti "an"], spaces]) text)

def formatRolloutCompletion (subject target : String) : String :=
  let normalizedSubject := normalizeArticle subject
  let normalizedTarget := normalizeArticle target
  let rolloutSubject :=
    if Text.test (phrase "rollout") normalizedSubject then normalizedSubject
    else normalizedSubject ++ " rollout"
  let targetPhrase :=
    if normalizedTarget.toList.any Text.isSpace then "the " ++ normalizedTarget
    else normalizedTarget
  compactText ("Complete the " ++ rolloutSubject ++ " to " ++ targetPhrase ++ ".") 120

/-- The completion a pattern's two groups name. -/
def rolloutOf (pattern : Nat → Regex) (normalized : String) : Option String := do
  let found ← (pattern normalized.toList.length).exec normalized.toList
  let subject ← found.group? 1
  let target ← found.group? 2
  return formatRolloutCompletion (String.ofList subject) (String.ofList target)

def inferNextStepFromBlocker (text : String) : Option String :=
  if mentions text ["blocked", "blocker", "waiting on"] then
    let normalized := compactText text 400
    (rolloutOf pendingRollout normalized).or (rolloutOf untilLands normalized)
  else none

/-- `path.basename`. -/
def basename (path : String) : String :=
  String.ofList ((path.toList.reverse.dropWhile (· = '/')).takeWhile (· ≠ '/')).reverse

/-! ### Signals -/

/-- `ENV_PATTERNS`. -/
def envPatterns : List Regex :=
  [ phrase "tsconfig.json", seqs [bound, liti "npx", spaces, liti "tsx", bound],
    phrase "scripts/", seqs [bound, liti "script run", opt (liti "s"), bound],
    phrase "environment setup", phrase "base url", phrase "api key",
    seqs [bound, liti "port", spaces, plus digit, bound] ]

/-- `NEXT_STEP_PATTERNS`. -/
def nextStepPatterns : List Regex :=
  [ phrase "next step", phrase "next", phrase "todo", phrase "remaining", phrase "resume here",
    seqs [bound, liti "follow", oneOf "- ", liti "up", bound] ]

/-- `PROCESS_HEAVY_PATTERNS`. -/
def processHeavyPatterns : List Regex :=
  [ seqs [bound, liti "read", oneOf "- ", liti "path", bound], phrase "context insufficiency",
    seqs [bound, liti "project", opt (oneOf "_ -"), liti "state update flow", bound],
    phrase "watermark progression", phrase "sessionid",
    seqs [bound, liti "retrieval trace", opt (liti "s"), bound], phrase "lib/http.sh",
    phrase "userpromptsubmit", phrase "sessionstart" ]

def includesEnvSignal (text : String) : Bool := envPatterns.any fun pattern => Text.test pattern text

def includesNextSignal (text : String) : Bool :=
  nextStepPatterns.any fun pattern => Text.test pattern text

/-- `BLOCKER_PATTERNS`. -/
def includesBlockerSignal (text : String) : Bool :=
  mentions text ["blocked", "blocker", "waiting on"]

def isProcessHeavyContinuity (text : Option String) : Bool :=
  let normalized := compactText text 400
  Text.truthy normalized && processHeavyPatterns.any fun pattern => Text.test pattern normalized

/-! ### Hits -/

def roleOf (hit : SearchHit) : MemoryRole :=
  hit.memoryRole.getD (classifyRecallMemoryKind hit).role

def titleOfHit (hit : SearchHit) : String :=
  let title := compactText (some (hit.l0.getD (firstSentence hit.text))) 120
  if title = "" then "Continuity Evidence" else title

def summaryOfHit (hit : SearchHit) : String :=
  compactText ((some hit.text).filter Text.truthy |>.or (hit.l1.filter Text.truthy) |>.or hit.l0) 220

/-! ### What it is about -/

section
variable (projectState : Option ProjectStateRecord) (hits : List SearchHit)
  (requestedPath : Option String)

/-- The name a requested path ends in. -/
def requestedName : Option String := (requestedPath.filter Text.truthy).map basename

def deriveProjectLabel : Option String :=
  let candidates := hits.map (·.l0) ++ hits.map (fun hit => some (firstSentence hit.text)) ++
    [projectState.bind (·.content.currentFocus), projectState.bind (·.content.latestProgress)]
  let best := ((candidates.filter fun candidate => !isProcessHeavyContinuity candidate).map
    fun candidate => compactText candidate 80).find? Text.truthy
  best.or (requestedName requestedPath)

/-- What a path may go on with. -/
def pathText : Regex := plus (.cls isPlainScalarChar)

/-- The first text of a pattern. -/
def firstMatch (pattern : Regex) (text : String) : Option String :=
  (pattern.exec text.toList).map fun found => String.ofList found.text

/-- What a hit names: an endpoint, or a file. -/
def areaOfHit (hit : SearchHit) : Option String :=
  let text := hit.l0.getD "" ++ "\n" ++ hit.text
  if isProcessHeavyContinuity text then none
  else
    ((firstMatch (seqs [chr '/', pathText]) text).filter (· ≠ "/clear")).or
      (firstMatch (seqs [alts [lit "src", lit "test", lit "scripts", lit "cli", lit "docs",
        lit "openclaw-plugin"], chr '/', pathText]) text)

def deriveArea : Option String := (hits.findSome? areaOfHit).or (requestedName requestedPath)

def isStrongContinuity (hit : SearchHit) : Bool :=
  [MemoryRole.currentStatus, .sessionHandoff, .recentWork, .debuggingActive,
    .planningActive].contains (roleOf hit)

def deriveConfidence (usedPathFallback : Bool) (directives : List ContinuityDirective) :
    SessionOpenerConfidence :=
  let exactProjectState := projectState.any fun state =>
    (requestedPath.filter Text.truthy).isNone || decide (state.path = requestedPath)
  let strongContinuity := hits.any isStrongContinuity || !directives.isEmpty
  if exactProjectState && strongContinuity && !usedPathFallback then .high
  else if projectState.isSome || strongContinuity then .medium
  else .low

def isBlockingDirective (directive : ContinuityDirective) : Bool :=
  directive.status = .blocked || directive.kind = .blocker || directive.kind = .dependency ||
    directive.polarity = .waitFor

def deriveStatus (directives : List ContinuityDirective) : SessionOpenerStatus :=
  if directives.any isBlockingDirective ||
      projectState.any (fun state => !state.content.blockers.isEmpty) ||
      hits.any fun hit => includesBlockerSignal hit.text then .blocked
  else if projectState.isSome || !hits.isEmpty then .active
  else .stale

end

/-! ### The sections -/

/-- What has been pushed. -/
structure OpenerSections where
  evidenceTitles : List String := []
  focus : List String := []
  state : List String := []
  env : List String := []
  next : List String := []
  transitionalMemoryAdmitted : Bool := false

def pushUnique (target : List String) (value : Option String) (maxLength : Nat) : List String :=
  let normalized := compactText value maxLength
  if normalized = "" ∨ normalized ∈ target then target else target ++ [normalized]

namespace OpenerSections
variable (s : OpenerSections)

def pushTitle (title : String) : OpenerSections :=
  { s with evidenceTitles := pushUnique s.evidenceTitles title 120 }

def pushFocus (value : Option String) : OpenerSections :=
  { s with focus := pushUnique s.focus value 180 }

def pushState (value : Option String) (maxLength : Nat) : OpenerSections :=
  { s with state := pushUnique s.state value maxLength }

def pushEnv (value : Option String) : OpenerSections := { s with env := pushUnique s.env value 180 }

def pushNext (value : Option String) : OpenerSections :=
  { s with next := pushUnique s.next value 180 }

/-- A hit whose role was not stored. -/
def admitHit (hit : SearchHit) : OpenerSections :=
  if hit.memoryRole.isNone && decide (roleOf hit ≠ .projectState) then
    { s with transitionalMemoryAdmitted := true }
  else s

/-- A hit that supports the surroundings of the work. -/
def isEnvHit (hit : SearchHit) : Bool :=
  includesEnvSignal (summaryOfHit hit) ||
    [MemoryRole.operationalNoise, .deployOps, .adminProcess].contains (roleOf hit)

def addHit (hit : SearchHit) : OpenerSections :=
  let role := roleOf hit
  let summary := summaryOfHit hit
  let s := s.admitHit hit
  match role with
  | .sessionHandoff => (s.pushTitle (titleOfHit hit)).pushNext summary
  | .currentStatus | .debuggingActive | .planningActive =>
      if isProcessHeavyContinuity summary then s
      else
        let s := s.pushTitle (titleOfHit hit)
        let s :=
          if role = .planningActive || includesNextSignal summary then s.pushNext summary
          else if s.focus.length < 4 then s.pushFocus summary
          else s.pushState summary 220
        s.pushNext (inferNextStepFromBlocker summary)
  | .recentWork => (s.pushTitle (titleOfHit hit)).pushState summary 220
  | _ =>
      let s := s.pushTitle (titleOfHit hit)
      if isEnvHit hit then s.pushEnv summary
      else if includesNextSignal summary then s.pushNext summary
      else (s.pushState summary 220).pushNext (inferNextStepFromBlocker summary)

def addSupplementalHit (hit : SearchHit) : OpenerSections :=
  let summary := summaryOfHit hit
  if isEnvHit hit then ((s.pushTitle (titleOfHit hit)).admitHit hit).pushEnv summary
  else if includesNextSignal summary then
    ((s.pushTitle (titleOfHit hit)).admitHit hit).pushNext summary
  else s

def addDirective (directive : ContinuityDirective) : OpenerSections :=
  (s.pushState (directiveToStateLine directive) 180).pushNext (directiveToNextStep directive)

def addProjectState (directives : List ContinuityDirective) (content : ProjectStateContent) :
    OpenerSections :=
  let s := s.pushTitle "Project State / Current Status"
  let s :=
    if s.focus.isEmpty && !isProcessHeavyContinuity content.currentFocus then
      s.pushFocus content.currentFocus
    else s
  let s :=
    if s.state.isEmpty && !isProcessHeavyContinuity content.latestProgress then
      s.pushState content.latestProgress 220
    else s
  let s := content.blockers.foldl (fun s blocker => s.pushState blocker 180) s
  let s := content.blockers.foldl (fun s blocker => s.pushNext blocker) s
  let s := content.nextSteps.foldl (fun s step => s.pushNext step) s
  directives.foldl addDirective s

/-- A focus or a state that would be left empty. -/
def fill (latestProgress : Option String) : OpenerSections :=
  let s := if s.focus.isEmpty then s.pushFocus (latestProgress.filter Text.truthy) else s
  if s.state.isEmpty then s.pushState s.focus.head? 220 else s

end OpenerSections

/-! ### The payload -/

def buildSessionOpenerPayload (projectState : Option ProjectStateRecord)
    (hits supplementalHits : List SearchHit) (requestedPath : Option String)
    (usedPathFallback : Bool) : Option SessionOpenerPayload :=
  if projectState.isNone && hits.isEmpty && supplementalHits.isEmpty then none
  else
    let directives :=
      normalizeContinuityDirectives ((projectState.map (·.content.directives)).getD [])
    let s := hits.foldl OpenerSections.addHit {}
    let s := supplementalHits.foldl OpenerSections.addSupplementalHit s
    let warnings :=
      (if usedPathFallback then [SessionOpenerWarning.pathFallbackUsed] else []) ++
        if s.transitionalMemoryAdmitted then [.transitionalMemoryAdmitted] else []
    let s := (projectState.map fun state => s.addProjectState directives state.content).getD s
    let s := s.fill (projectState.bind (·.content.latestProgress))
    some
      { confidence := deriveConfidence projectState hits requestedPath usedPathFallback directives
        project := deriveProjectLabel projectState hits requestedPath
        area := deriveArea hits requestedPath
        path := requestedPath.or (projectState.bind (·.path))
        status := deriveStatus projectState hits directives
        focus := s.focus.take 2
        state := s.state.take 8
        env := if s.focus.isEmpty && s.next.isEmpty then s.env else []
        next := s.next.take 6
        directives
        evidenceTitles := s.evidenceTitles.take 5
        warnings }

/-- There is a payload where there is something to say. -/
theorem isSome_buildSessionOpenerPayload (projectState : Option ProjectStateRecord)
    (hits : List SearchHit) (requestedPath : Option String) (usedPathFallback : Bool) :
    (buildSessionOpenerPayload projectState hits [] requestedPath usedPathFallback).isSome =
      (projectState.isSome || !hits.isEmpty) := by
  cases projectState with
  | none =>
      cases hits with
      | nil => rfl
      | cons hit hits => rfl
  | some state => rfl

end Recall

end Runir
