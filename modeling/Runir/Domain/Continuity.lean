import Runir.Lib.Host

/-!
# Domain — Continuity directives

The directives of `src/domain/memory/lifecycle.ts`, and their normal form in
`src/continuity/directives.ts`.
-/

namespace Runir

inductive ContinuityDirectiveKind where
  | action | blocker | constraint | avoidance | question | verification | dependency | handoff
  | decision
  deriving DecidableEq

inductive ContinuityDirectivePolarity where
  | do | doNot | waitFor | ask | verify | decide | remember
  deriving DecidableEq

inductive ContinuityDirectiveStatus where
  | open | blocked | done | stale
  deriving DecidableEq

inductive ContinuityDirectiveOwner where
  | user | assistant | external | unknown
  deriving DecidableEq

inductive ContinuityDirectiveSource where
  | explicit | inferred
  deriving DecidableEq

def ContinuityDirectiveKind.text : ContinuityDirectiveKind → String
  | .action => "action"
  | .blocker => "blocker"
  | .constraint => "constraint"
  | .avoidance => "avoidance"
  | .question => "question"
  | .verification => "verification"
  | .dependency => "dependency"
  | .handoff => "handoff"
  | .decision => "decision"

def ContinuityDirectivePolarity.text : ContinuityDirectivePolarity → String
  | .do => "do"
  | .doNot => "do_not"
  | .waitFor => "wait_for"
  | .ask => "ask"
  | .verify => "verify"
  | .decide => "decide"
  | .remember => "remember"

def ContinuityDirectiveStatus.text : ContinuityDirectiveStatus → String
  | .open => "open"
  | .blocked => "blocked"
  | .done => "done"
  | .stale => "stale"

def ContinuityDirectiveOwner.text : ContinuityDirectiveOwner → String
  | .user => "user"
  | .assistant => "assistant"
  | .external => "external"
  | .unknown => "unknown"

def ContinuityDirectiveSource.text : ContinuityDirectiveSource → String
  | .explicit => "explicit"
  | .inferred => "inferred"

structure ContinuityDirective where
  kind : ContinuityDirectiveKind
  polarity : ContinuityDirectivePolarity
  status : ContinuityDirectiveStatus
  text : String
  condition : Option String := none
  subject : Option String := none
  target : Option String := none
  owner : Option ContinuityDirectiveOwner := none
  source : ContinuityDirectiveSource
  confidence : ℚ
  evidence : String

/-! ### Normal form -/

/-- `compactDirectiveText`. -/
def compactDirectiveText (value : String) (maxLength : Nat := 400) : Option String :=
  let normalized := Text.trim (Text.collapse value)
  if normalized = "" then none
  else if Text.length normalized ≤ maxLength then some normalized
  else
    let cut := (Text.sliceUnits normalized (maxLength - 1)).toList
    some (String.ofList ((cut.reverse.dropWhile Text.isSpace).reverse ++ ['…']))

/-- `normalizeContinuityDirective`, of a directive whose enumerations are known. -/
def normalizeContinuityDirective (raw : ContinuityDirective) : Option ContinuityDirective :=
  (compactDirectiveText raw.text).map fun text =>
    { raw with
      text := text
      confidence := max 0 (min 1 raw.confidence)
      evidence := (compactDirectiveText raw.evidence).getD text
      condition := raw.condition.bind compactDirectiveText
      subject := raw.subject.bind compactDirectiveText
      target := raw.target.bind compactDirectiveText }

/-- What two directives are the same by. -/
def ContinuityDirective.key (directive : ContinuityDirective) :
    ContinuityDirectiveKind × ContinuityDirectivePolarity × ContinuityDirectiveStatus × String :=
  (directive.kind, directive.polarity, directive.status, directive.text)

/-- `normalizeContinuityDirectives`: at most ten, the first of each key. -/
def normalizeContinuityDirectives (input : List ContinuityDirective) : List ContinuityDirective :=
  ((input.filterMap normalizeContinuityDirective).foldl (fun directives directive =>
    if directives.any (fun seen => seen.key = directive.key) then directives
    else directives ++ [directive]) []).take 10

end Runir
