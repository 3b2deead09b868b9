import Runir.Capture.Extraction

/-!
# Capture — Fact values

`src/capture/extraction/capture.ts` on facts as a model writes them, where a property may be of any
shape: what each coercion makes of a value, and `normalizeExtractedFact`, which throws on some.

* `Value.converts`: JSON has no functions, so an object that has a `toString` has one that cannot
  be called; neither it nor an array around it has a text or a number.
* `RawFact`: the properties of a fact; an array among the facts has none of them.
* `normalizeExtractedFact`: the fact of a `RawFact`, `none` where it throws.
-/

namespace Runir

mutual

/-- `String(v)` does not throw. -/
def Value.converts : Value → Bool
  | .arr xs => xs.convert
  | .obj fs => !fs.keys.contains "toString"
  | _ => true

def Values.convert : Values → Bool
  | .nil => true
  | .cons x xs => x.converts && xs.convert

end

/-- `fs[k] = v`. -/
def Fields.set (k : String) (v : Value) : Fields → Fields
  | .nil => .cons k v .nil
  | .cons k' x fs => if k' = k then .cons k v fs else .cons k' x (fs.set k v)

/-- `fs[k] = undefined`, which is read as `delete fs[k]` is. -/
def Fields.drop (k : String) : Fields → Fields
  | .nil => .nil
  | .cons k' x fs => if k' = k then fs.drop k else .cons k' x (fs.drop k)

/-- The number of a text: `Number(s)`, `none` where it is not finite. -/
structure FactHost extends ExtractionHost where
  numberOf : String → Option ℚ

abbrev RawFact := Fields

/-- An `ExtractedFact`, whose texts are whatever the model wrote for them. -/
structure ExtractedFact where
  l2 : Option Value
  l0 : String
  l1 : Value
  confidence : ℚ
  category : String
  tier : String
  tags : List String
  directives : List ContinuityDirective
  factKey : String
  rawSourceText : Option String
  rawSpan : Option MemoryRawSpan
  rawSpans : Option (List MemoryRawSpan)
  atomicFact : Option MemoryAtomicFact
  event : Option MemoryEvent
  atomicClaims : Option (List MemoryAtomicClaim)

namespace RawFact

/-! ### Coercions -/

/-- `asRecord`. -/
def asRecord : Option Value → Option Fields
  | some (.obj fs) => some fs
  | _ => none

def elements? : Option Value → Option (List Value)
  | some (.arr xs) => some xs.toList
  | _ => none

/-- `optionalString` of a property. -/
def text? (record : Fields) (k : String) : Option String :=
  optionalString ((record.get? k).bind Value.str?)

/-- `optionalNumber` of a property. -/
def number? (record : Fields) (k : String) : Option ℚ :=
  match record.get? k with
  | some (.num q) => some q
  | _ => none

section
variable (ex : FactHost)

/-- `String(v)`, `none` where it throws. -/
def stringOf : Option Value → Option String
  | none => some "undefined"
  | some v => if v.converts then some (ex.host.stringOf v) else none

/-- `Number(v)`, `none` where it throws and `some none` where it is not finite. -/
def numberOf : Option Value → Option (Option ℚ)
  | none => some none
  | some .null => some (some 0)
  | some (.bool b) => some (some (if b then 1 else 0))
  | some (.num q) => some (some q)
  | some (.big n) => some (some n)
  | some (.str s) => some (ex.numberOf s)
  | some v => (stringOf ex (some v)).map ex.numberOf

/-! ### Normal forms -/

def spanKind? (text : String) : Option RawSpanKind :=
  if text = "source_turn" then some .sourceTurn
  else if text = "list_item" then some .listItem
  else if text = "code" then some .code
  else if text = "exact_answer" then some .exactAnswer
  else none

def normalizeRawSpan (value : Option Value) : Option MemoryRawSpan :=
  (asRecord value).bind fun record =>
    (text? record "text").map fun text =>
      { text := text
        sourceTurnIndex := number? record "sourceTurnIndex"
        cursorStart := number? record "cursorStart"
        cursorEnd := number? record "cursorEnd"
        kind := (text? record "kind").bind spanKind? }

def normalizeRawSpans (value : Option Value) : Option (List MemoryRawSpan) :=
  (elements? value).bind fun values =>
    let spans := values.filterMap fun v => normalizeRawSpan (some v)
    if spans = [] then none else some (spans.take 20)

def normalizeAtomicFact (value : Option Value) : Option MemoryAtomicFact :=
  (asRecord value).bind fun record =>
    unlessEmpty {}
      { subject := text? record "subject"
        predicate := text? record "predicate"
        value := text? record "value"
        text := text? record "text" }

def normalizeEvent (value : Option Value) : Option MemoryEvent :=
  (asRecord value).bind fun record =>
    unlessEmpty {}
      { actor := text? record "actor"
        action := text? record "action"
        object := text? record "object"
        happenedAt := text? record "happenedAt"
        text := text? record "text" }

def normalizeAtomicClaim (value : Value) : Option MemoryAtomicClaim :=
  (asRecord (some value)).bind fun record =>
    unlessEmpty {}
      { subject := text? record "subject"
        predicate := text? record "predicate"
        value := text? record "value"
        text := text? record "text"
        rawSpanText := text? record "rawSpanText"
        order := number? record "order" }

def normalizeAtomicClaims (value : Option Value) : Option (List MemoryAtomicClaim) :=
  (elements? value).bind fun values =>
    let claims := values.filterMap normalizeAtomicClaim
    if claims = [] then none else some (claims.take 50)

def normalizeTags (value : Option Value) : List String :=
  Runir.normalizeTags (((elements? value).getD []).filterMap Value.str?) ex.host

def directiveKind? (text : String) : Option ContinuityDirectiveKind :=
  [.action, .blocker, .constraint, .avoidance, .question, .verification, .dependency, .handoff,
    .decision].find? fun kind : ContinuityDirectiveKind => decide (kind.text = text)

def directivePolarity? (text : String) : Option ContinuityDirectivePolarity :=
  [.do, .doNot, .waitFor, .ask, .verify, .decide, .remember].find?
    fun polarity : ContinuityDirectivePolarity => decide (polarity.text = text)

def directiveStatus? (text : String) : Option ContinuityDirectiveStatus :=
  [.open, .blocked, .done, .stale].find?
    fun status : ContinuityDirectiveStatus => decide (status.text = text)

def directiveOwner? (text : String) : Option ContinuityDirectiveOwner :=
  [.user, .assistant, .external, .unknown].find?
    fun owner : ContinuityDirectiveOwner => decide (owner.text = text)

def directiveSource? (text : String) : Option ContinuityDirectiveSource :=
  [.explicit, .inferred].find? fun source : ContinuityDirectiveSource => decide (source.text = text)

def defaultPolarityForKind : ContinuityDirectiveKind → ContinuityDirectivePolarity
  | .avoidance | .constraint => .doNot
  | .blocker | .dependency => .waitFor
  | .question => .ask
  | .verification => .verify
  | .decision => .decide
  | .handoff => .remember
  | .action => .do

/-- A property that is one of some texts. -/
def known? {α : Type} (read : String → Option α) (record : Fields) (k : String) : Option α :=
  ((record.get? k).bind Value.str?).bind read

/-- `normalizeContinuityDirective`: `none` where the confidence cannot be read as a number. -/
def normalizeContinuityDirective (value : Value) : Option (Option ContinuityDirective) :=
  let compact (record : Fields) (k : String) :=
    ((record.get? k).bind Value.str?).bind (compactDirectiveText ·)
  match (asRecord (some value)).bind fun record => (compact record "text").map (record, ·) with
  | none => some none
  | some (record, text) =>
      let kind := (known? directiveKind? record "kind").getD .action
      let confidence := numberOf ex (record.get? "confidence")
      confidence.map fun q =>
        some
          { kind := kind
            polarity := (known? directivePolarity? record "polarity").getD
              (defaultPolarityForKind kind)
            status := (known? directiveStatus? record "status").getD
              (if kind = .blocker ∨ kind = .dependency then .blocked else .open)
            text := text
            condition := compact record "condition"
            subject := compact record "subject"
            target := compact record "target"
            owner := known? directiveOwner? record "owner"
            source := (known? directiveSource? record "source").getD .explicit
            confidence := (q.map fun c => max 0 (min 1 c)).getD (7 / 10)
            evidence := (compact record "evidence").getD text }

/-- The loop of `normalizeContinuityDirectives`, which stops at the tenth. -/
def directivesFrom (directives : List ContinuityDirective) :
    List Value → Option (List ContinuityDirective)
  | [] => some directives
  | candidate :: rest => do
      match ← normalizeContinuityDirective ex candidate with
      | none => directivesFrom directives rest
      | some directive =>
          if directives.any (fun seen => seen.key = directive.key) then
            directivesFrom directives rest
          else if 10 ≤ directives.length + 1 then some (directives ++ [directive])
          else directivesFrom (directives ++ [directive]) rest

def normalizeContinuityDirectives (value : Option Value) : Option (List ContinuityDirective) :=
  directivesFrom ex [] ((elements? value).getD [])

/-! ### The fact -/

/-- `raw.l0 ?? raw.l2.slice(0, 100)`, of which the key asks that it is a text. -/
def shortText (raw : RawFact) : Option String :=
  match raw.get? "l0", raw.get? "l2" with
  | some (.str l0), _ => some l0
  | none, some (.str l2) => some (Text.sliceUnits l2 100)
  | some .null, some (.str l2) => some (Text.sliceUnits l2 100)
  | _, _ => none

/-- `raw.l1 ?? ("- " + l0)`. -/
def longText (raw : RawFact) (l0 : String) : Value :=
  match raw.get? "l1" with
  | none | some .null => .str ("- " ++ l0)
  | some l1 => l1

/-- `canonicalizeFactKey`: the key of a pattern that the text of the fact has. -/
def canonicalFactKey (category factKey : String) (l2 : Option Value) : Option String :=
  if category ≠ "profile" ∧ category ≠ "preferences" then some factKey
  else
    (stringOf ex l2).map fun text =>
      ((identityPatterns.find? fun p =>
        decide (category = p.2.1) && Recall.mentions text p.2.2).map (·.1)).getD factKey

def normalizeExtractedFact (raw : RawFact) : Option ExtractedFact := do
  let l0 ← shortText raw
  let category :=
    (((raw.get? "category").bind Value.str?).filter validCategories.contains).getD "cases"
  let confidence := (← numberOf ex (raw.get? "confidence")).getD ex.confidenceThreshold
  let directives ← normalizeContinuityDirectives ex (raw.get? "directives")
  let rawSourceText := (raw.get? "raw_source_text").bind Value.str?
  let factKey ← canonicalFactKey ex category (deriveFactKey ex.toExtractionHost category l0)
    (raw.get? "l2")
  return {
    l2 := raw.get? "l2"
    l0 := l0
    l1 := longText raw l0
    confidence := confidence
    category := category
    tier := resolveTier category confidence
    tags := normalizeTags ex (raw.get? "tags")
    directives := directives
    factKey := factKey
    rawSourceText := rawSourceText
    rawSpan := (normalizeRawSpan (raw.get? "rawSpan")).or (rawSourceText.map fun text =>
      { text := text, sourceTurnIndex := number? raw "source_turn_index",
        kind := some .sourceTurn })
    rawSpans := normalizeRawSpans (raw.get? "rawSpans")
    atomicFact := normalizeAtomicFact (raw.get? "atomicFact")
    event := normalizeEvent (raw.get? "event")
    atomicClaims := normalizeAtomicClaims (raw.get? "atomicClaims") }

end

end RawFact

end Runir
