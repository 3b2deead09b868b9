import Runir.Domain.Continuity
import Runir.Lib.CodeUnits
import Runir.Recall.StatusPolicy

/-!
# Capture — Extraction

`src/capture/extraction/capture.ts`: the facts that are made of a model's reply.

* `ModelReply`: how the call ends.
* `stampSource`: the turn a fact was taken from, settled by code and not by the model.
* `normalizeExtractedFact`: the object every later stage is given.
* `extractMemories`: the facts of a reply, or none where there is no reply to read.

A fact is a `FactObject` before and after it is normalized: an object whose properties may be
absent.  The reading of JSON, its repair, and the resolution of relative dates are parameters.
-/

namespace Runir
open Regex

structure CaptureMessage where
  role : String
  content : String
  deriving DecidableEq

inductive RawSpanKind where
  | sourceTurn | listItem | code | exactAnswer
  deriving DecidableEq

/-- `MemoryRawSpan`. -/
structure MemoryRawSpan where
  text : String
  sourceTurnIndex : Option ℚ := none
  cursorStart : Option ℚ := none
  cursorEnd : Option ℚ := none
  kind : Option RawSpanKind := none
  deriving DecidableEq

/-- `MemoryAtomicFact`. -/
structure MemoryAtomicFact where
  subject : Option String := none
  predicate : Option String := none
  value : Option String := none
  text : Option String := none
  deriving DecidableEq

/-- `MemoryEvent`. -/
structure MemoryEvent where
  actor : Option String := none
  action : Option String := none
  object : Option String := none
  happenedAt : Option String := none
  text : Option String := none
  deriving DecidableEq

/-- `MemoryAtomicClaim`. -/
structure MemoryAtomicClaim where
  subject : Option String := none
  predicate : Option String := none
  value : Option String := none
  text : Option String := none
  rawSpanText : Option String := none
  order : Option ℚ := none
  deriving DecidableEq

/-- A `RawExtractedFact` or an `ExtractedFact`. -/
structure FactObject where
  l2 : String
  confidence : ℚ
  l0 : Option String := none
  l1 : Option String := none
  category : Option String := none
  tier : Option String := none
  tags : List String := []
  directives : List ContinuityDirective := []
  factKey : Option String := none
  sourceTurnIndex : Option ℚ := none
  rawSourceText : Option String := none
  rawSpan : Option MemoryRawSpan := none
  rawSpans : Option (List MemoryRawSpan) := none
  atomicFact : Option MemoryAtomicFact := none
  event : Option MemoryEvent := none
  atomicClaims : Option (List MemoryAtomicClaim) := none

/-! ### Normal forms -/

/-- `optionalString`. -/
def optionalString (value : Option String) : Option String :=
  value.filter fun s => Text.truthy (Text.trim s)

def normalizeTags (rawTags : List String) (host : Host) : List String :=
  ((rawTags.map fun t => host.unicode.toLowerCase (Text.trim t)).filter Text.truthy).take 10

def normalizeRawSpan (span : MemoryRawSpan) : Option MemoryRawSpan :=
  (optionalString (some span.text)).map fun _ => span

def normalizeRawSpans (spans : List MemoryRawSpan) : Option (List MemoryRawSpan) :=
  let kept := spans.filterMap normalizeRawSpan
  if kept = [] then none else some (kept.take 20)

/-- An object, unless it has no property. -/
def unlessEmpty {α : Type} [DecidableEq α] (empty object : α) : Option α :=
  if object = empty then none else some object

def normalizeAtomicFact (fact : MemoryAtomicFact) : Option MemoryAtomicFact :=
  unlessEmpty {}
    { subject := optionalString fact.subject
      predicate := optionalString fact.predicate
      value := optionalString fact.value
      text := optionalString fact.text }

def normalizeEvent (event : MemoryEvent) : Option MemoryEvent :=
  unlessEmpty {}
    { actor := optionalString event.actor
      action := optionalString event.action
      object := optionalString event.object
      happenedAt := optionalString event.happenedAt
      text := optionalString event.text }

def normalizeAtomicClaim (claim : MemoryAtomicClaim) : Option MemoryAtomicClaim :=
  unlessEmpty {}
    { subject := optionalString claim.subject
      predicate := optionalString claim.predicate
      value := optionalString claim.value
      text := optionalString claim.text
      rawSpanText := optionalString claim.rawSpanText
      order := claim.order }

def normalizeAtomicClaims (claims : List MemoryAtomicClaim) : Option (List MemoryAtomicClaim) :=
  let kept := claims.filterMap normalizeAtomicClaim
  if kept = [] then none else some (kept.take 50)

/-! ### Categories and keys -/

def validCategories : List String :=
  ["profile", "preferences", "entities", "events", "cases", "patterns"]

def perCategoryThreshold : Option String → ℚ
  | none => 0
  | some category =>
      if category = "preferences" ∨ category = "profile" then 7 / 10
      else if category = "events" ∨ category = "cases" then 85 / 100
      else if category = "entities" ∨ category = "patterns" then 8 / 10
      else 95 / 100

def resolveTier (category : String) (confidence : ℚ) : String :=
  if category = "profile" ∨ category = "preferences" then "durable"
  else if confidence < 1 / 2 then "ephemeral"
  else if category = "cases" ∧ 9 / 10 ≤ confidence then "durable"
  else if category = "events" ∧ 9 / 10 ≤ confidence then "durable"
  else "working"

def djb2Hash (str : String) : BitVec 32 :=
  (utf16 str.toList).foldl (fun h unit => (h <<< 5) + h + BitVec.ofNat 32 unit) 5381#32

/-- `hash.toString(16).padStart(6, "0").slice(-6)`. -/
def hashHex (hash : BitVec 32) : String :=
  let digits := Nat.toDigits 16 hash.toNat
  String.ofList ((List.replicate (6 - digits.length) '0' ++ digits).drop (digits.length - 6))

/-- The pieces of a text between runs of separators. -/
def pieces (isSeparator : Char → Bool) : List Char → List (List Char)
  | [] => []
  | c :: cs =>
      if isSeparator c then pieces isSeparator cs
      else
        match cs, pieces isSeparator cs with
        | d :: _, piece :: rest => if isSeparator d then [c] :: piece :: rest else (c :: piece) :: rest
        | _, rest => [c] :: rest

/-- What the extraction reads from its surroundings. -/
structure ExtractionHost where
  host : Host
  /-- `\p{P}`. -/
  isPunctuation : Char → Bool
  /-- The temporal resolver: a text with its relative dates resolved. -/
  resolveRelativeTemporalPhrases : String → String
  confidenceThreshold : ℚ := 7 / 10

/-- ASCII, without relative dates. -/
def ExtractionHost.ascii : ExtractionHost where
  host := .ascii
  isPunctuation c := "!\"#%&'()*,-./:;?@[\\]_\x7b\x7d".toList.contains c
  resolveRelativeTemporalPhrases s := s

section
variable (ex : ExtractionHost)

def deriveFactKey (category l0 : String) : String :=
  let tokens := pieces (fun c => Text.isSpace c || ex.isPunctuation c) l0.toList
  let asciiTokens := ((tokens.map fun token =>
    ex.host.unicode.toLowerCase (String.ofList token)).filter fun token =>
      token.toList.all fun c => isLowerChar c || isDigitChar c).take 6
  let hex := hashHex (djb2Hash l0)
  if asciiTokens.length < 2 then category ++ ":" ++ hex
  else category ++ ":" ++ Text.join "-" asciiTokens ++ "-" ++ hex

/-- `IDENTITY_PATTERNS`: a key, its category and the phrases it is known by. -/
def identityPatterns : List (String × String × List String) :=
  [ ("profile:name", "profile", ["name is", "called", "goes by", "known as", "my name"]),
    ("preferences:addressing", "preferences",
      ["address me", "call me", "refer to me", "don't call me"]),
    ("profile:role", "profile", ["i am a", "i'm a", "i work as", "my role", "my job"]),
    ("preferences:language", "preferences",
      ["i prefer", "i use", "my preferred language", "i code in"]) ]

def canonicalizeFactKey (fact : FactObject) : FactObject :=
  if fact.category ≠ some "profile" ∧ fact.category ≠ some "preferences" then fact
  else
    match identityPatterns.find? fun p =>
      decide (fact.category = some p.2.1) && Recall.mentions fact.l2 p.2.2 with
    | some p => { fact with factKey := some p.1 }
    | none => fact

def normalizeExtractedFact (raw : FactObject) : FactObject :=
  let l0 := raw.l0.getD (Text.sliceUnits raw.l2 100)
  let category := (raw.category.filter validCategories.contains).getD "cases"
  let rawSpan := (raw.rawSpan.bind normalizeRawSpan).or (raw.rawSourceText.map fun text =>
    { text := text, sourceTurnIndex := raw.sourceTurnIndex, kind := some .sourceTurn })
  canonicalizeFactKey
    { l2 := raw.l2
      l0 := some l0
      l1 := some (raw.l1.getD ("- " ++ l0))
      confidence := raw.confidence
      category := some category
      tier := some (resolveTier category raw.confidence)
      tags := normalizeTags raw.tags ex.host
      directives := normalizeContinuityDirectives raw.directives
      factKey := some (deriveFactKey ex category l0)
      rawSourceText := raw.rawSourceText
      rawSpan := rawSpan
      rawSpans := raw.rawSpans.bind normalizeRawSpans
      atomicFact := raw.atomicFact.bind normalizeAtomicFact
      event := raw.event.bind normalizeEvent
      atomicClaims := raw.atomicClaims.bind normalizeAtomicClaims }

/-! ### The source of a fact -/

/-- `^` under the `m` flag. -/
def lineStart : Regex := .test fun before _ => before.all isLineTerminator

/-- `/```|^---\s|^\+\+\+\s|^@@\s|^\s+at\s+\w+/m`. -/
def codeMarker : Regex :=
  alts [lit "```", seqs [lineStart, lit "---", .cls Text.isSpace],
    seqs [lineStart, lit "+++", .cls Text.isSpace], seqs [lineStart, lit "@@", .cls Text.isSpace],
    seqs [lineStart, plus (.cls Text.isSpace), lit "at", plus (.cls Text.isSpace), plus word]]

/-- `messages[idx]`. -/
def messageAt (messages : List CaptureMessage) (idx : ℚ) : Option CaptureMessage :=
  if 0 ≤ idx ∧ idx.den = 1 then messages[idx.num.toNat]? else none

/-- Whether there is a message at an index, and it shows code. -/
def showsCode (messages : List CaptureMessage) (idx : ℚ) : Bool :=
  (messageAt messages idx).any fun message => Text.test codeMarker message.content

/-- The index the extraction settles on for a fact. -/
def chosenIndex (messages : List CaptureMessage) (raw : FactObject) : Option ℚ :=
  match raw.sourceTurnIndex with
  | none => none
  | some idx =>
      match messageAt messages idx with
      | none => none
      | some _ =>
          if showsCode messages idx then some idx
          else if Text.test codeMarker raw.l2 then
            [idx, idx - 1, idx + 1].find? (showsCode messages)
          else some idx

/-- A fact with the text of the turn it was taken from, which is never the model's own. -/
def stampSource (messages : List CaptureMessage) (raw : FactObject) : FactObject :=
  match chosenIndex messages raw with
  | some idx =>
      { raw with
        rawSourceText := (messageAt messages idx).map (·.content)
        sourceTurnIndex := some idx }
  | none => { raw with rawSourceText := none }

def resolveTemporal (raw : FactObject) : FactObject :=
  { raw with
    l2 := ex.resolveRelativeTemporalPhrases raw.l2
    l0 := raw.l0.map ex.resolveRelativeTemporalPhrases
    l1 := raw.l1.map ex.resolveRelativeTemporalPhrases }

/-- `LIST_LINE_RE`, with the item as group 1. -/
def listLine : Regex :=
  seqs [.test fun before _ => before.isNone, listMarker,
    .group 1 (plus (.cls fun c => !isLineTerminator c)), .test fun _ after => after.isNone]

def parseSourceListItems (text : String) : List String :=
  (Text.split (plus (chr '\n')) text).filterMap fun line =>
    (((exec listLine line.toList).bind fun m => m.group? 1).map fun item =>
      Text.trim (String.ofList item)).filter Text.truthy

/-- The lines of a list. -/
def bullets (items : List String) : String := Text.join "\n" (items.map fun item => "- " ++ item)

def repairListShapedFact (raw : FactObject) : FactObject :=
  match raw.rawSourceText.filter Text.truthy with
  | none => raw
  | some source =>
      let items := parseSourceListItems source
      if items.length < 2 then raw
      else
        let existingClaims := ((raw.atomicClaims.bind normalizeAtomicClaims).getD []).length
        let claims := items.zipIdx.map fun (item, index) =>
          { text := some item, value := some item, rawSpanText := some item,
            order := some ((index + 1 : Nat) : ℚ) : MemoryAtomicClaim }
        let spans := items.map fun item =>
          let cursorStart := (Text.indexOf source item).map (Text.unitsBefore source)
          { text := item
            sourceTurnIndex := raw.sourceTurnIndex
            kind := some .listItem
            cursorStart := some ((cursorStart.map fun n => (n : ℚ)).getD (-1))
            cursorEnd := cursorStart.map fun n => ((n + Text.length item : Nat) : ℚ) : MemoryRawSpan }
        let represented := (items.filter fun item => Text.includes raw.l2 item).length
        { raw with
          atomicClaims := if existingClaims < items.length then some claims else raw.atomicClaims
          rawSpans := some spans
          l1 := if Text.test (.seq lineStart listMarker) (raw.l1.getD "") then raw.l1
            else some ("## Source List\n" ++ bullets items)
          l2 := if (represented : ℚ) / items.length < 1 / 2 then
              raw.l2 ++ "\n\nExact source list:\n" ++ bullets items
            else raw.l2 }

/-! ### The reply -/

/-- An element of `facts`: a text, a fact, or something else. -/
inductive FactElement where
  | text (s : String)
  | fact (raw : FactObject)
  | other

/-- How the call of the model ends. -/
inductive ModelReply where
  | timeout
  | fetchError
  | notOk (status : Nat)
  | unreadable
  | content (text : Option String)

def fence : List Char := "```".toList

def afterFence : List Char → Option (List Char)
  | [] => none
  | c :: cs =>
      if fence <+: c :: cs then
        let rest := cs.drop 2
        some (if "json".toList <+: rest then rest.drop 4 else rest)
      else afterFence cs

def beforeFence : List Char → Option (List Char)
  | [] => none
  | c :: cs => if fence <+: c :: cs then some [] else (beforeFence cs).map (c :: ·)

/-- The JSON of a reply: what is between its first fences, where it has two. -/
def jsonText (text : String) : String :=
  match (afterFence text.toList).bind beforeFence with
  | some inner => Text.trim (String.ofList inner)
  | none => text

/-- `JSON.parse`, and again of what `jsonrepair` makes of the text: the facts of a root that has
an array of them.  `none` where it throws. -/
structure ReplyReader where
  parse : String → Option (Option (List FactElement))
  repair : String → Option String

def ReplyReader.read (reader : ReplyReader) (text : String) : Option (Option (List FactElement)) :=
  match reader.parse (jsonText text) with
  | some root => some root
  | none => (reader.repair (jsonText text)).bind reader.parse

/-- The elements of a reply that was received and has an array of facts. -/
def ModelReply.facts? (reader : ReplyReader) : ModelReply → Option (List FactElement)
  | .content text => (reader.read (text.getD "")).join
  | _ => none

def FactElement.raw? : FactElement → Option FactObject
  | .text s => some { l2 := s, confidence := 1 }
  | .fact raw => some raw
  | .other => none

/-- Whether a fact is sure enough for its category. -/
def isConfident (raw : FactObject) : Bool :=
  decide (max ex.confidenceThreshold (perCategoryThreshold raw.category) ≤ raw.confidence)

/-- The facts of a reply that are kept, before they are normalized. -/
def stampedFacts (messages : List CaptureMessage) (elements : List FactElement) :
    List FactObject :=
  ((elements.filterMap FactElement.raw?).map fun raw =>
    repairListShapedFact (resolveTemporal ex (stampSource messages raw))).filter (isConfident ex)

/-- `extractMemories`. -/
def extractMemories (reader : ReplyReader) (messages : List CaptureMessage) (reply : ModelReply) :
    List FactObject :=
  match reply.facts? reader with
  | none => []
  | some elements => (stampedFacts ex messages elements).map (normalizeExtractedFact ex)

end

end Runir
