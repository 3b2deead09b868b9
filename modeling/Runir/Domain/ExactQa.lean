import Runir.Lib.Host

/-!
# Domain — Exact answers

`src/domain/memory/exact-qa.ts`: when two texts answer the same kind of question differently.
-/

namespace Runir

open Regex

/-- `EXACT_VALUE_PATTERNS`. -/
def exactValuePatterns : List Regex :=
  [ -- an ISO date
   seqs [bound, exactly 4 digit, chr '-', exactly 2 digit, chr '-', exactly 2 digit, bound],
   -- a dotted number
   seqs [bound, plus digit, plus (.seq (chr '.') (plus digit)), bound],
   seqs [bound, plus digit, bound],
   -- a tracker id
   seqs [bound, .cls isUpperChar, .star (.cls fun c => isAlphaChar c || isDigitChar c ||
     c == '_' || c == '-'), chr '-', plus digit, bound],
   -- a code in capitals
   seqs [bound, .cls isUpperChar, atLeast 2 (.cls fun c => isUpperChar c || isDigitChar c ||
     c == '_'), bound],
   seqs [chr '`', plus (.cls (· != '`')), chr '`'],
   -- a path
   seqs [chr '/', plus (.cls fun c => isWordChar c || c == '.' || c == '/' || c == '-')],
   seqs [bound, plus (.cls fun c => isWordChar c || c == '.' || c == '-'), chr '.',
     alts (["ts", "tsx", "js", "jsx", "json", "md", "py", "rs", "go", "sql", "yaml", "yml"].map
       liti), bound],
   -- a commit
   seqs [bound, between 7 40 (.cls fun c => ('a' ≤ foldCase c && foldCase c ≤ 'f') ||
     isDigitChar c), bound],
   seqs [bound, plus (.cls fun c => isUpperChar c || isDigitChar c || c == '_'), chr '=',
     plus (.cls fun c => !Text.isSpace c)],
   -- a link
   seqs [liti "http", opt (liti "s"), lit "://", plus (.cls fun c => !Text.isSpace c)]]

def isLineTerminator (c : Char) : Bool :=
  c == '\n' || c == '\r' || c.toNat == 0x2028 || c.toNat == 0x2029

/-- `\s*(?:[-*+]|\d+[.)])\s+`. -/
def listMarker : Regex :=
  seqs [.star (.cls Text.isSpace), alts [oneOf "-*+", .seq (plus digit) (oneOf ".)")],
    plus (.cls Text.isSpace)]

/-- `LIST_LINE_PATTERN`. -/
def listLinePattern : Regex :=
  seqs [.test fun before _ => before.all isLineTerminator, listMarker,
    .cls fun c => !Text.isSpace c]

/-- `EXACT_STOPWORDS`. -/
def exactStopwords : List String :=
  ["a", "an", "and", "are", "as", "at", "be", "but", "by", "do", "does", "for", "from", "how",
   "i", "if", "in", "into", "is", "it", "its", "me", "my", "of", "on", "or", "our", "should",
   "that", "the", "their", "them", "there", "these", "they", "this", "those", "to", "up", "us",
   "was", "we", "what", "when", "where", "which", "who", "why", "will", "with", "you", "your"]

def normalizeExactText (host : Host) (text : String) : String :=
  let unquoted := (host.unicode.toLowerCase text).toList.filter
    fun c => !(c == '`' || c == '"' || c == '\'')
  Text.trim (Text.collapse (String.ofList unquoted))

def hasExactQaValueSignal (text : String) : Bool :=
  exactValuePatterns.any (Text.test · text) || Text.test listLinePattern text

/-- The values a text carries, as a list without repetitions. -/
def exactValueTokens (host : Host) (text : String) : List String :=
  distinct (exactValuePatterns.flatMap fun pattern =>
    (Text.matches' pattern text).map host.unicode.toLowerCase)

def exactQaTokens (host : Host) (text : String) : List String :=
  let u := host.unicode
  let tokens := Text.matches' (plus (.cls fun c => u.isL c || u.isN c || c == '_' || c == '.' ||
    c == '/' || c == ':' || c == '-')) (normalizeExactText host text)
  let filtered := tokens.filter fun token =>
    decide (2 < Text.length token) && !exactStopwords.contains token
  distinct (if 0 < filtered.length then filtered else tokens)

structure ComparableClaim where
  subject : String
  predicate : String
  value : String

/-- The delimiters of `parseClaim`, in the order it tries them. -/
def claimDelimiters : List String :=
  [" switched to ", " changed to ", " updated to ", " replaced ", " uses ", " use ", " is ",
   " are ", " was ", " were ", " = ", ":"]

def parseClaim (host : Host) (text : String) : Option ComparableClaim :=
  let normalized := normalizeExactText host text
  claimDelimiters.findSome? fun delimiter =>
    match Text.indexOf normalized delimiter with
    | none => none
    | some index =>
        if Text.unitsBefore normalized index < 4 then none
        else
          let subject := Text.trim (Text.sliceTo normalized index)
          let value := Text.trim (Text.sliceFrom normalized (index + delimiter.length))
          if subject ≠ "" ∧ value ≠ "" then some ⟨subject, Text.trim delimiter, value⟩ else none

def listItems (text : String) : List String :=
  (((Text.split (plus (chr '\n')) text).map fun line =>
    Text.trim (Text.dropFirst (.seq (.test fun before _ => before.isNone) listMarker) line))).filter
      fun line => line ≠ ""

/-- `/\n+|(?<=[.!?])\s+/`, which ends lines and sentences. -/
def segmentEnd : Regex :=
  alts [plus (chr '\n'),
    .seq (.test fun before _ => before.any fun c => c == '.' || c == '!' || c == '?')
      (plus (.cls Text.isSpace))]

def sentenceCount (text : String) : Nat :=
  (((Text.split segmentEnd text).map Text.trim).filter fun sentence => sentence ≠ "").length

def isCompactComparableClaim (host : Host) (text : String) : Bool :=
  decide (sentenceCount text ≤ 2) && decide ((exactQaTokens host text).length ≤ 30)

def sameSubject (host : Host) (a b : String) : Bool :=
  if a = b then true
  else
    let aTokens := exactQaTokens host a
    let bTokens := exactQaTokens host b
    if aTokens.length = 0 ∨ bTokens.length = 0 then false
    else
      let shared := (aTokens.filter bTokens.contains).length
      decide ((6 / 10 : ℚ) ≤ shared / (min aTokens.length bTokens.length : Nat))

def meaningfullyDifferentValue (host : Host) (a b : String) : Bool :=
  let left := normalizeExactText host a
  let right := normalizeExactText host b
  if left = "" ∨ right = "" ∨ left = right then false
  else if Text.includes left right || Text.includes right left then false
  else hasExactQaValueSignal left || hasExactQaValueSignal right

def areAnswerDistinctTexts (host : Host) (existingText incomingText : String) : Bool :=
  let existingList := if Text.test listLinePattern existingText then listItems existingText else []
  let incomingList := if Text.test listLinePattern incomingText then listItems incomingText else []
  if 1 < existingList.length ∧ 1 < incomingList.length then
    normalizeExactText host (Text.join "\n" existingList) !=
      normalizeExactText host (Text.join "\n" incomingList)
  else
    match parseClaim host existingText, parseClaim host incomingText with
    | some existingClaim, some incomingClaim =>
        if !isCompactComparableClaim host existingText ||
            !isCompactComparableClaim host incomingText then false
        else
          !sameSubject host existingClaim.subject incomingClaim.subject &&
            existingClaim.predicate == incomingClaim.predicate &&
            meaningfullyDifferentValue host existingClaim.value incomingClaim.value
    | _, _ => false

end Runir
