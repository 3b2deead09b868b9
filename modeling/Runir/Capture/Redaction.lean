import Runir.Lib.Alphabet
import Runir.Lib.Json
import Runir.Lib.Text

/-!
# Capture — Redaction

`src/shared/source-redaction.ts`.

* `patternEntries`: what is replaced by a marker, and in which order.
* `redactWithMarkers`: one pattern after the other; equal matches of a kind have one marker.
* `assertNoSecrets`: the secret patterns once more, and four of another shape.
* `redactFactText`, `redactFact`, `redactSourceTurn`: what is stored, or nothing where the
  assertion throws.
* `Untouched`: an alphabet whose texts no pattern matches; `redactSourceTurn_of_untouched`: they are
  stored as they are.

The URL parser and `isIP` are parameters.  Texts are lists of characters.
-/

namespace Runir.Redaction
open Regex

inductive MarkerKind where
  | user | email | url | path | ip | phone | ssn | apiKey | awsKey | openaiKey | bearerToken
  | passwordAssignment | providerToken | privateKey | authUrl | connectionString | secretAssignment
  deriving DecidableEq

def MarkerKind.name : MarkerKind → String
  | .user => "USER"
  | .email => "EMAIL"
  | .url => "URL"
  | .path => "PATH"
  | .ip => "IP"
  | .phone => "PHONE"
  | .ssn => "SSN"
  | .apiKey => "API_KEY"
  | .awsKey => "AWS_KEY"
  | .openaiKey => "OPENAI_KEY"
  | .bearerToken => "BEARER_TOKEN"
  | .passwordAssignment => "PASSWORD_ASSIGNMENT"
  | .providerToken => "PROVIDER_TOKEN"
  | .privateKey => "PRIVATE_KEY"
  | .authUrl => "AUTH_URL"
  | .connectionString => "CONNECTION_STRING"
  | .secretAssignment => "SECRET_ASSIGNMENT"

/-- `SECRET_MARKER_KINDS`. -/
def secretMarkerKinds : List MarkerKind :=
  [.bearerToken, .openaiKey, .awsKey, .apiKey, .passwordAssignment, .providerToken, .privateKey,
    .authUrl, .connectionString, .secretAssignment]

/-! ### Patterns -/

/-- `\s*`. -/
def spaces : Regex := .star (.cls Text.isSpace)

/-- `[A-Za-z0-9]` and some more. -/
def alnumOr (more : String) : Regex :=
  .cls fun c => isAlphaChar c || isDigitChar c || more.toList.contains c

/-- `[^…]` for `\s` and some more. -/
def noSpaceNor (more : String) : Regex :=
  .cls fun c => !Text.isSpace c && !more.toList.contains c

def beginKey : Regex :=
  seqs [lit "-----BEGIN ", opt (alts [lit "RSA ", lit "EC ", lit "OPENSSH ", lit "DSA "]),
    lit "PRIVATE KEY-----"]

def endKey : Regex :=
  seqs [lit "-----END ", opt (alts [lit "RSA ", lit "EC ", lit "OPENSSH ", lit "DSA "]),
    lit "PRIVATE KEY-----"]

/-- The lazy part ends where its end matches for the first time. -/
def privateKeyBlock : Regex :=
  seqs [beginKey, .star (.seq (.look true endKey) (.cls fun _ => true)), endKey]

def connectionString : Regex :=
  seqs [bound, alts [.seq (liti "postgres") (opt (liti "ql")), liti "mysql",
      .seq (liti "mongodb") (opt (liti "+srv")), liti "redis"],
    lit "://", plus (noSpaceNor "\"'<>")]

def authUrl : Regex :=
  seqs [liti "http", opt (liti "s"), lit "://", plus (noSpaceNor "/@"), chr ':',
    plus (noSpaceNor "/@"), chr '@', plus (noSpaceNor "\"'<>")]

def providerToken : Regex :=
  seqs [bound, alts
    [seqs [lit "gh", oneOf "pousr", chr '_', atLeast 20 (alnumOr "_")],
      .seq (lit "github_pat_") (atLeast 20 (alnumOr "_")),
      .seq (lit "glpat-") (atLeast 20 (alnumOr "_-")),
      seqs [lit "xox", oneOf "baprs", chr '-', atLeast 20 (alnumOr "-")],
      .seq (lit "AIza") (atLeast 30 (alnumOr "_-"))], bound]

/-- `"[^"]{n,}"`, or the same in single quotes. -/
def quoted (n : Nat) : Regex :=
  .alt (seqs [chr '"', atLeast n (.cls (· != '"')), chr '"'])
    (seqs [oneOf "'", atLeast n (.cls fun c => !"'".toList.contains c), oneOf "'"])

def secretAssignment : Regex :=
  seqs [bound, alts [seqs [liti "api", opt (oneOf "_-"), liti "key"], liti "secret", liti "token",
      seqs [liti "access", opt (oneOf "_-"), liti "key"],
      seqs [liti "client", opt (oneOf "_-"), liti "secret"]],
    spaces, oneOf ":=", spaces, .alt (quoted 12) (atLeast 12 (alnumOr "_./+=-"))]

def bearerToken : Regex :=
  seqs [bound, liti "bearer", plus (.cls Text.isSpace), atLeast 8 (alnumOr "._~+/=-")]

def openaiKey : Regex := seqs [bound, lit "sk-proj-", atLeast 20 (alnumOr ""), bound]

def awsKey : Regex :=
  seqs [bound, lit "AKIA", exactly 16 (.cls fun c => isUpperChar c || isDigitChar c), bound]

def apiKey : Regex :=
  seqs [bound, lit "sk-", .look true (lit "proj-"), atLeast 20 (alnumOr ""), bound]

def passwordAssignment : Regex :=
  seqs [bound, alts [liti "password", liti "passwd", liti "pwd"], spaces, oneOf ":=", spaces,
    .alt (quoted 4) (atLeast 4 (noSpaceNor "\"'"))]

def email : Regex :=
  seqs [bound, plus (.cls fun c => isWordChar c || ".+-".toList.contains c), chr '@',
    plus (.cls fun c => isWordChar c || c == '-'), chr '.',
    plus (.cls fun c => isWordChar c || ".-".toList.contains c)]

def url : Regex :=
  .group 1 (seqs [lit "http", opt (lit "s"), lit "://", plus (noSpaceNor ")")])

def path : Regex :=
  seqs [chr '/', .group 1 (.alt (lit "Users") (lit "home")), chr '/',
    plus (.cls fun c => isWordChar c || "./-".toList.contains c)]

def ip : Regex :=
  seqs [bound, exactly 3 (.seq (between 1 3 digit) (chr '.')), between 1 3 digit, bound]

def ssn : Regex :=
  seqs [bound, exactly 3 digit, chr '-', exactly 2 digit, chr '-', exactly 4 digit, bound]

def phone : Regex :=
  seqs [bound, exactly 3 digit, chr '-', exactly 3 digit, chr '-', exactly 4 digit, bound]

/-- `PATTERN_ENTRIES`. -/
def patternEntries : List (MarkerKind × Regex) :=
  [(.privateKey, privateKeyBlock), (.privateKey, beginKey), (.connectionString, connectionString),
    (.authUrl, authUrl), (.providerToken, providerToken), (.secretAssignment, secretAssignment),
    (.bearerToken, bearerToken), (.openaiKey, openaiKey), (.awsKey, awsKey), (.apiKey, apiKey),
    (.passwordAssignment, passwordAssignment), (.email, email), (.url, url), (.path, path),
    (.ip, ip), (.ssn, ssn), (.phone, phone)]

/-- `SECOND_PASS_SECRET_PATTERNS`. -/
def secondPassSecretPatterns : List Regex :=
  [seqs [bound, liti "authorization", spaces, chr ':', spaces, liti "basic",
      plus (.cls Text.isSpace), atLeast 12 (alnumOr "+/=")],
    seqs [bound, alts [liti "secret", liti "token", seqs [liti "api", opt (oneOf "_-"), liti "key"],
      liti "password"], spaces, oneOf ":=", spaces, atLeast 12 (noSpaceNor "\"'")],
    seqs [lit "-----BEGIN ", .star (.cls fun c => isUpperChar c || c == ' '),
      lit "PRIVATE KEY-----"],
    seqs [bound, .alt (seqs [lit "sk-", opt (lit "proj-"), atLeast 20 (alnumOr "_-")])
      (.seq (lit "AKIA") (exactly 16 (.cls fun c => isUpperChar c || isDigitChar c))), bound]]

/-- `FACT_SOURCE_SECTION`. -/
def factSourceSection : Regex :=
  seqs [chr '\n', spaces, liti "source:", spaces, chr '\n', .star (.cls fun _ => true)]

/-- `SOURCE_URL`. -/
def sourceUrl : Regex :=
  seqs [liti "http", opt (liti "s"), lit "://", plus (noSpaceNor ")<>\"'")]

/-- `SOURCE_HOME`. -/
def sourceHome : Regex :=
  .seq (.group 1 (seqs [chr '/', .alt (lit "Users") (lit "home"), chr '/']))
    (.group 2 (plus (noSpaceNor "/")))

/-- `SOURCE_PHONE`. -/
def sourcePhone : Regex :=
  seqs [.test fun before _ => !before.any isWordChar, opt (chr '+'), between 1 3 digit,
    opt (oneOf " .-"), opt (chr '('), exactly 3 digit, opt (chr ')'), oneOf " .-",
    exactly 3 digit, oneOf " .-", exactly 4 digit, bound]

def isHexOrColon (c : Char) : Bool :=
  isDigitChar c || c == ':' || (decide ('a' ≤ foldCase c) && decide (foldCase c ≤ 'f'))

def isAlnumOrColon (c : Char) : Bool := isAlphaChar c || isDigitChar c || c == ':'

/-- `SOURCE_IPV6`. -/
def sourceIpv6 : Regex :=
  seqs [.test fun before _ => !before.any isAlnumOrColon, .star (.cls isHexOrColon), chr ':',
    plus (.cls isHexOrColon), .test fun _ after => !after.any isAlnumOrColon]

/-! ### Markers -/

/-- The markers given so far: how many of each kind, and of which matches. -/
structure Markers where
  counts : MarkerKind → Nat := fun _ => 0
  seen : List ((MarkerKind × List Char) × List Char) := []

def markerToken (kind : MarkerKind) (n : Nat) : List Char :=
  ("[" ++ kind.name ++ "_" ++ toString n ++ "]").toList

/-- The marker of a match, and the next one of its kind where it has none. -/
def Markers.mark (kind : MarkerKind) (value : List Char) (s : Markers) : List Char × Markers :=
  match s.seen.lookup (kind, value) with
  | some token => (token, s)
  | none =>
      let n := s.counts kind + 1
      (markerToken kind n,
        { counts := Function.update s.counts kind n
          seen := ((kind, value), markerToken kind n) :: s.seen })

/-- One pattern, in every place it matches. -/
def redactEntry (entry : MarkerKind × Regex) (text : List Char) (s : Markers) :
    List Char × Markers :=
  replaceStep entry.2 (fun m s => s.mark entry.1 m.text) text s

def redactEntries (entries : List (MarkerKind × Regex)) (text : List Char) (s : Markers) :
    List Char × Markers :=
  entries.foldl (fun (text, s) entry => redactEntry entry text s) (text, s)

def redactWithMarkers (kinds : List MarkerKind) (text : List Char) : List Char × Markers :=
  redactEntries (patternEntries.filter fun entry => kinds.contains entry.1) text {}

def redactSecrets (text : List Char) : List Char := (redactWithMarkers secretMarkerKinds text).1

/-- Whether `assertNoSecrets` returns. -/
def assertNoSecrets (text : List Char) : Bool :=
  decide (redactSecrets text = text) &&
    !secondPassSecretPatterns.any fun pattern => matchIn pattern text

/-! ### Facts -/

def withoutSource (text : List Char) : List Char :=
  match exec factSourceSection text with
  | none => text
  | some m => m.skipped ++ m.rest

def redactFactText (text : List Char) : Option (List Char) :=
  let result := redactSecrets (withoutSource text)
  if assertNoSecrets result then some result else none

mutual

/-- `walk` of `redactFact`. -/
def walk : Json → Option Json
  | .null => some .null
  | .bool b => some (.bool b)
  | .int n => some (.int n)
  | .str s => (redactFactText s.toList).map fun cs => .str (String.ofList cs)
  | .arr xs => (walkElements xs).map .arr
  | .obj ms => (walkMembers ms).map .obj

def walkElements : Jsons → Option Jsons
  | .nil => some .nil
  | .cons x xs => do some (.cons (← walk x) (← walkElements xs))

def walkMembers : Members → Option Members
  | .nil => some .nil
  | .cons k x ms =>
      if k = "raw_source_text" then walkMembers ms
      else do some (.cons k (← walk x) (← walkMembers ms))

end

def redactFact (fact : Json) : Option Json := do
  let result ← walk fact
  if assertNoSecrets result.stringify then some result else none

/-! ### Source turns -/

/-- What is read of a parsed URL. -/
structure ParsedUrl where
  username : String
  password : String
  protocol : String
  host : String
  pathname : String

structure RedactionHost where
  /-- `new URL(value)`; `none` where it throws. -/
  parseUrl : List Char → Option ParsedUrl
  /-- `isIP(value) === 6`. -/
  isIPv6 : List Char → Bool

section
variable (rh : RedactionHost)

/-- `${url.protocol}//${url.host}${url.pathname}`. -/
def ParsedUrl.clean (u : ParsedUrl) : List Char := (u.protocol ++ "//" ++ u.host ++ u.pathname).toList

/-- The URL that is kept of one: without its query and its fragment, if nothing in it is secret. -/
def keptUrl (value : List Char) : Option (List Char) :=
  (rh.parseUrl value).bind fun u =>
    if Text.truthy u.username || Text.truthy u.password then none
    else if redactSecrets u.clean = u.clean then some u.clean else none

def sanitizeUrls (text : List Char) (s : Markers) : List Char × Markers :=
  replaceStep sourceUrl (fun m s =>
    match keptUrl rh m.text with
    | some clean => (clean, s)
    | none => s.mark .url m.text) text s

def redactHomes (text : List Char) (s : Markers) : List Char × Markers :=
  replaceStep sourceHome (fun m s =>
    let (token, s) := s.mark .user ((m.group? 2).getD [])
    ((m.group? 1).getD [] ++ token, s)) text s

def redactIpv6 (text : List Char) (s : Markers) : List Char × Markers :=
  replaceStep sourceIpv6 (fun m s =>
    if rh.isIPv6 m.text then s.mark .ip m.text else (m.text, s)) text s

/-- The kinds of the marker pass of a source turn. -/
def sourceKinds : List MarkerKind := secretMarkerKinds ++ [.email, .phone, .ssn, .ip]

/-- `redactSourceTurn`, up to its assertion. -/
def redactSourcePass (text : List Char) : List Char :=
  let (sanitizedUrls, markers) := sanitizeUrls rh text {}
  let (home, markers) := redactHomes sanitizedUrls markers
  let (pass, given) := redactWithMarkers sourceKinds home
  let counts := Function.update (Function.update markers.counts .ip (given.counts .ip)) .phone
    (given.counts .phone)
  let (withPhone, markers) := redactEntry (.phone, sourcePhone) pass
    { markers with counts := counts }
  (redactIpv6 rh withPhone markers).1

def redactSourceTurn (text : List Char) : Option (List Char) :=
  let result := redactSourcePass rh text
  if assertNoSecrets result then some result else none

end

/-! ### What redaction leaves -/

section
variable {A : List Char} {text : List Char}

theorem redactEntries_of_dead {entries : List (MarkerKind × Regex)}
    (h : ∀ entry ∈ entries, dead A entry.2 = true) (htext : Over A text)
    (s : Markers) : redactEntries entries text s = (text, s) := by
  unfold redactEntries
  induction entries with
  | nil => rfl
  | cons entry entries ih =>
      have hentry : redactEntry entry text s = (text, s) :=
        replaceStep_of_dead (h entry List.mem_cons_self) _ htext s
      rw [List.foldl_cons]
      change List.foldl _ (redactEntry entry text s) entries = _
      rw [hentry]
      exact ih fun other hother => h other (List.mem_cons_of_mem _ hother)

/-- No pattern matches in a text over the alphabet. -/
structure Untouched (A : List Char) : Prop where
  entries : ∀ entry ∈ patternEntries, dead A entry.2 = true
  secondPass : ∀ pattern ∈ secondPassSecretPatterns, dead A pattern = true
  source : ∀ pattern ∈ [sourceUrl, sourceHome, sourcePhone, sourceIpv6], dead A pattern = true

theorem redactWithMarkers_of_untouched (h : Untouched A) (kinds : List MarkerKind)
    (htext : Over A text) : redactWithMarkers kinds text = (text, {}) :=
  redactEntries_of_dead (fun entry hentry => h.entries entry (List.mem_of_mem_filter hentry)) htext {}

theorem assertNoSecrets_of_untouched (h : Untouched A) (htext : Over A text) :
    assertNoSecrets text = true := by
  unfold assertNoSecrets redactSecrets
  rw [redactWithMarkers_of_untouched h secretMarkerKinds htext, Bool.and_eq_true]
  refine ⟨decide_eq_true rfl, ?_⟩
  rw [Bool.not_eq_true', List.any_eq_false]
  intro pattern hpattern
  rw [matchIn_of_dead (h.secondPass pattern hpattern) htext]
  exact Bool.false_ne_true

theorem redactSourceTurn_of_untouched (rh : RedactionHost) (h : Untouched A)
    (htext : Over A text) : redactSourceTurn rh text = some text := by
  have hpass : redactSourcePass rh text = text := by
    unfold redactSourcePass sanitizeUrls redactHomes redactIpv6 redactEntry
    rw [replaceStep_of_dead (h.source sourceUrl (by simp)) _ htext]
    dsimp only
    rw [replaceStep_of_dead (h.source sourceHome (by simp)) _ htext]
    dsimp only
    rw [redactWithMarkers_of_untouched h sourceKinds htext]
    dsimp only
    rw [replaceStep_of_dead (h.source sourcePhone (by simp)) _ htext]
    dsimp only
    rw [replaceStep_of_dead (h.source sourceIpv6 (by simp)) _ htext]
  unfold redactSourceTurn
  rw [hpass]
  dsimp only
  rw [if_pos (assertNoSecrets_of_untouched h htext)]

end

end Runir.Redaction
