import Mathlib.Data.List.Sort
import Runir.Domain.Types
import Runir.Lib.Host

/-!
# Writes — Referent identity

`src/storage/writes/text-normalize.ts`, `referent-identity.ts` and `referent-keys.ts`: the
stable identifiers a text names, and when two writes are proven to be about one referent.

* `extractReferentAnchors` and `anchorRelation`: the anchors of two texts and how they relate.
* `proveReferentIdentity`: conflict first, then equal stable keys, then a shared anchor.
-/

namespace Runir

open Regex

def normalizeText (host : Host) (text : String) : String :=
  host.unicode.toLowerCase (Text.trim (Text.collapse text))

/-! ### Anchors -/

inductive AnchorKind where
  | fileLine | trackerId | labeledId | issueRef
  deriving DecidableEq

def AnchorKind.text : AnchorKind → String
  | .fileLine => "file_line"
  | .trackerId => "tracker_id"
  | .labeledId => "labeled_id"
  | .issueRef => "issue_ref"

inductive AnchorGrade where
  | proof | conflictOnly
  deriving DecidableEq

structure ReferentAnchor where
  kind : AnchorKind
  value : String
  grade : AnchorGrade
  deriving DecidableEq

/-- `\b(?:[Tt]ask|[Rr]eview)\s+\(?`. -/
def workLabel : Regex :=
  seqs [bound, alts [.seq (oneOf "Tt") (lit "ask"), .seq (oneOf "Rr") (lit "eview")],
    plus (.cls Text.isSpace), opt (chr '(')]

/-- `WEAK_LABELED_ID_RE`. -/
def weakLabeledIdRe : Regex :=
  seqs [workLabel,
    .group 1 (.seq (.cls isLowerChar)
      (atLeast 5 (.cls fun c => isLowerChar c || c == '_' || c == '-'))),
    opt (chr ')'),
    .look false (.alt (.cls fun c => Text.isSpace c || "(.,;:".toList.contains c)
      (.test fun _ after => after.isNone))]

/-- `FILE_LINE_RE`, under the `i` flag. -/
def fileLineRe : Regex :=
  let part := plus (.cls fun c => isWordChar c || "@$.-".toList.contains c)
  seqs [.test fun before _ => !before.any fun c => isWordChar c || c == '/',
    .group 1 (seqs [part, .star (.seq (chr '/') part), chr '.', .cls isAlphaChar,
      upTo 5 (.cls fun c => isAlphaChar c || isDigitChar c)]),
    chr ':', .group 2 (between 1 6 digit),
    opt (.seq (chr '-') (.group 3 (between 1 6 digit))), bound]

/-- `TRACKER_RE`. -/
def trackerRe (u : Unicode) : Regex :=
  seqs [bound, .cls u.isLu, .star (.cls fun c => u.isL c || u.isN c), chr '-',
    .look false (.seq (.star (.cls fun c => isLowerChar c || isDigitChar c || c == '.')) digit),
    plus (.cls fun c => isLowerChar c || isDigitChar c),
    .star (.seq (chr '.') (plus digit)), bound]

/-- `LABELED_ID_RE`. -/
def labeledIdRe : Regex :=
  let slug := Regex.cls fun c => isLowerChar c || isDigitChar c || c == '_' || c == '-'
  .alt
    (seqs [bound, lit "ID:", .star (.cls Text.isSpace),
      .group 1 (atLeast 6 (.cls fun c => isAlphaChar c || isDigitChar c || c == '_' || c == '-')),
      bound])
    (seqs [workLabel,
      .group 2 (seqs [.look false (.seq (.star slug) digit), .cls isLowerChar, atLeast 7 slug]),
      opt (chr ')'), bound])

/-- `ISSUE_RE`, under the `i` flag. -/
def issueRe : Regex :=
  seqs [bound, .group 1 (alts [liti "gh", liti "pr", liti "mr", liti "issue"]),
    .star (.cls Text.isSpace), opt (chr '#'), .star (.cls Text.isSpace),
    .group 2 (between 1 6 digit), bound]

/-- The group of a match as a string, empty when it took no part. -/
def Regex.Match.groupText (m : Match) (n : Nat) : String := String.ofList ((m.group? n).getD [])

/-- `add` of `extractReferentAnchors`: one anchor for each kind and value, in order of first
appearance, `proof` once any occurrence is. -/
def addAnchor (anchors : List ReferentAnchor) (anchor : ReferentAnchor) : List ReferentAnchor :=
  if anchors.any fun a => a.kind = anchor.kind ∧ a.value = anchor.value then
    anchors.map fun a =>
      if a.kind = anchor.kind ∧ a.value = anchor.value ∧ a.grade = .conflictOnly ∧
          anchor.grade = .proof then anchor
      else a
  else anchors ++ [anchor]

def fileLineAnchor (host : Host) (m : Match) : ReferentAnchor :=
  let (file, line, range) := (m.groupText 1, m.groupText 2, m.groupText 3)
  let value := if Text.truthy range then file ++ ":" ++ line ++ "-" ++ range
    else file ++ ":" ++ line
  ⟨.fileLine, host.unicode.toLowerCase value, .proof⟩

/-- `m[1] ?? m[2]` as a labeled id. -/
def labeledAnchor (host : Host) (grade : AnchorGrade) (m : Match) : Option ReferentAnchor :=
  let value := String.ofList (((m.group? 1).or (m.group? 2)).getD [])
  if Text.truthy value then some ⟨.labeledId, host.unicode.toLowerCase value, grade⟩ else none

def issueAnchor (host : Host) (m : Match) : ReferentAnchor :=
  ⟨.issueRef, host.unicode.toLowerCase (m.groupText 1) ++ ":" ++ m.groupText 2, .proof⟩

/-- The order the anchors are reported in. -/
def anchorLe (host : Host) (a b : ReferentAnchor) : Bool :=
  (if a.kind = b.kind then host.localeCompare a.value b.value
    else host.localeCompare a.kind.text b.kind.text) != .gt

def extractReferentAnchors (host : Host) (text : String) : List ReferentAnchor :=
  let cs := text.toList
  let found :=
    (fileLineRe.all cs).map (fileLineAnchor host) ++
      ((trackerRe host.unicode).all cs).map
        (fun m => ⟨.trackerId, host.unicode.toLowerCase (String.ofList m.text), .conflictOnly⟩) ++
      (labeledIdRe.all cs).filterMap (labeledAnchor host .proof) ++
      (weakLabeledIdRe.all cs).filterMap (labeledAnchor host .conflictOnly) ++
      (issueRe.all cs).map (issueAnchor host)
  (found.foldl addAnchor []).insertionSort fun a b => anchorLe host a b = true

/-- The values of one kind, as a set. -/
def anchorValues (anchors : List ReferentAnchor) (kind : AnchorKind) : List String :=
  distinct ((anchors.filter fun a => a.kind = kind).map (·.value))

def proofValues (anchors : List ReferentAnchor) (kind : AnchorKind) : List String :=
  distinct ((anchors.filter fun a => a.kind = kind ∧ a.grade = .proof).map (·.value))

def intersects (a b : List String) : Bool := a.any b.contains

def setsEqual (a b : List String) : Bool :=
  if a.length ≠ b.length then false else a.all b.contains

inductive AnchorRelation where
  | shared | conflict | none
  deriving DecidableEq

/-- The loop of `anchorRelation` over the kinds still to compare. -/
def anchorRelationFrom (a b : List ReferentAnchor) (shared : Bool) :
    List AnchorKind → AnchorRelation
  | [] => if shared then .shared else .none
  | kind :: kinds =>
      let av := anchorValues a kind
      let bv := anchorValues b kind
      if av.length = 0 ∨ bv.length = 0 then anchorRelationFrom a b shared kinds
      else if !setsEqual av bv then .conflict
      else
        anchorRelationFrom a b
          (shared || intersects (proofValues a kind) (proofValues b kind)) kinds

def anchorRelation (a b : List ReferentAnchor) : AnchorRelation :=
  anchorRelationFrom a b false [.fileLine, .trackerId, .labeledId, .issueRef]

/-! ### Tokens and opposing states -/

/-- `GENERIC_VALUE_TOKENS`. -/
def genericValueTokens : List String :=
  ["tech", "lead", "main", "true", "false", "user", "team", "data", "work", "type", "name",
   "role", "item", "project", "active", "status", "value", "thing", "stuff", "info"]

/-- `/[^a-z0-9]+/`. -/
def tokenGap : Regex := plus (.cls fun c => !(isLowerChar c || isDigitChar c))

/-- A token long enough and specific enough to name something. -/
def isDistinctiveToken (tok : String) : Bool :=
  decide (4 ≤ tok.length) && !genericValueTokens.contains tok

def contentTokens (host : Host) (text : String) : List String :=
  distinct ((Text.split tokenGap (host.unicode.toLowerCase text)).filter isDistinctiveToken)

/-- `\bword\b`. -/
def wholeWord (word : String) : Regex := seqs [bound, lit word, bound]

def hasOpposingStateFlip (host : Host) (existingText incomingText : String) : Bool :=
  let existing := normalizeText host existingText
  let incoming := normalizeText host incomingText
  [("enabled", "disabled"), ("enable", "disable"), ("true", "false"), ("on", "off"), ("yes", "no"),
    ("present", "missing")].any fun (left, right) =>
      (Text.test (wholeWord left) existing && Text.test (wholeWord right) incoming) ||
        (Text.test (wholeWord right) existing && Text.test (wholeWord left) incoming)

/-! ### Keys -/

structure ReferentKeys where
  factKey : Option String := none
  continuitySubjectKey : Option String := none
  atomicFactIdentity : Option String := none
  deriving DecidableEq

/-- A value is a usable key when it is a non-empty string. -/
def referentKeyString (value : Option Value) : Option String :=
  (value.bind Value.str?).filter fun s => s ≠ ""

def isAtomicFactObject (fact : Option Value) : Bool :=
  match fact with
  | some (.obj _) | some (.arr _) => true
  | _ => false

/-- A property of a fact as a key. -/
def factKeyString (fact : Option Value) (k : String) : Option String :=
  referentKeyString (fact.bind (Value.prop? k))

def isCompleteAtomicTriple (fact : Option Value) : Bool :=
  isAtomicFactObject fact && (factKeyString fact "subject").isSome &&
    (factKeyString fact "predicate").isSome && (factKeyString fact "value").isSome

/-- The canonical `subject|predicate` of a complete fact; neither part may hold the delimiter. -/
def atomicFactIdentity (host : Host) (fact : Option Value) : Option String :=
  if !isCompleteAtomicTriple fact then none
  else
    match factKeyString fact "subject", factKeyString fact "predicate" with
    | some subjectRaw, some predicateRaw =>
        let subject := normalizeText host subjectRaw
        let predicate := normalizeText host predicateRaw
        if subject = "" ∨ predicate = "" then none
        else if Text.includes subject "|" || Text.includes predicate "|" then none
        else some (subject ++ "|" ++ predicate)
    | _, _ => none

inductive AtomicFactAction where
  | retain | clear
  deriving DecidableEq

/-- A merge keeps the stored fact only when the incoming one is complete and says the same. -/
def mergeAtomicFactAction (host : Host) (stored incoming : Option Value) : AtomicFactAction :=
  if (atomicFactIdentity host incoming).isNone then .clear
  else if !isAtomicFactObject stored then .clear
  else
    match factKeyString stored "subject", factKeyString stored "predicate",
        factKeyString stored "value", factKeyString incoming "subject",
        factKeyString incoming "predicate", factKeyString incoming "value" with
    | some ss, some sp, some sv, some is, some ip, some iv =>
        if normalizeText host ss ≠ normalizeText host is then .clear
        else if normalizeText host sp ≠ normalizeText host ip then .clear
        else if Text.trim sv ≠ Text.trim iv then .clear
        else .retain
    | _, _, _, _, _, _ => .clear

/-- The referent keys of a fact key, a subject key and an atomic fact. -/
def referentKeys (host : Host) (factKey continuitySubjectKey atomicFact : Option Value) :
    ReferentKeys where
  factKey := referentKeyString factKey
  continuitySubjectKey := referentKeyString continuitySubjectKey
  atomicFactIdentity := atomicFactIdentity host atomicFact

def candidateReferentKeys (host : Host) (candidate : SimilarCandidate) : ReferentKeys :=
  referentKeys host candidate.factKey candidate.continuitySubjectKey candidate.atomicFact

/-! ### The verdict -/

/-- The closed list of proofs. -/
inductive ReferentProof where
  | factKey | atomicFactIdentity | anchorShared
  deriving DecidableEq

def ReferentProof.text : ReferentProof → String
  | .factKey => "key:factKey"
  | .atomicFactIdentity => "key:atomicFactIdentity"
  | .anchorShared => "anchor-shared"

inductive ReferentVerdict where
  | proven (proof : ReferentProof)
  | conflict
  | unproven
  deriving DecidableEq

/-- The detail every conflict verdict carries. -/
def anchorConflict : String := "anchor-conflict"

def nonEmptyEqual (a b : Option String) : Bool :=
  match a, b with
  | some x, some y => decide (x ≠ "" ∧ x = y)
  | _, _ => false

def proveReferentIdentity (host : Host) (candidateText incomingText : String)
    (candidateKeys incomingKeys : ReferentKeys) (atomicAuthority : Bool) : ReferentVerdict :=
  let rel := anchorRelation (extractReferentAnchors host candidateText)
    (extractReferentAnchors host incomingText)
  if rel = .conflict then .conflict
  else if nonEmptyEqual candidateKeys.factKey incomingKeys.factKey then .proven .factKey
  else if atomicAuthority &&
      nonEmptyEqual candidateKeys.atomicFactIdentity incomingKeys.atomicFactIdentity then
    .proven .atomicFactIdentity
  else if rel = .shared then .proven .anchorShared
  else .unproven

/-- The anchors of the two texts conflict. -/
def AnchorsConflict (host : Host) (candidateText incomingText : String) : Prop :=
  anchorRelation (extractReferentAnchors host candidateText)
    (extractReferentAnchors host incomingText) = .conflict

instance (host : Host) (candidateText incomingText : String) :
    Decidable (AnchorsConflict host candidateText incomingText) :=
  inferInstanceAs (Decidable (_ = _))

/-- **The conflict verdict is the anchors' alone**: no key and no flag overrules it, and nothing
else produces it. -/
theorem proveReferentIdentity_eq_conflict {host : Host} {candidateText incomingText : String}
    {candidateKeys incomingKeys : ReferentKeys} {atomicAuthority : Bool} :
    proveReferentIdentity host candidateText incomingText candidateKeys incomingKeys
        atomicAuthority = .conflict ↔ AnchorsConflict host candidateText incomingText := by
  unfold proveReferentIdentity AnchorsConflict
  constructor
  · intro h
    by_contra hne
    simp only [hne, if_false] at h
    split_ifs at h
  · intro h
    simp only [h, if_true]

end Runir
