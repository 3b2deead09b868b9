import Runir.Writes.ReferentIdentity
import Runir.Domain.ExactQa

/-!
# Writes — Signals and guards

`src/storage/writes/write-signals.ts` and `supersede-guards.ts`: what the texts and tags of two
writes say about each other.

* `wouldSupersedeTexts`: the same statement with another value.
* Tags: correction markers, slots, subjects.
* Cues of replacement and of transience, occasions, novelty.
* `durableTransientKeepBothReason`, `temporalOrderingKeepBothReason`: the supersede guards.
-/

namespace Runir

open Regex

/-! ### Merged texts -/

def splitSegments (text : String) : List String :=
  ((Text.split segmentEnd text).map Text.trim).filter Text.truthy

/-- The loop of `buildMergedText`: the segments whose normal form is new, in order. -/
def freshSegments (host : Host) (seen : List String) : List String → List String
  | [] => []
  | segment :: segments =>
      let normalized := normalizeText host segment
      if normalized = "" ∨ normalized ∈ seen then freshSegments host seen segments
      else segment :: freshSegments host (normalized :: seen) segments

def buildMergedText (host : Host) (existingText incomingText : String) : String :=
  let existingNorm := normalizeText host existingText
  let incomingNorm := normalizeText host incomingText
  if existingNorm = incomingNorm then existingText
  else if Text.includes incomingNorm existingNorm then incomingText
  else if Text.includes existingNorm incomingNorm then existingText
  else
    let merged := Text.trim (Text.join " "
      (freshSegments host [] (splitSegments existingText ++ splitSegments incomingText)))
    if merged = "" then incomingText
    else if 1200 < Text.length merged then
      if Text.length existingText ≤ Text.length incomingText then incomingText else existingText
    else merged

/-! ### Statements -/

/-- `STATEMENT_DELIMITERS`. -/
def statementDelimiters : List String :=
  [":", " is ", " are ", " was ", " were ", " = ", " uses ", " use ", " switched to ",
   " changed to ", " updated to ", " moved to ", " moved from ", " relocated to ",
   " resides in ", " lives in ", " renamed to "]

/-- The leftmost delimiter at or after `minIndex`, the first listed at a tie. -/
def findLeftmostDelimiter (normalized : String) (minIndex : Nat) : Option (Nat × String) :=
  statementDelimiters.foldl
    (fun best delimiter =>
      match Text.indexOf normalized delimiter with
      | none => best
      | some index =>
          if Text.unitsBefore normalized index < minIndex then best
          else
            match best with
            | none => some (index, delimiter)
            | some b => if index < b.1 then some (index, delimiter) else best)
    none

def deriveStatementKey (host : Host) (text : String) : String :=
  let normalized := normalizeText host text
  match findLeftmostDelimiter normalized 8 with
  | some split => Text.trim (Text.sliceTo normalized split.1)
  | none => Text.trim (Text.join " " ((Text.splitOn normalized ' ').take 8))

def extractStatementValue (host : Host) (text : String) : String :=
  let normalized := normalizeText host text
  match findLeftmostDelimiter normalized 0 with
  | some split => Text.trim (Text.sliceFrom normalized (split.1 + split.2.length))
  | none => normalized

def wouldSupersedeTexts (host : Host) (existingText incomingText : String) : Bool :=
  let existingKey := deriveStatementKey host existingText
  let incomingKey := deriveStatementKey host incomingText
  if existingKey = "" ∨ incomingKey = "" ∨ existingKey ≠ incomingKey then false
  else if hasOpposingStateFlip host existingText incomingText then true
  else
    let existingValue := extractStatementValue host existingText
    let incomingValue := extractStatementValue host incomingText
    if existingValue = "" ∨ incomingValue = "" ∨ existingValue = incomingValue then false
    else !(Text.includes existingValue incomingValue || Text.includes incomingValue existingValue)

/-! ### Tags -/

/-- `CORRECTION_MARKER_TAGS`. -/
def correctionMarkerTags : List String :=
  ["update", "supersedes_prior", "invalidation", "no_longer_true"]

/-- `NON_SLOT_TAG_PREFIXES`. -/
def nonSlotTagPrefixes : List String := ["speaker:", "status:"]

/-- `SUBJECT_TAG_PREFIXES`. -/
def subjectTagPrefixes : List String :=
  ["project:", "subject:", "person:", "owner:", "entity:", "service:", "app:", "repo:"]

section
variable (host : Host)

def normTags (tags : Option (List String)) : List String :=
  ((tags.getD []).map fun t => host.unicode.toLowerCase (Text.trim t)).filter Text.truthy

def hasCorrectionMarker (tags : Option (List String)) : Bool :=
  (normTags host tags).any correctionMarkerTags.contains

def isSlotTag (tag : String) : Bool :=
  Text.includes tag ":" && !correctionMarkerTags.contains tag &&
    !nonSlotTagPrefixes.any (Text.startsWith tag)

def canonicalSlotTag (tag : String) : String :=
  String.ofList (tag.toList.map fun c => if c = '_' then '-' else c)

/-- The slot tags of a side, canonical and without repetition. -/
def slotTags (tags : Option (List String)) : List String :=
  distinct (((normTags host tags).filter isSlotTag).map canonicalSlotTag)

def sharesSlotTags (candidateTags incomingTags : Option (List String)) : Bool :=
  let inc := slotTags host incomingTags
  if inc.length = 0 then false
  else decide (2 ≤ ((slotTags host candidateTags).filter inc.contains).length)

/-- The subject a tag names, if it is a subject tag. -/
def subjectOfTag (tag : String) : Option String :=
  let canon := canonicalSlotTag tag
  (subjectTagPrefixes.find? (Text.startsWith canon)).bind fun p =>
    let v := Text.sliceFrom canon p.length
    if v = "" then none else some v

def subjectValues (tags : Option (List String)) : List String :=
  distinct ((normTags host tags).filterMap subjectOfTag)

/-- Both sides name subjects and share none. -/
def conflictingSubjects (candidateTags incomingTags : Option (List String)) : Bool :=
  let a := subjectValues host candidateTags
  let b := subjectValues host incomingTags
  if a.length = 0 ∨ b.length = 0 then false else !a.any b.contains

def subjectsChanged (candidateTags incomingTags : Option (List String)) : Bool :=
  let a := subjectValues host candidateTags
  let b := subjectValues host incomingTags
  if a.length = 0 ∨ b.length = 0 then false
  else a.any b.contains && (!a.all b.contains || !b.all a.contains)

def sharesContextToken (candidateText incomingText exclude : String) : Bool :=
  let inc := contentTokens host incomingText
  (contentTokens host candidateText).any fun tok => tok != exclude && inc.contains tok

def incomingNamesCandidateValue (candidate : SimilarCandidate) (incomingText : String)
    (incomingTags : Option (List String)) : Bool :=
  let incomingCanon := (normTags host incomingTags).map canonicalSlotTag
  let hay := host.unicode.toLowerCase incomingText
  ((normTags host candidate.tags).filter isSlotTag).any fun rawTag =>
    let tag := canonicalSlotTag rawTag
    if incomingCanon.contains tag then false
    else
      let value := Text.sliceFrom tag ((Text.indexOf tag ":").getD 0 + 1)
      (Text.split tokenGap value).any fun tok =>
        isDistinctiveToken tok && Text.test (wholeWord tok) hay &&
          sharesContextToken host candidate.l2 incomingText tok

/-! ### Cues -/

def space1 : Regex := plus (.cls Text.isSpace)

/-- `(?:\w+ly\s+)?`. -/
def adverb : Regex := opt (seqs [plus word, lit "ly", space1])

/-- `CURRENTNESS_CUE_PATTERNS`. -/
def currentnessCuePatterns : List Regex :=
  [seqs [bound, lit "replac", alts (["e", "es", "ed", "ing"].map lit), bound],
   wholeWord "no longer",
   wholeWord "instead of",
   seqs [bound, lit "migrat", alts (["e", "es", "ed", "ing"].map lit), bound],
   seqs [bound, lit "switch", opt (alts (["ed", "ing"].map lit)), space1, adverb,
     alts (["to", "from", "off", "over", "away"].map lit), bound],
   seqs [bound, lit "move", opt (chr 'd'), space1, adverb,
     alts (["to", "off", "from", "over", "away"].map lit), bound],
   seqs [bound, lit "move", opt (chr 'd'), space1, lit "on", space1, lit "to", bound],
   seqs [bound, lit "transition", opt (alts (["ed", "ing", "s"].map lit)), space1, adverb,
     alts (["to", "from", "away"].map lit), bound],
   -- the first word of the object is not an article
   seqs [bound, alts (["dropped", "ditched"].map lit), space1,
     .look true (alts (["the", "a", "an"].map fun w => .seq (lit w) bound)),
     upTo 3 (.seq (plus word) space1),
     alts (["for", "in favor of"].map fun w => .seq (lit w) bound)],
   wholeWord "is now",
   wholeWord "as of",
   wholeWord "took over",
   wholeWord "taking over",
   wholeWord "stepped down",
   wholeWord "the new",
   seqs [bound, alts (["updated", "changed", "upgraded"].map lit), space1,
     alts (["to", "from"].map lit), bound]]

def hasCurrentnessCue (text : String) : Bool :=
  let t := host.unicode.toLowerCase text
  currentnessCuePatterns.any (Text.test · t)

def isJudgeWorthy (candidate : SimilarCandidate) (incomingText : String)
    (incomingTags : Option (List String)) : Bool :=
  if conflictingSubjects host candidate.tags incomingTags then false
  else if !hasCurrentnessCue host incomingText then false
  else
    sharesSlotTags host candidate.tags incomingTags ||
      incomingNamesCandidateValue host candidate incomingText incomingTags

/-! ### Occasions and novelty -/

inductive OccasionType where
  | isoDate | quarter | year | occasion
  deriving DecidableEq

/-- A label and a number under the `i` flag, as in `sprint\s*\d+`. -/
def numbered (label : String) : Regex :=
  seqs [liti label, .star (.cls Text.isSpace), plus digit]

/-- `DISTINCT_OCCASION_PATTERNS`; each captures what stands between the word bounds. -/
def distinctOccasionPatterns : List (OccasionType × Regex) :=
  let whole := fun r => seqs [bound, .group 1 r, bound]
  [(.isoDate, whole (seqs [exactly 4 digit, chr '-', exactly 2 digit, chr '-', exactly 2 digit])),
   (.quarter, whole (.seq (liti "q") (oneOf "1234"))),
   (.year, whole (.seq (lit "20") (exactly 2 digit))),
   (.occasion, whole (alts [numbered "sprint", numbered "week", numbered "phase",
     numbered "iteration", numbered "milestone",
     seqs [liti "v", plus digit, chr '.', plus digit]]))]

def distinctOccasionAnchor (text : String) : Option (OccasionType × String) :=
  distinctOccasionPatterns.findSome? fun (type, re) =>
    (re.exec text.toList).map fun m =>
      (type, Text.collapse (host.unicode.toLowerCase (m.groupText 1)))

/-- Both texts name an occasion of one type, and not the same one. -/
def occasionsDiffer (a b : String) : Bool :=
  match distinctOccasionAnchor host a, distinctOccasionAnchor host b with
  | some x, some y => decide (x.1 = y.1 ∧ x.2 ≠ y.2)
  | _, _ => false

/-- `NOVEL_TOKEN_FLOOR` and `NOVEL_RATIO_FLOOR` are 3 and 0.40. -/
def isAdditiveContent (candidateText incomingText : String) : Bool :=
  let candTokens := contentTokens host candidateText
  let incTokens := contentTokens host incomingText
  if incTokens.length = 0 then false
  else
    let novelCount := (incTokens.filter fun tok => !candTokens.contains tok).length
    decide (3 ≤ novelCount) && decide ((4 / 10 : ℚ) ≤ novelCount / incTokens.length)

def mergeKeepBothReason (candidate : SimilarCandidate) (incomingText : String)
    (incomingTags : Option (List String)) : Option String :=
  if conflictingSubjects host candidate.tags incomingTags &&
      isAdditiveContent host candidate.l2 incomingText then some "conflicting-subjects"
  else if occasionsDiffer host candidate.l2 incomingText &&
      (subjectValues host candidate.tags).any (subjectValues host incomingTags).contains then
    some "distinct-occasion"
  else if sharesSlotTags host candidate.tags incomingTags &&
      subjectsChanged host candidate.tags incomingTags && !hasCurrentnessCue host incomingText then
    some "ambiguous-slot-change-no-cue"
  else none

/-! ### Supersede guards -/

/-- `TRANSIENCE_CUE_PATTERNS`. -/
def transienceCuePatterns : List Regex :=
  [wholeWord "for now", wholeWord "for the moment", wholeWord "for the time being",
   wholeWord "temporarily", wholeWord "at the moment", wholeWord "right now",
   seqs [bound, lit "this ", alts (["week", "month", "morning", "afternoon", "evening",
     "sprint"].map lit), bound],
   wholeWord "today", wholeWord "tonight"]

def hasTransienceCue (text : String) : Bool :=
  let t := host.unicode.toLowerCase text
  transienceCuePatterns.any (Text.test · t)

def parseEpochMs (value : Option String) : Option Int :=
  match value with
  | none => none
  | some s => if s = "" then none else host.dateParse s

/-- A transient incoming fact must not overwrite a durable stored one. -/
def durableTransientKeepBothReason (candidate : SimilarCandidate) (incomingText : String)
    (incomingTier : Option String) : Option String :=
  if candidate.tier = some "durable" ∧ incomingTier ≠ some "durable" then
    if incomingTier = some "ephemeral" then some "ephemeral-over-durable"
    else if hasTransienceCue host incomingText then some "transient-over-durable"
    else none
  else none

/-- A supersede must be driven by a fact no older than the one it replaces. -/
def temporalOrderingKeepBothReason (candidate : SimilarCandidate)
    (incomingValidAt : Option String) (nowMs : Int) : Option String :=
  let incoming : Option Int :=
    if incomingValidAt = none ∨ incomingValidAt = some "" then some nowMs
    else parseEpochMs host incomingValidAt
  match incoming with
  | none => some "invalid-incoming-validAt"
  | some incomingMs =>
      match parseEpochMs host (some (candidate.validAt.getD candidate.createdAt)) with
      | none => some "invalid-candidate-time"
      | some candidateMs => if incomingMs < candidateMs then some "older-incoming" else none

end

end Runir
