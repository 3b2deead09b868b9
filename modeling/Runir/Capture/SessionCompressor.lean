import Runir.Capture.Extraction
import Runir.Lib.Leftmost
import Runir.Lib.OrdMap

/-!
# Capture — Session compressor

`src/capture/continuity/session-compressor.ts`: which messages of a conversation the extraction is
given when they do not all fit into its budget.

* `scoreText`: what a text is worth, and why.
* `selectTexts`: the indices that are taken, most valuable first, as long as they fit.
* `compressTexts`: the texts at these indices, in order; the indices themselves are not returned.
* `compressMessages`: the messages with these texts, found again by their contents.
* `compressMessagesWithIndices`: their indices, found again by the identity of the messages.

A message is a reference, so that two equal messages can be told apart; `message` is what it refers
to.
-/

namespace Runir
open Regex
open Recall (phrase)

namespace SessionCompressor

/-! ### Indicator patterns -/

def atStart : Regex := .test fun before _ => before.isNone

def atEnd : Regex := .test fun _ after => after.isNone

def spaces : Regex := .star (.cls Text.isSpace)

/-- `TOOL_CALL_INDICATORS`. -/
def toolCallIndicators : List Regex :=
  ["tool_use", "tool_result", "function_call"].map phrase ++
    [seqs [bound, alts (["memory_store", "memory_recall", "memory_forget", "memory_update"].map
      liti), bound]]

/-- `CORRECTION_INDICATORS`. -/
def correctionIndicators : List Regex :=
  [seqs [atStart, liti "no", .cls fun c => c == ',' || c == '.' || Text.isSpace c],
   phrase "actually", phrase "instead", phrase "wrong",
   seqs [bound, liti "correct", opt (liti "ion"), bound], phrase "fix"] ++
    ["不对", "应该是", "應該是", "错了", "錯了", "改成"].map lit ++
    [seqs [lit "不是", .star (.cls fun c => !isLineTerminator c), lit "而是"]]

/-- `DECISION_INDICATORS`. -/
def decisionIndicators : List Regex :=
  [seqs [bound, liti "let", opt (chr '\''), liti "s go with", bound],
   seqs [bound, liti "confirm", opt (liti "ed"), bound],
   seqs [bound, liti "approve", opt (liti "d"), bound],
   seqs [bound, liti "decide", opt (liti "d"), bound],
   seqs [bound, liti "we", opt (chr '\''), liti "ll use", bound],
   phrase "going forward", phrase "from now on", phrase "agreed"] ++
    ["决定", "決定", "确认", "確認", "选择了", "選擇了", "就这样", "就這樣"].map lit

/-- `EXACT_QA_INDICATORS`. -/
def exactQaIndicators : List Regex :=
  [seqs [bound, liti "exact", opt (liti "ly"), bound],
   phrase "commit",
   seqs [bound, .cls isUpperChar, atLeast 2 (.cls fun c => isUpperChar c || isDigitChar c ||
     c == '_'), bound],
   seqs [bound, exactly 4 digit, chr '-', exactly 2 digit, chr '-', exactly 2 digit, bound],
   seqs [bound, plus digit, plus (.seq (chr '.') (plus digit)), bound],
   seqs [bound, plus digit, bound],
   seqs [chr '`', plus (.cls (· != '`')), chr '`'],
   seqs [chr '/', plus (.cls fun c => isWordChar c || c == '.' || c == '/' || c == '-')],
   listLinePattern,
   lit "```"]

/-- `ACKNOWLEDGMENT_PATTERNS`. -/
def acknowledgmentPatterns : List Regex :=
  seqs [atStart, alts (["ok", "okay", "k", "sure", "fine", "thanks", "thank you", "thx", "ty",
      "got it", "understood", "cool", "nice", "great", "good", "perfect", "awesome", "alright",
      "yep", "yup", "yeah", "right"].map liti), spaces, opt (oneOf ".!"), atEnd] ::
    seqs [atStart, lit "好", opt (lit "的"), spaces, opt (oneOf "。！"), atEnd] ::
    seqs [atStart, lit "嗯", spaces, opt (oneOf "。"), atEnd] ::
    ["收到", "了解", "明白", "谢谢", "感谢"].map
      (fun s => seqs [atStart, lit s, spaces, opt (oneOf "。！"), atEnd]) ++
    [seqs [atStart, lit "👍", spaces, atEnd]]

def tagName : Regex := plus (.cls fun c => isLowerChar c || c == '-')

/-- `/^<[a-z-]+>/` and `/<\/[a-z-]+>\s*$/`. -/
def isSystemXml (trimmed : String) : Bool :=
  Text.test (seqs [atStart, chr '<', tagName, chr '>']) trimmed &&
    Text.test (seqs [lit "</", tagName, chr '>', spaces, atEnd]) trimmed

def isCjk (c : Char) : Bool :=
  let n := c.toNat
  decide (0x4e00 ≤ n ∧ n ≤ 0x9fff) || decide (0x3040 ≤ n ∧ n ≤ 0x309f) ||
    decide (0x30a0 ≤ n ∧ n ≤ 0x30ff) || decide (0xac00 ≤ n ∧ n ≤ 0xd7af)

end SessionCompressor

open SessionCompressor

/-! ### Scoring -/

inductive ScoreReason where
  | empty | toolCall | correction | decision | systemXml | exactQaEvidence | acknowledgment
  | substantive | shortQuestion | shortStatement
  deriving DecidableEq

structure ScoredText where
  index : Nat
  text : String
  score : ℚ
  reason : ScoreReason
  deriving DecidableEq

/-- The score of a text and the reason for it. -/
def scoreOf (text : String) : ℚ × ScoreReason :=
  let trimmed := Text.trim text
  if Text.length trimmed = 0 then (0, .empty)
  else if toolCallIndicators.any fun p => Text.test p trimmed then (1, .toolCall)
  else if correctionIndicators.any fun p => Text.test p trimmed then (95 / 100, .correction)
  else if decisionIndicators.any fun p => Text.test p trimmed then (85 / 100, .decision)
  else if isSystemXml trimmed then (3 / 10, .systemXml)
  else if exactQaIndicators.any fun p => Text.test p trimmed then (82 / 100, .exactQaEvidence)
  else if acknowledgmentPatterns.any fun p => Text.test p trimmed then (1 / 10, .acknowledgment)
  else
    let substantiveMinLength := if trimmed.toList.any isCjk then 30 else 80
    if substantiveMinLength < Text.length trimmed then
      -- the source asks once more; a text in tags has not come this far
      if isSystemXml trimmed then (3 / 10, .systemXml) else (7 / 10, .substantive)
    else if Text.includes trimmed "?" || Text.includes trimmed "？" then (5 / 10, .shortQuestion)
    else (4 / 10, .shortStatement)

def scoreText (text : String) (index : Nat) : ScoredText :=
  ⟨index, text, (scoreOf text).1, (scoreOf text).2⟩

def isQuestionLike (text : String) : Bool :=
  Text.test (alts [oneOf "?？", seqs [bound, alts (["what", "which", "when", "who", "where", "why",
    "how many", "how much"].map liti), bound]]) text

/-- The evidence, with the question before it and the answer after it, in rising order. -/
def protectedEvidenceIndices (scored : List ScoredText) (texts : List String) : List Nat :=
  (distinct (scored.flatMap fun item =>
    if item.reason = .exactQaEvidence then
      let previous := if item.index = 0 then none else texts[item.index - 1]?
      let next := texts[item.index + 1]?
      item.index ::
        ((if previous.any isQuestionLike then [item.index - 1] else []) ++
          if next.isSome && isQuestionLike item.text then [item.index + 1] else [])
    else [])).insertionSort (· ≤ ·)

/-! ### Compression -/

/-- `selectedIndices` and `usedChars`. -/
structure Selection where
  indices : List Nat := []
  usedChars : Nat := 0
  deriving DecidableEq

section
variable (texts : List String) (maxChars : ℚ)

/-- Takes an index that is not taken yet and whose text still fits. -/
def addIndex (selection : Selection) (idx : Nat) : Selection × Bool :=
  match texts[idx]? with
  | none => (selection, false)
  | some text =>
      if idx ∈ selection.indices then (selection, false)
      else if maxChars < (selection.usedChars + Text.length text : Nat) then (selection, false)
      else (⟨selection.indices ++ [idx], selection.usedChars + Text.length text⟩, true)

def addAll (selection : Selection) (idxs : List Nat) : Selection :=
  idxs.foldl (fun s idx => (addIndex texts maxChars s idx).1) selection

/-- `pairedWith`: a tool call and the text after it, each paired once. -/
def pairedWith (scored : List ScoredText) : OrdMap Nat Nat :=
  scored.foldl (fun pairs s =>
    if s.reason = .toolCall ∧ s.index + 1 < texts.length ∧ !pairs.has s.index ∧
        !pairs.has (s.index + 1) then
      (pairs.set s.index (s.index + 1)).set (s.index + 1) s.index
    else pairs) .empty

/-- The texts between the first and the last, by falling score and then in order. -/
def sortedCandidates (scored : List ScoredText) : List ScoredText :=
  (scored.filter fun s => s.index ≠ 0 ∧ s.index ≠ texts.length - 1).insertionSort fun a b =>
    b.score < a.score ∨ a.score = b.score ∧ a.index ≤ b.index

/-- Takes a candidate and, where that is taken, the text it is paired with. -/
def addPair (pairs : OrdMap Nat Nat) (selection : Selection) (idx : Nat) : Selection :=
  let added := addIndex texts maxChars selection idx
  if added.2 then
    match pairs.get? idx with
    | some partner => (addIndex texts maxChars added.1 partner).1
    | none => added.1
  else added.1

/-- The greedy loop: it ends where the budget is used up. -/
def addCandidates (pairs : OrdMap Nat Nat) (selection : Selection) :
    List ScoredText → Selection
  | [] => selection
  | candidate :: rest =>
      if maxChars ≤ (selection.usedChars : ℚ) then selection
      else addCandidates pairs (addPair texts maxChars pairs selection candidate.index) rest

/-- The fallback for texts of low score: from the last on, until there are enough. -/
def fillLast (enough : Nat) (selection : Selection) : Nat → Selection
  | 0 => selection
  | i + 1 =>
      if selection.indices.length < enough then
        fillLast enough (addIndex texts maxChars selection i).1 i
      else selection

/-- The defaults of `options`. -/
def defaultMinTexts : Nat := 3
def defaultMinScoreToKeep : ℚ := 3 / 10

def scoreTexts : List ScoredText := texts.zipIdx.map fun e => scoreText e.1 e.2

/-- The indices that are taken where the texts do not all fit. -/
def selectTexts : Selection :=
  let scored := scoreTexts texts
  let bounds := addAll texts maxChars {} (0 :: if 1 < texts.length then [texts.length - 1] else [])
  let kept := addAll texts maxChars bounds (protectedEvidenceIndices scored texts)
  let filled := addCandidates texts maxChars (pairedWith texts scored) kept
    (sortedCandidates texts scored)
  if scored.all fun s => decide (s.score < defaultMinScoreToKeep) then
    fillLast texts maxChars (min defaultMinTexts texts.length) filled texts.length
  else filled

def totalLength (texts : List String) : Nat := (texts.map Text.length).sum

/-- The indices of the texts that `compressTexts` keeps, in order. -/
def selectedIndices : List Nat :=
  if (totalLength texts : ℚ) ≤ maxChars then List.range texts.length
  else (selectTexts texts maxChars).indices.insertionSort (· ≤ ·)

structure CompressResult where
  texts : List String
  scored : List ScoredText
  dropped : Nat
  totalChars : Nat
  deriving DecidableEq

def compressTexts : CompressResult :=
  if texts.isEmpty then ⟨[], [], 0, 0⟩
  else if (totalLength texts : ℚ) ≤ maxChars then
    ⟨texts, scoreTexts texts, 0, totalLength texts⟩
  else
    let sortedIndices := (selectTexts texts maxChars).indices.insertionSort (· ≤ ·)
    let resultTexts := sortedIndices.filterMap fun i => texts[i]?
    ⟨resultTexts, scoreTexts texts, texts.length - sortedIndices.length, totalLength resultTexts⟩

end

/-! ### Messages -/

section
variable {ι : Type} [DecidableEq ι] (message : ι → CaptureMessage)

/-- The loop that finds the texts again: for each of them the first message from `searchFrom` on
with that content; a text that is not found is passed over. -/
def survivingIndices (contents : List String) : List String → Nat → List Nat → List Nat
  | [], _, surviving => surviving
  | t :: ts, searchFrom, surviving =>
      match (List.range contents.length).find? fun i =>
          decide (searchFrom ≤ i) && decide (contents[i]? = some t) && decide (i ∉ surviving) with
      | some i => survivingIndices contents ts (i + 1) (surviving ++ [i])
      | none => survivingIndices contents ts searchFrom surviving

def contentsOf (messages : List ι) : List String := messages.map fun m => (message m).content

def compressMessages (messages : List ι) (maxChars : ℚ) : List ι :=
  if messages.isEmpty then []
  else
    let texts := contentsOf message messages
    let result := compressTexts texts maxChars
    if result.dropped = 0 then messages
    else
      ((survivingIndices texts result.texts 0 []).insertionSort (· ≤ ·)).filterMap fun i =>
        messages[i]?

/-- `messages.indexOf(message, from)` for one message after another; absent where the source
throws. -/
def originalIndices (messages : List ι) : Nat → List ι → Option (List Nat)
  | _, [] => some []
  | start, m :: rest => do
      let originalIndex ← (List.range messages.length).find? fun i =>
        decide (start ≤ i) && decide (messages[i]? = some m)
      let later ← originalIndices messages (originalIndex + 1) rest
      return originalIndex :: later

/-- The messages that are kept, each with its index; absent where the source throws. -/
def compressMessagesWithIndices (messages : List ι) (maxChars : ℚ) : Option (List (ι × Nat)) :=
  let compressed := compressMessages message messages maxChars
  (originalIndices messages 0 compressed).map fun indices => compressed.zip indices

end

end Runir
