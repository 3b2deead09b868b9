import Mathlib.Data.List.Sort
import Runir.Lib.Host

/-!
# Recall — Hits

`src/domain/memory/retrieval.ts` and `src/recall/intent/intent-analyzer.ts`: what the last stages
of a recall are handed.  A hit has the fields these stages read or write.
-/

namespace Runir.Recall

/-- `MemoryRole`. -/
inductive MemoryRole where
  | projectState | currentStatus | sessionHandoff | recentWork | debuggingActive | planningActive
  | architectureReference | researchContext | deployOps | adminProcess | operationalNoise
  deriving DecidableEq

/-- `sourceKind`. -/
inductive SourceKind where
  | semiote | noema
  deriving DecidableEq

/-- A score; `none` is `NaN`. -/
abbrev Score := Option ℚ

namespace Score

/-- `factor * s`. -/
def times (factor : ℚ) (s : Score) : Score := s.map (factor * ·)

/-- `s < t`, which `NaN` is on neither side of. -/
def lt : Score → Score → Bool
  | some x, some y => decide (x < y)
  | _, _ => false

/-- `s !== t`, which `NaN` is of itself. -/
def differs : Score → Score → Bool
  | some x, some y => decide (x ≠ y)
  | _, _ => true

/-- `Math.max(...scores, 1)`. -/
def maxWithOne (scores : List Score) : Score :=
  scores.foldl (fun m s => do return max (← m) (← s)) (some 1)

/-- `Math.max(0, Math.min(1, x))`. -/
def clamp (x : ℚ) : ℚ := max 0 (min 1 x)

end Score

/-- `SearchHit`. -/
structure SearchHit where
  id : String
  text : String
  score : Score
  createdAt : Option String := none
  updatedAt : Option String := none
  memoryRole : Option MemoryRole := none
  invalidAt : Option String := none
  confidence : Option ℚ := none
  l0 : Option String := none
  l1 : Option String := none
  path : Option String := none
  client : Option String := none
  sourceKind : Option SourceKind := none
  exactQaCandidate : Option Bool := none
  deriving DecidableEq

/-- `.sort((a, b) => b.score - a.score)`. -/
def sortByScore (hits : List SearchHit) : List SearchHit :=
  hits.insertionSort fun a b => Score.lt a.score b.score = false

inductive QueryIntent where
  | preference | decision | entity | event | fact | currentStatus | recentWork | schema | debugging
  | architecture | workflowPosture | sessionOpener | preCompaction | postCompactionValidation
  | latestState | exactLookup | decisionTrace | exploratoryTopic | unknownMixed
  deriving DecidableEq

inductive RecallDepth where
  | l0 | l1 | full
  deriving DecidableEq

/-- `IntentSignal`, without the categories and the confidence these stages do not read. -/
structure IntentSignal where
  label : QueryIntent
  depth : RecallDepth

/-- `isStatusClassIntent`. -/
def isStatusClassIntent (label : QueryIntent) : Bool :=
  [QueryIntent.currentStatus, .sessionOpener, .preCompaction, .postCompactionValidation].contains
    label

/-- `s.length`, in UTF-16 code units. -/
def codeUnits : List Char → Nat
  | [] => 0
  | c :: cs => (if c.toNat < 0x10000 then 1 else 2) + codeUnits cs

theorem codeUnits_append (cs ds : List Char) :
    codeUnits (cs ++ ds) = codeUnits cs + codeUnits ds := by
  induction cs with
  | nil => simp [codeUnits]
  | cons c cs ih =>
      rw [List.cons_append, codeUnits, codeUnits, ih]
      omega

/-- `approximateTokens`. -/
def approximateTokens (text : List Char) : Nat := (codeUnits text + 3) / 4

end Runir.Recall
