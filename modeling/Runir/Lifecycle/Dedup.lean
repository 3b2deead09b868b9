import Runir.Lib.Runs
import Runir.Store.Supersede

/-!
# Lifecycle — Dedup

The dedup sweep of `runConsolidationForScope` in `src/lifecycle/semion/consolidation.ts`.

* `fetchAllActiveMemoriesForScope`: the snapshot.
* `Sweep`: a sweep on its snapshot, between two awaits.
* `DedupState.step`: its pair loop, one comparison after the other, and the watermark.

A step of the sweep touches the store at most once, so that other writers can come in between any
two.  A supersede that throws is one that was rolled back or one in doubt, whose transaction
committed although its caller saw an error.
-/

namespace Runir

/-! ### The snapshot -/

/-- A row of `fetchAllActiveMemoriesForScope`. -/
structure SweepMemory where
  id : String
  l2 : String
  createdAt : String
  updatedAt : Option String
  embedding : List ℚ
  deriving DecidableEq

def toSweepMemory (now : Int) (id : String) (row : MemoryRow) : SweepMemory where
  id := id
  l2 := row.text
  createdAt := (row.propStr? "createdAt").getD (Date.toISOString now)
  updatedAt := row.propStr? "updatedAt"
  embedding := row.embedding.getD []

/-- The rows of the snapshot query: active, of the scope, and without a protected lineage. -/
def sweepable (userId : String) (scope : MemoryScope) (row : MemoryRow) : Bool :=
  row.payloadUserId = some userId && row.propStr? "scope" = some scope.text &&
    row.processingLineage = none && row.isCurrent

def fetchAllActiveMemoriesForScope (now : Int) (userId : String) (scope : MemoryScope)
    (limit : Nat) (rows : Rows) : List SweepMemory :=
  ((rows.entries.filter fun e => sweepable userId scope e.2).take limit).map fun e =>
    toSweepMemory now e.1 e.2

/-- A row of the snapshot with the vector it is compared by, if it has one. -/
structure SweepRow extends SweepMemory where
  vector : Option (List ℚ)
  deriving DecidableEq

/-- A stored embedding wins; `embed` answers for a row without one, unless it throws. -/
def resolveVector (embed : SweepMemory → Option (List ℚ)) (m : SweepMemory) : SweepRow :=
  { m with
    vector := if 0 < m.embedding.length then some m.embedding
      else (embed m).filter fun computed => 0 < computed.length }

/-! ### Comparing two rows -/

def dot (a b : List ℚ) : ℚ := (List.zipWith (· * ·) a b).sum

/-- `cosineSimilarity(a, b) >= 0.90`, squared so that no root is taken. -/
def cosineAtLeast90 (a b : List ℚ) : Bool :=
  decide (a.length = b.length) && decide (0 < dot a b) &&
    decide (81 * (dot a a * dot b b) ≤ 100 * (dot a b * dot a b))

namespace SweepRow

def writtenAt (m : SweepRow) : String := m.updatedAt.getD m.createdAt

/-- The row of a pair to supersede: the one created first, the candidate on a tie. -/
def older (candidate other : SweepRow) : SweepRow :=
  if candidate.createdAt ≤ other.createdAt then candidate else other

def newer (candidate other : SweepRow) : SweepRow :=
  if candidate.createdAt ≤ other.createdAt then other else candidate

/-- The survivor carries every value of the row it replaces. -/
def preserved (host : Host) (older newer : SweepRow) : Bool :=
  (exactValueTokens host older.l2).all (exactValueTokens host newer.l2).contains

/-- The pair is a duplicate: close vectors, and no value would be lost. -/
def duplicates (host : Host) (candidate other : SweepRow) : Bool :=
  match candidate.vector, other.vector with
  | some a, some b =>
      cosineAtLeast90 a b && preserved host (older candidate other) (newer candidate other)
  | _, _ => false

end SweepRow

/-! ### A sweep -/

/-- A sweep after it has read the watermark.  `current` is the candidate in hand, with the rows it
is still to be compared with and whether one of its supersedes has failed. -/
structure Sweep where
  all : List SweepRow
  candidates : List SweepRow
  todo : List SweepRow
  current : Option (SweepRow × List SweepRow × Bool) := none
  deduped : List String := []
  firstUnsweptW : Option String := none
  deriving DecidableEq

/-- The rows written since the watermark, in the order of their timestamps. -/
def candidatesOf (watermark : Option String) (all : List SweepRow) : List SweepRow :=
  (all.filter fun m => watermark.all fun w => decide (w < m.writtenAt)).insertionSort
    fun a b => a.writtenAt ≤ b.writtenAt

def Sweep.start (watermark : Option String) (all : List SweepRow) : Sweep where
  all := all
  candidates := candidatesOf watermark all
  todo := candidatesOf watermark all

/-- `if (firstUnsweptW === null) firstUnsweptW = …`. -/
def Sweep.unswept (s : Sweep) (m : SweepRow) : Option String :=
  s.firstUnsweptW.or (some m.writtenAt)

/-- The largest timestamp of a candidate strictly below the first unswept one. -/
def Sweep.sweptThrough (s : Sweep) : Option String :=
  (s.candidates.takeWhile fun m => s.firstUnsweptW.all fun w => decide (m.writtenAt < w)).getLast?.map
    SweepRow.writtenAt

/-- The supersede of a pair. -/
def Sweep.supersedeInput (userId : String) (scope : MemoryScope) (candidate other : SweepRow) :
    SupersedeInput where
  previousId := (candidate.older other).id
  replacement :=
    { id := (candidate.newer other).id
      text := (candidate.newer other).l2
      userId := userId
      embedding := (candidate.newer other).vector.getD []
      metadata := some (.ofList [("inactive_reason", .str "consolidation-dedup")])
      scope := scope
      writeSource := "session_summary" }
  provenance := .llmGenerated
  isInternalCaller := true
  inactiveReason := "superseded"

/-- What becomes of a transaction: its caller sees it done, it is rolled back, or it commits
although its caller sees an error. -/
inductive CallFate where
  | done | rolledBack | inDoubt
  deriving DecidableEq

/-- A call to `supersedeMemory`: its clock, the id at which its cycle guard's query throws if one
does, and the fate of its transaction. -/
structure SweepCall where
  now : Int
  failed : Option String := none
  fate : CallFate := .done
  deriving DecidableEq

/-- The rows after a call, and whether it returned. -/
def SweepCall.run (host : Host) (call : SweepCall) (input : SupersedeInput) (rows : Rows) :
    Rows × Bool :=
  match supersedeMemory host call.now call.failed input rows with
  | .error _ => (rows, false)
  | .ok rows' =>
      match call.fate with
      | .done => (rows', true)
      | .rolledBack => (rows, false)
      | .inDoubt => (rows', false)

inductive DedupPhase where
  | idle
  | snapshot (all : List SweepRow)
  | sweeping (s : Sweep)
  deriving DecidableEq

structure DedupState where
  rows : Rows
  watermark : Option String
  phase : DedupPhase
  deriving DecidableEq

structure DedupEnv where
  host : Host
  userId : String
  scope : MemoryScope
  limit : Nat

/-- What a sweep does next.  `compare` is used up on a pair that needs no call, too. -/
inductive DedupEvent where
  | snapshot (now : Int) (embed : SweepMemory → Option (List ℚ))
  | readWatermark
  | begin
  | exhausted
  | compare (call : SweepCall)
  | finish
  | advance
  | abandon

namespace DedupState
variable (env : DedupEnv)

/-- One comparison of the inner loop; the candidate's loop ends when the candidate is gone. -/
def compare (rows : Rows) (s : Sweep) (candidate other : SweepRow) (others : List SweepRow)
    (failed : Bool) (call : SweepCall) : Rows × Sweep :=
  if other.id = candidate.id ∨ other.id ∈ s.deduped then
    (rows, { s with current := some (candidate, others, failed) })
  else if candidate.duplicates env.host other = false then
    (rows, { s with current := some (candidate, others, failed) })
  else
    let input := Sweep.supersedeInput env.userId env.scope candidate other
    let (rows', ok) := call.run env.host input rows
    let deduped := if ok then s.deduped ++ [(candidate.older other).id] else s.deduped
    let rest := if candidate.id ∈ deduped then [] else others
    (rows', { s with deduped := deduped, current := some (candidate, rest, failed || !ok) })

def step (s : DedupState) : DedupEvent → Option DedupState
  | .snapshot now embed =>
      match s.phase with
      | .idle =>
          let all := (fetchAllActiveMemoriesForScope now env.userId env.scope env.limit s.rows).map
            (resolveVector embed)
          some { s with phase := .snapshot all }
      | _ => none
  | .readWatermark =>
      match s.phase with
      | .snapshot all =>
          some { s with phase := .sweeping (Sweep.start (s.watermark.filter (· ≠ "")) all) }
      | _ => none
  | .begin =>
      match s.phase with
      | .sweeping sweep =>
          match sweep.current, sweep.todo with
          | none, candidate :: rest =>
              let current :=
                if candidate.vector.isSome ∧ candidate.id ∉ sweep.deduped then
                  some (candidate, sweep.all, false)
                else none
              some { s with phase := .sweeping { sweep with todo := rest, current := current } }
          | _, _ => none
      | _ => none
  | .exhausted =>
      match s.phase with
      | .sweeping sweep =>
          match sweep.current, sweep.todo with
          | none, candidate :: _ =>
              some { s with
                phase := .sweeping
                  { sweep with todo := [], firstUnsweptW := sweep.unswept candidate } }
          | _, _ => none
      | _ => none
  | .compare call =>
      match s.phase with
      | .sweeping sweep =>
          match sweep.current with
          | some (candidate, other :: others, failed) =>
              let (rows, sweep) := compare env s.rows sweep candidate other others failed call
              some { s with rows := rows, phase := .sweeping sweep }
          | _ => none
      | _ => none
  | .finish =>
      match s.phase with
      | .sweeping sweep =>
          match sweep.current with
          | some (candidate, [], failed) =>
              some { s with
                phase := .sweeping
                  { sweep with
                    current := none
                    firstUnsweptW :=
                      if failed then sweep.unswept candidate else sweep.firstUnsweptW } }
          | _ => none
      | _ => none
  | .advance =>
      match s.phase with
      | .sweeping sweep =>
          match sweep.current, sweep.todo with
          | none, [] =>
              some { s with watermark := sweep.sweptThrough.or s.watermark, phase := .idle }
          | _, _ => none
      | _ => none
  | .abandon => some { s with phase := .idle }

end DedupState

end Runir
