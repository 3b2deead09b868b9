import Runir.Lifecycle.Decay
import Runir.Lifecycle.StalenessPass

/-!
# Lifecycle — Consolidation

`runConsolidationForScope` of `src/lifecycle/semion/consolidation.ts`: one run, on the memory table,
the watermark and the staleness backlog.

* `ConsolidationPhase`: where a run is, with what it has read so far.
* `ConsolidationState.step`: the next awaited call, which is answered, fails, or takes effect
  although its answer is lost.

The sweep is the one of `DedupState.step`, a staleness pass is `runStalenessCoreNoLock`, and the
updates of decay and promotion are those of `decayWrites` and `promotionWrites`, sent one by one.  Of
`promoteSemioteToNoema` the transaction on the memory table is here; what the call puts into it, and
the guards it builds from what it has read, are given.  The steps on entities, continuity, sessions
and gaps write other tables, catch their own errors and are left out.
-/

namespace Runir

/-! ### What a run is given -/

structure ConsolidationEnv where
  host : Host
  ex : Exponential
  userId : String
  scope : MemoryScope
  /-- `CONSOLIDATION_DEDUP_SNAPSHOT_LIMIT`. -/
  snapshotLimit : Nat := 100000
  /-- `CONSOLIDATION_STALENESS_RECENT_LIMIT`. -/
  recentLimit : Nat := 25

def ConsolidationEnv.dedup (env : ConsolidationEnv) : DedupEnv where
  host := env.host
  userId := env.userId
  scope := env.scope
  limit := env.snapshotLimit

inductive BacklogStatus where
  | pending | replayed | failed
  deriving DecidableEq

/-- A row of `staleness_backlog`. -/
structure BacklogEntry where
  userId : String
  scope : String
  facts : List StalenessFact
  sessionId : Option String
  status : BacklogStatus
  deriving DecidableEq

abbrev Backlog := OrdMap String BacklogEntry

def pendingEntries (env : ConsolidationEnv) (backlog : Backlog) : List (String × BacklogEntry) :=
  backlog.entries.filter fun e =>
    e.2.userId = env.userId && e.2.scope = env.scope.text && e.2.status = .pending

/-- `UPDATE $id SET status = …`. -/
def setStatus (id : String) (status : BacklogStatus) (backlog : Backlog) : Backlog :=
  match backlog.get? id with
  | none => backlog
  | some entry => backlog.set id { entry with status := status }

/-! ### Promotion to a noema -/

/-- The transaction of `promoteSemioteToNoema`, as far as it touches the memory table. -/
structure NoemaPromotion where
  now : Int
  /-- The rows that support the claim, with the guards on each besides its lineage. -/
  supports : List (String × (MemoryRow → Bool))
  /-- The guards on the source besides its lineage. -/
  guards : MemoryRow → Bool
  noemaRecordId : String
  supportSemioteIds : List String
  claimKey : String
  revisionHash : String
  status : String
  stableClaim : Value

namespace NoemaPromotion

/-- The `SET` list on the source row. -/
def setPromoted (p : NoemaPromotion) (row : MemoryRow) : MemoryRow :=
  { row with
    payload := row.payload
      |> setProp "promotedToNoemaId" (some (.str p.noemaRecordId))
      |> setProp "noemaSupportSemioteIds" (some (.arr (.ofList (p.supportSemioteIds.map .str))))
      |> setProp "noemaClaimKey" (some (.str p.claimKey))
      |> setProp "noemaRevisionHash" (some (.str p.revisionHash))
      |> setProp "noemaStatus" (some (.str p.status))
      |> setProp "noemaStableClaim" (some p.stableClaim)
    updatedAt := p.now }

/-- `WHERE processing_lineage = NONE AND …`. -/
def matchesRow (guards : MemoryRow → Bool) (row : MemoryRow) : Bool :=
  row.processingLineage.isNone && guards row

/-- The rows after the transaction, unless a compare-and-set of it finds no row.  A support is
written the `updated_at` it has. -/
def run (p : NoemaPromotion) (sourceId : String) (rows : Rows) : Option Rows :=
  if p.supports.all fun support => (rows.get? support.1).any (matchesRow support.2) then
    match rows.get? sourceId with
    | none => none
    | some row =>
        if matchesRow p.guards row then some (rows.set sourceId (p.setPromoted row)) else none
  else none

end NoemaPromotion

/-! ### A run -/

inductive ConsolidationStatus where
  | completed | skippedLock | failed
  deriving DecidableEq

structure ConsolidationReport where
  deduped : Nat := 0
  archived : Nat := 0
  backlogReplayed : Nat := 0
  decayPruned : Nat := 0
  promoted : Nat := 0
  deriving DecidableEq

inductive ConsolidationPhase where
  | start
  | sweep (phase : DedupPhase)
  | archive (swept : Sweep)
  | readBacklog (swept : Sweep)
  | replay (swept : Sweep) (todo : List (String × BacklogEntry))
  | readDecay
  | decay (pruned : Nat) (todo : List RowWrite)
  | promotion (pruned promoted : Nat) (todo : List RowWrite)
  | noema (todo : List String)
  | ended (status : ConsolidationStatus)
  deriving DecidableEq

structure ConsolidationState where
  rows : Rows
  watermark : Option String := none
  backlog : Backlog := .empty
  phase : ConsolidationPhase := .start
  report : ConsolidationReport := {}
  deriving DecidableEq

/-- What a run awaits next.  `fail` is a call that fails where nothing else is said of it. -/
inductive ConsolidationEvent where
  | acquire (granted : Bool)
  | sweep (e : DedupEvent)
  | archive (clientNow now : Int) (fate : TransactionFate)
  | readBacklog
  | replay (world : StalenessWorld) (marked markedFailed : TransactionFate)
  | staleness (world : StalenessWorld)
  | readDecay (now : Int)
  | write (fate : TransactionFate)
  | readPromotion (now : Int)
  | readPromotable
  | promote (promotion : Option NoemaPromotion) (fate : TransactionFate)
  | finish
  | fail

/-- The swept rows the staleness pass is given as new facts: the newest, of the swept prefix. -/
def recentFacts (env : ConsolidationEnv) (swept : Sweep) : List StalenessFact :=
  match swept.sweptThrough with
  | none => []
  | some boundary =>
      if env.scope = .global then []
      else
        let recent := swept.candidates.filter fun m =>
          m.id ∉ swept.deduped && Text.trim m.l2 ≠ "" && decide (m.writtenAt ≤ boundary)
        (recent.drop (recent.length - env.recentLimit)).map fun m => ⟨m.l2, m.id⟩

/-- The memories `promoteSemioteToNoema` is called on. -/
def promotableIds (env : ConsolidationEnv) (rows : Rows) : List String :=
  (rows.entries.filter fun e => sweepable env.userId env.scope e.2).map Prod.fst

namespace ConsolidationState

def enter (phase : ConsolidationPhase) (s : ConsolidationState) : ConsolidationState :=
  { s with phase := phase }

def fail (s : ConsolidationState) : ConsolidationState := s.enter (.ended .failed)

def counted (f : ConsolidationReport → ConsolidationReport) (s : ConsolidationState) :
    ConsolidationState :=
  { s with report := f s.report }

/-- A call that has the effect unless it fails, and ends the run unless it is answered. -/
def call (fate : TransactionFate) (effect next : ConsolidationState → ConsolidationState)
    (s : ConsolidationState) : ConsolidationState :=
  match fate with
  | .answered => next (effect s)
  | .failed => s.fail
  | .lost => (effect s).fail

def dedupedCount : DedupPhase → Nat
  | .sweeping s => s.deduped.length
  | _ => 0

variable (env : ConsolidationEnv)

/-- A step of the sweep; the last one hands its sweep on. -/
def sweepStep (phase : DedupPhase) (e : DedupEvent) (s : ConsolidationState) :
    Option ConsolidationState :=
  (DedupState.step env.dedup ⟨s.rows, s.watermark, phase⟩ e).map fun d =>
    let s := { s with rows := d.rows, watermark := d.watermark }
    let s := s.counted fun r =>
      { r with deduped := r.deduped + (dedupedCount d.phase - dedupedCount phase) }
    match e, phase with
    | .advance, .sweeping swept => s.enter (.archive swept)
    | .abandon, _ => s.fail
    | _, _ => s.enter (.sweep d.phase)

/-- The soft archive, of what has been inactive for ninety days. -/
def archive (clientNow now : Int) (fate : TransactionFate) (next : ConsolidationPhase)
    (s : ConsolidationState) : ConsolidationState :=
  let (rows, archived) := softArchiveInactiveOlderThan env.host now env.userId env.scope
    (clientNow - 90 * 24 * 60 * 60 * 1000) s.rows
  s.call fate (fun s => { s with rows := rows })
    fun s => (s.counted fun r => { r with archived := archived }).enter next

def mark (id : String) (status : BacklogStatus) (s : ConsolidationState) : ConsolidationState :=
  { s with backlog := setStatus id status s.backlog }

/-- A staleness pass on the facts; whether it has thrown. -/
def staleness (world : StalenessWorld) (sessionId : Option String) (facts : List StalenessFact)
    (s : ConsolidationState) : ConsolidationState × Bool :=
  let result := runStalenessCoreNoLock env.host world
    { userId := env.userId, scope := env.scope, sessionId := sessionId, facts := facts } s.rows
  ({ s with rows := result.1.rows }, result.2.isNone)

/-- One entry of the backlog: the pass, and the mark on the entry. -/
def replayEntry (world : StalenessWorld) (marked markedFailed : TransactionFate) (id : String)
    (entry : BacklogEntry) (next : ConsolidationPhase) (s : ConsolidationState) :
    ConsolidationState :=
  let (s, threw) := s.staleness env world entry.sessionId entry.facts
  let caught := fun s => call markedFailed (mark id .failed) (enter next) s
  if threw then caught s
  else
    match marked with
    | .answered =>
        ((s.mark id .replayed).counted fun r =>
          { r with backlogReplayed := r.backlogReplayed + 1 }).enter next
    | .failed => caught s
    | .lost => caught (s.mark id .replayed)

/-- The pass on the memories that have just been swept; its errors are caught. -/
def storedStaleness (world : StalenessWorld) (swept : Sweep) (s : ConsolidationState) :
    ConsolidationState :=
  match recentFacts env swept with
  | [] => s
  | facts => (s.staleness env world none facts).1

/-- An `UPDATE` of decay or promotion. -/
def write (w : RowWrite) (fate : TransactionFate) (next : ConsolidationPhase)
    (s : ConsolidationState) : ConsolidationState :=
  s.call fate (fun s => { s with rows := w.run s.rows }) (enter next)

/-- `promoteSemioteToNoema` on one memory: nothing where the call returns early. -/
def promote (id : String) (promotion : Option NoemaPromotion) (fate : TransactionFate)
    (next : ConsolidationPhase) (s : ConsolidationState) : ConsolidationState :=
  match promotion with
  | none => s.enter next
  | some p =>
      match p.run id s.rows with
      | none => s.fail
      | some rows => s.call fate (fun s => { s with rows := rows }) (enter next)

def step (s : ConsolidationState) : ConsolidationEvent → Option ConsolidationState
  | .acquire granted =>
      match s.phase with
      | .start => some (s.enter (if granted then .sweep .idle else .ended .skippedLock))
      | _ => none
  | .sweep e =>
      match s.phase with
      | .sweep phase => s.sweepStep env phase e
      | _ => none
  | .archive clientNow now fate =>
      match s.phase with
      | .archive swept => some (s.archive env clientNow now fate (.readBacklog swept))
      | _ => none
  | .readBacklog =>
      match s.phase with
      | .readBacklog swept => some (s.enter (.replay swept (pendingEntries env s.backlog)))
      | _ => none
  | .replay world marked markedFailed =>
      match s.phase with
      | .replay swept (e :: todo) =>
          some (s.replayEntry env world marked markedFailed e.1 e.2 (.replay swept todo))
      | _ => none
  | .staleness world =>
      match s.phase with
      | .replay swept [] => some ((s.storedStaleness env world swept).enter .readDecay)
      | _ => none
  | .readDecay now =>
      match s.phase with
      | .readDecay =>
          let pruned := (toPrune env.host env.ex now (passRows env.userId env.scope s.rows)).length
          some (s.enter (.decay pruned (decayWrites env.host env.ex now env.userId env.scope s.rows)))
      | _ => none
  | .write fate =>
      match s.phase with
      | .decay pruned (w :: todo) => some (s.write w fate (.decay pruned todo))
      | .promotion pruned promoted (w :: todo) =>
          some (s.write w fate (.promotion pruned promoted todo))
      | _ => none
  | .readPromotion now =>
      match s.phase with
      | .decay pruned [] =>
          let writes := promotionWrites env.host now env.userId env.scope s.rows
          some (s.enter (.promotion pruned writes.length writes))
      | _ => none
  | .readPromotable =>
      match s.phase with
      | .promotion pruned promoted [] =>
          some ((s.counted fun r => { r with decayPruned := pruned, promoted := promoted }).enter
            (.noema (promotableIds env s.rows)))
      | _ => none
  | .promote promotion fate =>
      match s.phase with
      | .noema (id :: todo) => some (s.promote id promotion fate (.noema todo))
      | _ => none
  | .finish =>
      match s.phase with
      | .noema [] => some (s.enter (.ended .completed))
      | _ => none
  | .fail =>
      match s.phase with
      | .start | .ended _ => none
      | _ => some s.fail

end ConsolidationState

end Runir
