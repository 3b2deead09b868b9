import Mathlib.Data.List.Basic
import Mathlib.Data.Rat.Defs

/-!
# Pi — Projection

The one slot of `plugins/runir-pi/extensions/runir-memory.ts` that holds a compaction projection
until the next turn: `fetchAndStageProjection`, `takeStagedProjection` and the four handlers that
touch the slot or its epoch.

A fetch runs up to its request when it is started, and from the answer on when it settles; in between
any handler may run.  The world also remembers what has happened: which fetches were started and at
which step, for which compaction, and which of them delivered content.  Traces, bands, the capture
before a compaction and the per-turn recall are left out.
-/

namespace Runir.Pi

inductive OmProjectionKind where
  | pre | postValidation
  deriving DecidableEq

/-- A projection fetch, from its start on.  The code keeps the first four; a fetch is known by the
step it was started at, and belongs to a compaction. -/
structure Fetch where
  kind : OmProjectionKind
  sessionId : String
  path : String
  epochAtLaunch : Nat
  startedAt : Nat
  compaction : Nat
  deriving DecidableEq

/-- A staged projection, with the fetch that staged it. -/
structure StagedProjection where
  kind : OmProjectionKind
  content : String
  count : Option ℚ
  sessionId : String
  path : String
  fetchedAt : Int
  expiresAt : Int
  fetch : Fetch
  deriving DecidableEq

structure Delivery where
  fetch : Fetch
  content : String
  deriving DecidableEq

structure World where
  stagedProjection : Option StagedProjection := none
  omEpoch : Nat := 0
  /-- The fetches that wait for their answer. -/
  inFlight : List Fetch := []
  steps : Nat := 0
  lastTurn : Nat := 0
  lastSession : Nat := 0
  /-- The compactions so far, and whether the last has not been followed by its `session_compact`. -/
  compactions : Nat := 0
  compacting : Bool := false
  started : List Fetch := []
  delivered : List Delivery := []
  injected : List Fetch := []
  deriving DecidableEq

/-- How a fetch ends: with content, with an honest empty, or with an error. -/
inductive Outcome where
  | content (content : String) (count : Option ℚ)
  | empty
  | failed
  deriving DecidableEq

inductive Event where
  | sessionStart
  | beforeAgentStart (sessionId path : String) (now : Int)
  | sessionBeforeCompact (sessionId path : String) (hasKey : Bool)
  | sessionCompact (sessionId path : String) (hasKey : Bool)
  | settle (startedAt : Nat) (outcome : Outcome) (now : Int)
  deriving DecidableEq

structure Config where
  omDisabled : Bool := false
  /-- `OM_STAGED_TTL_MS`. -/
  stagedTtlMs : Nat := 900000

variable (config : Config)

/-- `fetchAndStageProjection`, up to its request. -/
def startFetch (w : World) (kind : OmProjectionKind) (sessionId path : String) : World :=
  let fetch : Fetch := ⟨kind, sessionId, path, w.omEpoch, w.steps, w.compactions⟩
  { w with
    inFlight := w.inFlight ++ [fetch]
    started := w.started ++ [fetch] }

/-- `fetchAndStageProjection`, from an answer with content on. -/
def stage (w : World) (fetch : Fetch) (content : String) (count : Option ℚ) (now : Int) : World :=
  if w.omEpoch ≠ fetch.epochAtLaunch then w
  else if fetch.kind = .pre ∧ w.stagedProjection.map (·.kind) = some .postValidation then w
  else
    { w with
      stagedProjection := some
        { kind := fetch.kind
          content := content
          count := count
          sessionId := fetch.sessionId
          path := fetch.path
          fetchedAt := now
          expiresAt := now + config.stagedTtlMs
          fetch := fetch } }

/-- What `takeStagedProjection` injects. -/
def toInject (w : World) (sessionId path : String) (now : Int) : Option StagedProjection :=
  w.stagedProjection.filter fun staged =>
    !(staged.expiresAt < now) && staged.sessionId = sessionId && staged.path = path

/-- `takeStagedProjection`: the slot is emptied, and the epoch goes on. -/
def takeStagedProjection (w : World) (sessionId path : String) (now : Int) :
    Option StagedProjection × World :=
  (toInject w sessionId path now,
    { w with omEpoch := w.omEpoch + 1, stagedProjection := none })

def step (w : World) (event : Event) : Option World :=
  let w := { w with steps := w.steps + 1 }
  match event with
  | .sessionStart =>
      some { w with stagedProjection := none, omEpoch := w.omEpoch + 1, lastSession := w.steps }
  | .beforeAgentStart sessionId path now =>
      let w := { w with lastTurn := w.steps }
      if config.omDisabled then some w
      else
        let (staged, w) := takeStagedProjection w sessionId path now
        some { w with injected := w.injected ++ (staged.map (·.fetch)).toList }
  | .sessionBeforeCompact sessionId path hasKey =>
      let w := { w with compactions := w.compactions + 1, compacting := true }
      if config.omDisabled || !hasKey then some w else some (startFetch w .pre sessionId path)
  | .sessionCompact sessionId path hasKey =>
      let w :=
        if w.compacting then { w with compacting := false }
        else { w with compactions := w.compactions + 1 }
      if config.omDisabled || !hasKey then some w
      else some (startFetch w .postValidation sessionId path)
  | .settle startedAt outcome now =>
      match w.inFlight.find? fun fetch => fetch.startedAt = startedAt with
      | none => none
      | some fetch =>
          let w := { w with inFlight := w.inFlight.filter fun other => other.startedAt ≠ startedAt }
          match outcome with
          | .content content count =>
              let w := { w with delivered := w.delivered ++ [⟨fetch, content⟩] }
              some (stage config w fetch content count now)
          | .empty => some w
          | .failed => some w

end Runir.Pi
