import Runir.Capture.SpoolReplay

/-!
# Capture — The spool at work

Drains, captures, appends and forgets on one spool, in any order.  A call's turn in the sequence
is one step; a drain takes one for each turn of its window it checks, reads and writes, and a
forget one to choose its ids, one to forget them and one to come back.

* `Drain`, `ForgetPhase`: how far a drain, or a forget, has come.
* `SpoolWorld.step`: one step of one call.  `Took`: what a step can do, once for all invariants.
* `SpoolEvent`: what is put and what is written, as it happens.
-/

namespace Runir

/-! ### Calls on their way -/

inductive DrainPhase where
  | idle
  | next
  | reading (id : String) (entry : Pending)
  | writing (id : String) (entry : Pending) (turn : SourceTurn)
  | marking
  | marked
  | released
  deriving DecidableEq

namespace DrainPhase

/-- Between its start and its release. -/
def live : DrainPhase → Bool
  | .idle | .released => false
  | _ => true

/-- The id a drain has been let through to, until it comes back from the write callback. -/
def on? : DrainPhase → Option String
  | .reading id _ | .writing id _ _ => some id
  | _ => none

theorem live_of_on {id : String} {phase : DrainPhase} (h : phase.on? = some id) :
    phase.live = true := by
  cases phase with
  | reading => rfl
  | writing => rfl
  | idle | next | marking | marked | released => cases h

end DrainPhase

/-- A drain: the window it has taken, what is left of it, and what it has come to. -/
structure Drain where
  phase : DrainPhase := .idle
  maxTurns : Nat := 1000
  window : List (String × Pending) := []
  rest : List (String × Pending) := []
  processed : Nat := 0
  bytes : Nat := 0
  done : List String := []
  registered : List String := []

/-- 64 MiB. -/
def drainByteLimit : Nat := 64 * 1024 * 1024

namespace Drain

/-- Its loop stops before a turn that is one too many, or too large. -/
def stopsBefore (entry : Pending) (d : Drain) : Bool :=
  min d.maxTurns 1000 ≤ d.processed || drainByteLimit < d.bytes + entry.bytes

end Drain

/-- Whom a forget is about. -/
inductive ForgetTarget where
  | ids (chosen : List String)
  | session (userId sessionId : String)
  | user (userId : String)
  deriving DecidableEq

/-- The entries of a session, or of a user. -/
def ForgetTarget.covers (userId sessionId : String) : ForgetTarget → Bool
  | .ids _ => false
  | .session u s => userId = u && sessionId = s
  | .user u => userId = u

/-- The ids of `forget`, `forgetSession` and `forgetUser`: those pending, then those extracted. -/
def ForgetTarget.choose (index : SpoolIndex) : ForgetTarget → List String
  | .ids chosen => chosen
  | target => distinct
      (((index.pending.entries.filter fun e => target.covers e.2.userId e.2.sessionId).map (·.1)) ++
        (index.extracted.entries.filter fun e => target.covers e.2.userId e.2.sessionId).map (·.1))

inductive ForgetPhase where
  | idle
  | asked (ids : List String)
  | waiting (ids : List String) (drains : List Nat)
  | resolved (ids : List String)
  | rejected
  deriving DecidableEq

/-! ### The world -/

/-- A put that has become durable, with where it stands and where the line it replaces stands; and
a write callback that has succeeded, with the line it was called for. -/
inductive SpoolEvent where
  | put (turn : SourceTurn) (offset : Nat) (replaced : Option Nat)
  | wrote (turn : SourceTurn) (offset : Nat)
  deriving DecidableEq

/-- The spool, the calls on their way, and what has happened. -/
structure SpoolWorld where
  spool : Spool
  inFlight : OrdMap String Nat := .empty
  drains : Nat → Drain := fun _ => {}
  forgets : Nat → ForgetPhase := fun _ => .idle
  accepted : List SourceTurn := []
  events : List SpoolEvent := []

inductive SpoolStep where
  | append (requests : List (List SourceTurn)) (queuedAt : String) (outcome : AppendOutcome)
  | capture (turns completed : List SourceTurn) (queuedAt : String) (outcome : AppendOutcome)
  | extract (turns : List SourceTurn) (outcome : AppendOutcome)
  | start (d : Nat) (maxTurns : Nat)
  | next (d : Nat)
  | read (d : Nat) (performed : Bool)
  | write (d : Nat) (succeeds : Bool)
  | mark (d : Nat) (outcome : AppendOutcome)
  | release (d : Nat)
  | ask (f : Nat) (target : ForgetTarget)
  | forget (f : Nat) (outcome : AppendOutcome)
  | resolve (f : Nat)

/-- An append would go through. -/
def Spool.appends (outcome : AppendOutcome) (s : Spool) : Bool :=
  !s.journal.rollbackFailed && outcome = .synced

section
variable (fmt : LineFormat SpoolEntry UInt8)

/-- The puts of a call, and where they stand, where its append goes through. -/
def putsAt (outcome : AppendOutcome) (queuedAt : String) (puts : List SourceTurn) (s : Spool) :
    List (SourceTurn × (Nat × Nat)) :=
  if s.appends outcome then
    puts.zip (fmt.positions s.journal.file.length (putLines queuedAt puts))
  else []

def putEvents (outcome : AppendOutcome) (queuedAt : String) (puts : List SourceTurn) (s : Spool) :
    List SpoolEvent :=
  (putsAt fmt outcome queuedAt puts s).map fun put =>
    .put put.1 put.2.1 ((s.index.pending.get? put.1.id).map (·.offset))

namespace SpoolWorld

def setDrain (i : Nat) (d : Drain) (w : SpoolWorld) : SpoolWorld :=
  { w with drains := Function.update w.drains i d }

def setForget (i : Nat) (phase : ForgetPhase) (w : SpoolWorld) : SpoolWorld :=
  { w with forgets := Function.update w.forgets i phase }

theorem drains_setDrain (i : Nat) (d : Drain) (w : SpoolWorld) (j : Nat) :
    (w.setDrain i d).drains j = if j = i then d else w.drains j := Function.update_apply ..

theorem forgets_setForget (f : Nat) (phase : ForgetPhase) (w : SpoolWorld) (g : Nat) :
    (w.setForget f phase).forgets g = if g = f then phase else w.forgets g :=
  Function.update_apply ..

def appendStep (requests : List (List SourceTurn)) (queuedAt : String) (outcome : AppendOutcome)
    (w : SpoolWorld) : SpoolWorld :=
  let puts := (w.spool.index.stageAppends requests.flatten .empty).2.values
  { w with
    spool := (flushAppends fmt requests queuedAt outcome w.spool).1
    accepted := w.accepted ++ (flushAppends fmt requests queuedAt outcome w.spool).2
    events := w.events ++ putEvents fmt outcome queuedAt puts w.spool }

def captureStep (turns completed : List SourceTurn) (queuedAt : String) (outcome : AppendOutcome)
    (w : SpoolWorld) : SpoolWorld :=
  { w with
    spool := (commitCapture fmt turns completed queuedAt outcome w.spool).1
    events := w.events ++
      putEvents fmt outcome queuedAt (w.spool.index.capturePuts turns) w.spool }

def startStep (i maxTurns : Nat) (w : SpoolWorld) : SpoolWorld :=
  w.setDrain i
    { phase := .next, maxTurns := maxTurns, window := w.spool.index.pending.entries,
      rest := w.spool.index.pending.entries }

/-- The head of the loop: the limits, then whether the id may still be written. -/
def nextStep (i : Nat) (d : Drain) (w : SpoolWorld) : SpoolWorld :=
  match d.rest with
  | [] => w.setDrain i { d with phase := .marking }
  | (id, entry) :: rest =>
      if d.stopsBefore entry then w.setDrain i { d with phase := .marking }
      else
        let d := { d with rest := rest, processed := d.processed + 1, bytes := d.bytes + entry.bytes }
        if (w.spool.index.pending.get? id).isSome && !w.spool.index.isForgotten id then
          { w with inFlight := w.inFlight.set id i }.setDrain i
            { d with phase := .reading id entry, registered := d.registered ++ [id] }
        else w.setDrain i { d with phase := .next }

def readStep (i : Nat) (d : Drain) (id : String) (entry : Pending) (performed : Bool)
    (w : SpoolWorld) : SpoolWorld :=
  if performed then
    match readTurn fmt w.spool.journal.file entry with
    | some turn => w.setDrain i { d with phase := .writing id entry turn }
    | none => w.setDrain i { d with phase := .next }
  else w.setDrain i { d with phase := .next }

def writeStep (i : Nat) (d : Drain) (id : String) (entry : Pending) (turn : SourceTurn)
    (succeeds : Bool) (w : SpoolWorld) : SpoolWorld :=
  if succeeds then
    { w with events := w.events ++ [SpoolEvent.wrote turn entry.offset] }.setDrain i
      { d with phase := .next, done := d.done ++ [id] }
  else w.setDrain i { d with phase := .next }

def markStep (i : Nat) (d : Drain) (outcome : AppendOutcome) (w : SpoolWorld) : SpoolWorld :=
  { w with spool := (markDone fmt d.done outcome w.spool).1 }.setDrain i { d with phase := .marked }

def releaseStep (i : Nat) (d : Drain) (w : SpoolWorld) : SpoolWorld :=
  { w with inFlight := d.registered.foldl (fun m id => m.erase id) w.inFlight }.setDrain i
    { d with phase := .released }

/-- The ids are forgotten, and the writes in flight for them are waited for. -/
def forgetStep (f : Nat) (ids : List String) (outcome : AppendOutcome) (w : SpoolWorld) :
    SpoolWorld :=
  match forgetIds fmt ids outcome w.spool with
  | (spool, true) =>
      { w with spool := spool }.setForget f (.waiting ids (ids.filterMap w.inFlight.get?))
  | (spool, false) => { w with spool := spool }.setForget f .rejected

def step (w : SpoolWorld) : SpoolStep → Option SpoolWorld
  | .append requests queuedAt outcome => some (w.appendStep fmt requests queuedAt outcome)
  | .capture turns completed queuedAt outcome =>
      some (w.captureStep fmt turns completed queuedAt outcome)
  | .extract turns outcome =>
      some { w with spool := (markExtracted fmt turns outcome w.spool).1 }
  | .start i maxTurns =>
      if (w.drains i).phase = .idle then some (w.startStep i maxTurns) else none
  | .next i =>
      if (w.drains i).phase = .next then some (w.nextStep i (w.drains i)) else none
  | .read i performed =>
      match (w.drains i).phase with
      | .reading id entry => some (w.readStep fmt i (w.drains i) id entry performed)
      | _ => none
  | .write i succeeds =>
      match (w.drains i).phase with
      | .writing id entry turn => some (w.writeStep i (w.drains i) id entry turn succeeds)
      | _ => none
  | .mark i outcome =>
      if (w.drains i).phase = .marking then some (w.markStep fmt i (w.drains i) outcome) else none
  | .release i =>
      if (w.drains i).phase = .marked then some (w.releaseStep i (w.drains i)) else none
  | .ask f target =>
      match w.forgets f with
      | .idle => some (w.setForget f (.asked (target.choose w.spool.index)))
      | _ => none
  | .forget f outcome =>
      match w.forgets f with
      | .asked ids => some (w.forgetStep fmt f ids outcome)
      | _ => none
  | .resolve f =>
      match w.forgets f with
      | .waiting ids drains =>
          if ∀ d ∈ drains, (w.drains d).phase = .released then some (w.setForget f (.resolved ids))
          else none
      | _ => none

/-- What a step can do. -/
inductive Took (w : SpoolWorld) : SpoolStep → SpoolWorld → Prop where
  | append (requests : List (List SourceTurn)) (queuedAt : String) (outcome : AppendOutcome) :
      Took w (.append requests queuedAt outcome) (w.appendStep fmt requests queuedAt outcome)
  | capture (turns completed : List SourceTurn) (queuedAt : String) (outcome : AppendOutcome) :
      Took w (.capture turns completed queuedAt outcome)
        (w.captureStep fmt turns completed queuedAt outcome)
  | extract (turns : List SourceTurn) (outcome : AppendOutcome) :
      Took w (.extract turns outcome)
        { w with spool := (markExtracted fmt turns outcome w.spool).1 }
  | start {i : Nat} (maxTurns : Nat) (hphase : (w.drains i).phase = .idle) :
      Took w (.start i maxTurns) (w.startStep i maxTurns)
  | stop {i : Nat} (hphase : (w.drains i).phase = .next) :
      Took w (.next i) (w.setDrain i { w.drains i with phase := .marking })
  | skip {i : Nat} {id : String} {entry : Pending} {rest : List (String × Pending)}
      (hphase : (w.drains i).phase = .next) (hrest : (w.drains i).rest = (id, entry) :: rest) :
      Took w (.next i) (w.setDrain i
        { w.drains i with
          phase := .next, rest := rest, processed := (w.drains i).processed + 1,
          bytes := (w.drains i).bytes + entry.bytes })
  | take {i : Nat} {id : String} {entry : Pending} {rest : List (String × Pending)}
      (hphase : (w.drains i).phase = .next) (hrest : (w.drains i).rest = (id, entry) :: rest)
      (hpending : (w.spool.index.pending.get? id).isSome = true)
      (hforgotten : w.spool.index.isForgotten id = false) :
      Took w (.next i) ({ w with inFlight := w.inFlight.set id i }.setDrain i
        { w.drains i with
          phase := .reading id entry, rest := rest, processed := (w.drains i).processed + 1,
          bytes := (w.drains i).bytes + entry.bytes,
          registered := (w.drains i).registered ++ [id] })
  | unread {i : Nat} {id : String} {entry : Pending} (performed : Bool)
      (hphase : (w.drains i).phase = .reading id entry) :
      Took w (.read i performed) (w.setDrain i { w.drains i with phase := .next })
  | read {i : Nat} {id : String} {entry : Pending} {turn : SourceTurn} (performed : Bool)
      (hphase : (w.drains i).phase = .reading id entry)
      (hread : readTurn fmt w.spool.journal.file entry = some turn) :
      Took w (.read i performed) (w.setDrain i { w.drains i with phase := .writing id entry turn })
  | unwritten {i : Nat} {id : String} {entry : Pending} {turn : SourceTurn} (succeeds : Bool)
      (hphase : (w.drains i).phase = .writing id entry turn) :
      Took w (.write i succeeds) (w.setDrain i { w.drains i with phase := .next })
  | wrote {i : Nat} {id : String} {entry : Pending} {turn : SourceTurn} (succeeds : Bool)
      (hphase : (w.drains i).phase = .writing id entry turn) :
      Took w (.write i succeeds)
        ({ w with events := w.events ++ [SpoolEvent.wrote turn entry.offset] }.setDrain i
          { w.drains i with phase := .next, done := (w.drains i).done ++ [id] })
  | mark {i : Nat} (outcome : AppendOutcome) (hphase : (w.drains i).phase = .marking) :
      Took w (.mark i outcome) (w.markStep fmt i (w.drains i) outcome)
  | release {i : Nat} (hphase : (w.drains i).phase = .marked) :
      Took w (.release i) (w.releaseStep i (w.drains i))
  | ask {f : Nat} (target : ForgetTarget) (hphase : w.forgets f = .idle) :
      Took w (.ask f target) (w.setForget f (.asked (target.choose w.spool.index)))
  | forgot {f : Nat} {ids : List String} (outcome : AppendOutcome)
      (hphase : w.forgets f = .asked ids) (hforgot : (forgetIds fmt ids outcome w.spool).2 = true) :
      Took w (.forget f outcome)
        ({ w with spool := (forgetIds fmt ids outcome w.spool).1 }.setForget f
          (.waiting ids (ids.filterMap w.inFlight.get?)))
  | rejected {f : Nat} {ids : List String} (outcome : AppendOutcome)
      (hphase : w.forgets f = .asked ids) :
      Took w (.forget f outcome)
        ({ w with spool := (forgetIds fmt ids outcome w.spool).1 }.setForget f .rejected)
  | resolve {f : Nat} {ids : List String} {drains : List Nat}
      (hphase : w.forgets f = .waiting ids drains)
      (hreleased : ∀ d ∈ drains, (w.drains d).phase = .released) :
      Took w (.resolve f) (w.setForget f (.resolved ids))

variable {fmt} {w : SpoolWorld}

theorem took_next {i : Nat} (hphase : (w.drains i).phase = .next) :
    Took fmt w (.next i) (w.nextStep i (w.drains i)) := by
  unfold nextStep
  split
  · exact .stop hphase
  · next id entry rest hrest =>
      split
      · exact .stop hphase
      · split
        · next heligible =>
            rw [Bool.and_eq_true, Bool.not_eq_true'] at heligible
            exact .take hphase hrest heligible.1 heligible.2
        · exact .skip hphase hrest

theorem took_read {i : Nat} {id : String} {entry : Pending} {performed : Bool}
    (hphase : (w.drains i).phase = .reading id entry) :
    Took fmt w (.read i performed) (w.readStep fmt i (w.drains i) id entry performed) := by
  unfold readStep
  split
  · split
    · next turn hread => exact .read performed hphase hread
    · exact .unread performed hphase
  · exact .unread performed hphase

theorem took_write {i : Nat} {id : String} {entry : Pending} {turn : SourceTurn}
    {succeeds : Bool} (hphase : (w.drains i).phase = .writing id entry turn) :
    Took fmt w (.write i succeeds) (w.writeStep i (w.drains i) id entry turn succeeds) := by
  unfold writeStep
  split
  · exact .wrote succeeds hphase
  · exact .unwritten succeeds hphase

theorem took_forget {f : Nat} {ids : List String} {outcome : AppendOutcome}
    (hphase : w.forgets f = .asked ids) :
    Took fmt w (.forget f outcome) (w.forgetStep fmt f ids outcome) := by
  unfold forgetStep
  split
  · next spool heq =>
      obtain ⟨hspool, hforgot⟩ := Prod.mk.inj (heq : (_, _) = (_, _))
      rw [← hspool]
      exact .forgot outcome hphase hforgot
  · next spool heq =>
      obtain ⟨hspool, -⟩ := Prod.mk.inj (heq : (_, _) = (_, _))
      rw [← hspool]
      exact .rejected outcome hphase

/-- **A step does one of these.** -/
theorem took_of_step {w w' : SpoolWorld} {a : SpoolStep} (h : w.step fmt a = some w') :
    Took fmt w a w' := by
  cases a with
  | append requests queuedAt outcome =>
      obtain rfl := Option.some.inj h
      exact .append requests queuedAt outcome
  | capture turns completed queuedAt outcome =>
      obtain rfl := Option.some.inj h
      exact .capture turns completed queuedAt outcome
  | extract turns outcome =>
      obtain rfl := Option.some.inj h
      exact .extract turns outcome
  | start i maxTurns =>
      obtain ⟨hphase, heq⟩ := Option.ite_none_right_eq_some.mp h
      obtain rfl := Option.some.inj heq
      exact .start maxTurns hphase
  | next i =>
      obtain ⟨hphase, heq⟩ := Option.ite_none_right_eq_some.mp h
      obtain rfl := Option.some.inj heq
      exact took_next hphase
  | read i performed =>
      simp only [step] at h
      split at h
      · next id entry hphase =>
          obtain rfl := Option.some.inj h
          exact took_read hphase
      · cases h
  | write i succeeds =>
      simp only [step] at h
      split at h
      · next id entry turn hphase =>
          obtain rfl := Option.some.inj h
          exact took_write hphase
      · cases h
  | mark i outcome =>
      obtain ⟨hphase, heq⟩ := Option.ite_none_right_eq_some.mp h
      obtain rfl := Option.some.inj heq
      exact .mark outcome hphase
  | release i =>
      obtain ⟨hphase, heq⟩ := Option.ite_none_right_eq_some.mp h
      obtain rfl := Option.some.inj heq
      exact .release hphase
  | ask f target =>
      simp only [step] at h
      split at h
      · next hphase =>
          obtain rfl := Option.some.inj h
          exact .ask target hphase
      · cases h
  | forget f outcome =>
      simp only [step] at h
      split at h
      · next ids hphase =>
          obtain rfl := Option.some.inj h
          exact took_forget hphase
      · cases h
  | resolve f =>
      simp only [step] at h
      split at h
      · next ids drains hphase =>
          obtain ⟨hreleased, heq⟩ := Option.ite_none_right_eq_some.mp h
          obtain rfl := Option.some.inj heq
          exact .resolve hphase hreleased
      · cases h

variable (fmt)

end SpoolWorld

/-- A spool opened on a journal, before any call. -/
def openWorld (es : List SpoolEntry) : SpoolWorld where
  spool := openSpool fmt es
  events := (openSpool fmt es).index.pending.entries.filterMap fun e =>
    (readTurn fmt (openSpool fmt es).journal.file e.2).map fun turn => .put turn e.2.offset none

end

/-- A turn of one user, with a content and its hash. -/
def turnOfOne (content hmac : String) : SourceTurn where
  id := "x"
  userId := "ann"
  client := "cli"
  sessionId := "s"
  sessionEpoch := "e"
  turnKey := "k"
  role := .user
  content := content
  contentHmac := hmac
  keyFingerprint := "f"
  redactionVersion := 1
  sourceFormat := 1
  identityQuality := .native
  occurredAt := "t"
  scope := .user
  truncated := false
  originalBytes := 3

end Runir
