import Runir.Capture.SpoolMoves

/-!
# Capture — Forgetting is a barrier

What a forget that has resolved leaves behind, over every run in which drains are run one at a
time.

* `Barred`: a forgotten id is neither pending nor extracted; every call keeps this.
* `Barrier`: the invariant.  The map of the writes in flight names the drain that is on an id, so
  a forget waits for it; the ids it forgets let no other through.
* `Reached`: what is pending of a session or a user since a forget of it began.
* `forget_barrier`: once a forget has resolved, nothing of what it forgot is written, pending or
  extracted again, and nothing its session or user had put before is pending.
-/

namespace Runir

/-! ### What is forgotten stays out -/

namespace SpoolIndex

/-- A forgotten id is neither pending nor extracted. -/
def Barred (s : SpoolIndex) : Prop :=
  ∀ id, s.isForgotten id = true → s.pending.get? id = none ∧ s.extracted.get? id = none

theorem Barred.applyLine {s : SpoolIndex} (h : s.Barred) (offset length : Nat) (e : SpoolEntry) :
    (SpoolIndex.applyLine offset length e s).Barred := by
  cases e with
  | put turn queuedAt =>
      unfold SpoolIndex.applyLine
      simp only
      split
      · exact h
      · next hturn =>
          intro id hid
          have hne : id ≠ turn.id := by
            rintro rfl
            exact hturn hid
          obtain ⟨hpending, hextracted⟩ := h id hid
          exact ⟨(OrdMap.get?_set_ne _ _ hne).trans hpending, hextracted⟩
  | extracted id' marker =>
      unfold SpoolIndex.applyLine
      simp only
      split
      · exact h
      · next hturn =>
          intro id hid
          have hne : id ≠ id' := by
            rintro rfl
            exact hturn hid
          obtain ⟨hpending, hextracted⟩ := h id hid
          exact ⟨hpending, (OrdMap.get?_set_ne _ _ hne).trans hextracted⟩
  | done id' =>
      intro id hid
      obtain ⟨hpending, hextracted⟩ := h id hid
      refine ⟨?_, hextracted⟩
      change (s.pending.erase id').get? id = none
      rw [OrdMap.get?_erase, hpending, ite_self]
  | forget id' =>
      intro id hid
      change (s.pending.erase id').get? id = none ∧ (s.extracted.erase id').get? id = none
      rw [OrdMap.get?_erase, OrdMap.get?_erase]
      by_cases heq : id = id'
      · rw [if_pos heq, if_pos heq]
        exact ⟨rfl, rfl⟩
      · rw [if_neg heq, if_neg heq]
        refine h id ?_
        have hforgotten := isForgotten_recordForgotten s id id'
        rw [decide_eq_false heq, Bool.false_or] at hforgotten
        exact hforgotten.symm.trans hid

theorem Barred.replay {fmt : LineFormat SpoolEntry UInt8} {s : SpoolIndex} (h : s.Barred)
    (offset : Nat) (es : List SpoolEntry) :
    (fmt.replay SpoolIndex.applyLine offset es s).Barred := by
  induction es generalizing offset s with
  | nil => exact h
  | cons e es ih => exact ih (h.applyLine _ _ e) _

theorem Barred.run {fmt : LineFormat SpoolEntry UInt8} {s : Spool} (h : s.index.Barred)
    (op : SpoolOp) : (op.run fmt s).index.Barred := by
  obtain ⟨offset, lines, hindex⟩ := op.run_replays s
  rw [hindex]
  exact h.replay offset lines

end SpoolIndex

section
variable {fmt : LineFormat SpoolEntry UInt8} {id : String}

/-- What is forgotten once a forget goes on. -/
theorem forgotten_of_forgetIds {ids : List String} {outcome : AppendOutcome} {s : Spool}
    (h : (forgetIds fmt ids outcome s).2 = true) (hid : id ∈ ids) :
    (forgetIds fmt ids outcome s).1.index.isForgotten id = true := by
  cases happends : s.appends outcome with
  | true =>
      unfold forgetIds
      rw [Spool.write_appends fmt happends]
      · rw [SpoolIndex.isForgotten_foldl_recordForgotten, decide_eq_true hid, Bool.true_or]
      · intro hnil
        rw [List.map_eq_nil_iff.mp hnil]
        rfl
  | false =>
      obtain ⟨-, -, hreturns⟩ := Spool.write_fails fmt happends (ids.map .forget)
        (fun _ index => ids.foldl SpoolIndex.recordForgotten index)
      rw [List.map_eq_nil_iff.mp (hreturns h)] at hid
      cases hid

/-! ### The barrier -/

/-- A drain starts when no other is on its way. -/
def SpoolWorld.OneDrain (w : SpoolWorld) : SpoolStep → Prop
  | .start _ _ => ∀ i, (w.drains i).phase.live = false
  | _ => True

structure Barrier (w : SpoolWorld) : Prop where
  barred : w.spool.index.Barred
  alone : ∀ i j, (w.drains i).phase.live = true → (w.drains j).phase.live = true → i = j
  flying : ∀ i, (w.drains i).phase.live = true → ∀ id ∈ (w.drains i).registered,
    w.inFlight.get? id = some i
  on : ∀ i id, (w.drains i).phase.on? = some id → id ∈ (w.drains i).registered
  waiting : ∀ f ids drains, w.forgets f = .waiting ids drains → ∀ id ∈ ids,
    w.spool.index.isForgotten id = true ∧ ∀ i, (w.drains i).phase.on? = some id → i ∈ drains
  resolved : ∀ f ids, w.forgets f = .resolved ids → ∀ id ∈ ids,
    w.spool.index.isForgotten id = true ∧ ∀ i, (w.drains i).phase.on? ≠ some id

variable {i : Nat}

namespace Barrier
variable {w : SpoolWorld}

/-- A call's turn in the sequence. -/
theorem call (h : Barrier w) {spool : Spool} (hbarred : spool.index.Barred)
    (hforgotten : ∀ id, w.spool.index.isForgotten id = true → spool.index.isForgotten id = true)
    (accepted : List SourceTurn) (events : List SpoolEvent) :
    Barrier { w with spool := spool, accepted := accepted, events := events } where
  barred := hbarred
  alone := h.alone
  flying := h.flying
  on := h.on
  waiting f ids drains hphase id hid := by
    obtain ⟨hid', hon⟩ := h.waiting f ids drains hphase id hid
    exact ⟨hforgotten id hid', hon⟩
  resolved f ids hphase id hid := by
    obtain ⟨hid', hon⟩ := h.resolved f ids hphase id hid
    exact ⟨hforgotten id hid', hon⟩

theorem setInFlight (h : Barrier w) {inFlight : OrdMap String Nat}
    (hflying : ∀ i, (w.drains i).phase.live = true → ∀ id ∈ (w.drains i).registered,
      inFlight.get? id = some i) :
    Barrier { w with inFlight := inFlight } :=
  ⟨h.barred, h.alone, hflying, h.on, h.waiting, h.resolved⟩

/-- A step of the one drain on its way: it holds the ids the map says, and may be on one. -/
theorem setDrain (h : Barrier w) {d : Drain} (halone : ∀ j, (w.drains j).phase.live = true → j = i)
    (hflying : d.phase.live = true → ∀ id ∈ d.registered, w.inFlight.get? id = some i)
    (hon : ∀ id, d.phase.on? = some id → id ∈ d.registered ∧
      (w.spool.index.isForgotten id = true → (w.drains i).phase.on? = some id)) :
    Barrier (w.setDrain i d) := by
  have hlive : ∀ j, ((w.setDrain i d).drains j).phase.live = true → j = i := by
    intro j hj
    rw [SpoolWorld.drains_setDrain] at hj
    split at hj
    · assumption
    · exact halone j hj
  -- a drain is on no forgotten id that it was not on before
  have hons : ∀ j id, w.spool.index.isForgotten id = true →
      ((w.setDrain i d).drains j).phase.on? = some id → (w.drains j).phase.on? = some id := by
    intro j id hforgotten hj
    rw [SpoolWorld.drains_setDrain] at hj
    split at hj
    · next heq =>
        subst heq
        exact (hon id hj).2 hforgotten
    · exact hj
  refine ⟨h.barred, fun j k hj hk => (hlive j hj).trans (hlive k hk).symm, fun j hj id hid => ?_,
    fun j id hj => ?_, fun f ids drains hphase id hid => ?_, fun f ids hphase id hid => ?_⟩
  · obtain rfl := hlive j hj
    rw [SpoolWorld.drains_setDrain, if_pos rfl] at hj hid
    exact hflying hj id hid
  · rw [SpoolWorld.drains_setDrain] at hj ⊢
    split at hj
    · next heq =>
        rw [if_pos heq]
        exact (hon id hj).1
    · next hne =>
        rw [if_neg hne]
        exact h.on j id hj
  · obtain ⟨hforgotten, hdrains⟩ := h.waiting f ids drains hphase id hid
    exact ⟨hforgotten, fun j hj => hdrains j (hons j id hforgotten hj)⟩
  · obtain ⟨hforgotten, hdrains⟩ := h.resolved f ids hphase id hid
    exact ⟨hforgotten, fun j hj => hdrains j (hons j id hforgotten hj)⟩

/-- A step of a drain on its way that is let through to no id, and lets go of none. -/
theorem goes (h : Barrier w) {d : Drain} (hlive : (w.drains i).phase.live = true)
    (hregistered : d.registered = (w.drains i).registered)
    (hon : ∀ id, d.phase.on? = some id → (w.drains i).phase.on? = some id) :
    Barrier (w.setDrain i d) := by
  refine h.setDrain (fun j hj => h.alone j i hj hlive) (fun _ id hid => ?_) fun id hid => ?_
  · rw [hregistered] at hid
    exact h.flying i hlive id hid
  · rw [hregistered]
    exact ⟨h.on i id (hon id hid), fun _ => hon id hid⟩

/-- A drain is let through to an id that is not forgotten. -/
theorem take (h : Barrier w) {d : Drain}
    (hlive : (w.drains i).phase.live = true) (hforgotten : w.spool.index.isForgotten id = false)
    (hregistered : d.registered = (w.drains i).registered ++ [id]) (hon : d.phase.on? = some id) :
    Barrier ({ w with inFlight := w.inFlight.set id i }.setDrain i d) := by
  have hset : ∀ id', id' = id ∨ w.inFlight.get? id' = some i →
      (w.inFlight.set id i).get? id' = some i := by
    intro id' hid'
    rw [OrdMap.get?_set]
    split
    · rfl
    · next hne => exact hid'.resolve_left hne
  have hw : Barrier { w with inFlight := w.inFlight.set id i } := by
    refine h.setInFlight fun j hj id' hid' => ?_
    obtain rfl := h.alone j i hj hlive
    exact hset id' (.inr (h.flying j hj id' hid'))
  refine hw.setDrain (fun j hj => h.alone j i hj hlive) (fun _ id' hid' => ?_) fun id' hid' => ?_
  · rw [hregistered] at hid'
    rcases List.mem_append.mp hid' with hold | hnew
    · exact hset id' (.inr (h.flying i hlive id' hold))
    · exact hset id' (.inl (List.mem_singleton.mp hnew))
  · obtain rfl := Option.some.inj (hon.symm.trans hid')
    rw [hregistered]
    refine ⟨List.mem_append_right _ List.mem_cons_self, fun hid => ?_⟩
    exact absurd (hid.symm.trans hforgotten) (by decide)

/-- A drain lets go of its ids, and no other is on its way. -/
theorem release (h : Barrier w) {d : Drain} (hlive : (w.drains i).phase.live = true)
    (hreleased : d.phase = .released) (inFlight : OrdMap String Nat) :
    Barrier ({ w with inFlight := inFlight }.setDrain i d) := by
  have hlive' : ∀ j, ((w.setDrain i d).drains j).phase.live = true → False := by
    intro j hj
    rw [SpoolWorld.drains_setDrain] at hj
    split at hj
    · rw [hreleased] at hj
      cases hj
    · next hne => exact hne (h.alone j i hj hlive)
  have hw : Barrier (w.setDrain i d) := by
    refine h.setDrain (fun j hj => h.alone j i hj hlive) (fun hd => ?_) fun id hid => ?_
    · rw [hreleased] at hd
      cases hd
    · rw [hreleased] at hid
      cases hid
  exact hw.setInFlight fun j hj => (hlive' j hj).elim

/-- A forget goes on. -/
theorem setForget (h : Barrier w) {f : Nat} {phase : ForgetPhase}
    (hwaiting : ∀ ids drains, phase = .waiting ids drains → ∀ id ∈ ids,
      w.spool.index.isForgotten id = true ∧ ∀ i, (w.drains i).phase.on? = some id → i ∈ drains)
    (hresolved : ∀ ids, phase = .resolved ids → ∀ id ∈ ids,
      w.spool.index.isForgotten id = true ∧ ∀ i, (w.drains i).phase.on? ≠ some id) :
    Barrier (w.setForget f phase) := by
  refine ⟨h.barred, h.alone, h.flying, h.on, fun g ids drains hphase => ?_, fun g ids hphase => ?_⟩
  · rw [SpoolWorld.forgets_setForget] at hphase
    split at hphase
    · exact hwaiting ids drains hphase
    · exact h.waiting g ids drains hphase
  · rw [SpoolWorld.forgets_setForget] at hphase
    split at hphase
    · exact hresolved ids hphase
    · exact h.resolved g ids hphase

/-- A forget waits for every drain that is on an id it forgets. -/
theorem waits (h : Barrier w) {ids : List String} (hid : id ∈ ids)
    (hon : (w.drains i).phase.on? = some id) : i ∈ ids.filterMap w.inFlight.get? :=
  List.mem_filterMap.mpr
    ⟨id, hid, h.flying i (DrainPhase.live_of_on hon) id (h.on i id hon)⟩

end Barrier

theorem live_of_phase {w : SpoolWorld} {phase : DrainPhase}
    (hphase : (w.drains i).phase = phase) (hlive : phase.live = true) :
    (w.drains i).phase.live = true := hphase ▸ hlive

variable {w w' : SpoolWorld} {a : SpoolStep}

theorem barrier_step (h : Barrier w) (hone : w.OneDrain a)
    (hstep : w.step fmt a = some w') : Barrier w' := by
  cases SpoolWorld.took_of_step hstep with
  | append requests queuedAt outcome =>
      exact h.call (h.barred.run (.appendBatch requests queuedAt outcome))
        (moves_flushAppends requests queuedAt outcome w.spool).forgotten _ _
  | capture turns completed queuedAt outcome =>
      exact h.call (h.barred.run (.commitCapture turns completed queuedAt outcome))
        (moves_commitCapture turns completed queuedAt outcome w.spool).forgotten _ _
  | extract turns outcome =>
      exact h.call (h.barred.run (.markExtracted turns outcome))
        (moves_markExtracted turns outcome w.spool).forgotten _ _
  | @start i maxTurns hphase =>
      refine h.setDrain (fun j hj => ?_) (fun _ _ hid => nomatch hid) fun _ hid => nomatch hid
      exact absurd (hj.symm.trans (hone j)) (by decide)
  | stop hphase => exact h.goes (live_of_phase hphase rfl) rfl fun _ hid => nomatch hid
  | skip hphase hrest => exact h.goes (live_of_phase hphase rfl) rfl fun _ hid => nomatch hid
  | take hphase hrest hpending hforgotten =>
      exact h.take (live_of_phase hphase rfl) hforgotten rfl rfl
  | unread performed hphase =>
      exact h.goes (live_of_phase hphase rfl) rfl fun _ hid => nomatch hid
  | @read i id entry turn performed hphase hread =>
      refine h.goes (live_of_phase hphase rfl) rfl fun id' hid => ?_
      rw [hphase]
      exact hid
  | unwritten succeeds hphase =>
      exact h.goes (live_of_phase hphase rfl) rfl fun _ hid => nomatch hid
  | @wrote i id entry turn succeeds hphase =>
      have hw := h.call h.barred (fun _ hid => hid) w.accepted
        (w.events ++ [SpoolEvent.wrote turn entry.offset])
      exact hw.goes (live_of_phase hphase rfl) rfl fun _ hid => nomatch hid
  | @mark i outcome hphase =>
      have hw : Barrier { w with spool := (markDone fmt (w.drains i).done outcome w.spool).1 } :=
        h.call (h.barred.run (.drain (w.drains i).done outcome))
          (moves_markDone (w.drains i).done outcome w.spool).forgotten w.accepted w.events
      exact hw.goes (live_of_phase hphase rfl) rfl fun _ hid => nomatch hid
  | release hphase => exact h.release (live_of_phase hphase rfl) rfl _
  | ask target hphase =>
      exact h.setForget (fun _ _ hphase => nomatch hphase) fun _ hphase => nomatch hphase
  | @forgot f ids outcome hphase hforgot =>
      have hw : Barrier { w with spool := (forgetIds fmt ids outcome w.spool).1 } :=
        h.call (h.barred.run (.forget ids outcome))
          (moves_forgetIds ids outcome w.spool).forgotten w.accepted w.events
      refine hw.setForget (fun ids' drains heq id hid => ?_) fun _ hphase => nomatch hphase
      obtain ⟨rfl, rfl⟩ := ForgetPhase.waiting.inj heq
      exact ⟨forgotten_of_forgetIds hforgot hid, fun i hon => h.waits hid hon⟩
  | @rejected f ids outcome hphase =>
      have hw : Barrier { w with spool := (forgetIds fmt ids outcome w.spool).1 } :=
        h.call (h.barred.run (.forget ids outcome))
          (moves_forgetIds ids outcome w.spool).forgotten w.accepted w.events
      exact hw.setForget (fun _ _ hphase => nomatch hphase) fun _ hphase => nomatch hphase
  | @resolve f ids drains hphase hreleased =>
      refine h.setForget (fun _ _ hphase => nomatch hphase) fun ids' heq id hid => ?_
      obtain rfl := ForgetPhase.resolved.inj heq
      obtain ⟨hforgotten, hdrains⟩ := h.waiting f ids drains hphase id hid
      refine ⟨hforgotten, fun i hon => ?_⟩
      have hlive := DrainPhase.live_of_on hon
      rw [hreleased i (hdrains i hon)] at hlive
      cases hlive

theorem barrier_openWorld (es : List SpoolEntry) : Barrier (openWorld fmt es) := by
  have hempty : ({} : SpoolIndex).Barred := fun id hid => nomatch hid
  exact ⟨hempty.replay 0 es, fun _ _ hlive => (nomatch hlive), fun _ hlive => (nomatch hlive),
    fun _ _ hon => (nomatch hon), fun _ _ _ hphase => (nomatch hphase),
    fun _ _ hphase => (nomatch hphase)⟩

/-! ### What was put before -/

/-- A session's, or a user's, pending ids are chosen. -/
theorem mem_choose {target : ForgetTarget} {index : SpoolIndex} {entry : Pending}
    (hget : index.pending.get? id = some entry)
    (hcovers : target.covers entry.userId entry.sessionId = true) : id ∈ target.choose index := by
  have hmem : id ∈ (index.pending.entries.filter fun e =>
      target.covers e.2.userId e.2.sessionId).map (·.1) :=
    List.mem_map.mpr
      ⟨(id, entry), List.mem_filter.mpr ⟨OrdMap.get?_eq_some.mp hget, hcovers⟩, rfl⟩
  cases target with
  | ids chosen => cases hcovers
  | session userId sessionId => exact mem_distinct.mpr (List.mem_append_left _ hmem)
  | user userId => exact mem_distinct.mpr (List.mem_append_left _ hmem)

/-- How far a forget of some ids has come. -/
def ForgetPhase.Of (ids : List String) : ForgetPhase → Prop
  | .idle => False
  | .asked ids' | .waiting ids' _ | .resolved ids' => ids' = ids
  | .rejected => True

/-- Since a forget was asked for, when the journal had a length: what is pending of its target
was put after that, or is among its ids. -/
structure Since (f : Nat) (target : ForgetTarget) (ids : List String) (length : Nat)
    (w : SpoolWorld) : Prop where
  longer : length ≤ w.spool.journal.file.length
  pending : ∀ id entry, w.spool.index.pending.get? id = some entry →
    target.covers entry.userId entry.sessionId = true → length ≤ entry.offset ∨ id ∈ ids
  phase : (w.forgets f).Of ids

section
variable {f length : Nat} {target : ForgetTarget} {ids : List String}

theorem Since.call {w : SpoolWorld} (h : Since f target ids length w) {spool : Spool}
    {puts : List (SourceTurn × (Nat × Nat))} {gone : String → Prop}
    (hmoves : Moves fmt w.spool spool puts gone) (accepted : List SourceTurn)
    (events : List SpoolEvent) :
    Since f target ids length { w with spool := spool, accepted := accepted, events := events } where
  longer := h.longer.trans hmoves.longer
  pending id entry hget hcovers := by
    rcases hmoves.pending hget with hold | hlater
    · exact h.pending id entry hold hcovers
    · exact .inl (h.longer.trans hlater)
  phase := h.phase

theorem Since.setForget {w : SpoolWorld} (h : Since f target ids length w) {g : Nat}
    {phase : ForgetPhase} (hphase : g = f → phase.Of ids) :
    Since f target ids length (w.setForget g phase) := by
  refine ⟨h.longer, h.pending, ?_⟩
  rw [SpoolWorld.forgets_setForget]
  split
  · next heq => exact hphase heq.symm
  · exact h.phase

theorem since_step (h : Since f target ids length w)
    (hstep : w.step fmt a = some w') : Since f target ids length w' := by
  cases SpoolWorld.took_of_step hstep with
  | append requests queuedAt outcome =>
      exact h.call (moves_flushAppends requests queuedAt outcome w.spool) _ _
  | capture turns completed queuedAt outcome =>
      exact h.call (moves_commitCapture turns completed queuedAt outcome w.spool) _ _
  | extract turns outcome => exact h.call (moves_markExtracted turns outcome w.spool) _ _
  | @mark i outcome hphase =>
      have hmoves : Moves fmt w.spool (markDone fmt (w.drains i).done outcome w.spool).1 [] _ :=
        moves_markDone (w.drains i).done outcome w.spool
      have hw := h.call hmoves w.accepted w.events
      exact ⟨hw.longer, hw.pending, hw.phase⟩
  | start | stop | skip | take | unread | read | unwritten | wrote | release =>
      exact ⟨h.longer, h.pending, h.phase⟩
  | @ask g target' hphase =>
      refine h.setForget fun heq => ?_
      have hof := h.phase
      rw [← heq, hphase] at hof
      exact hof.elim
  | @forgot g ids' outcome hphase hforgot =>
      have hmoves : Moves fmt w.spool (forgetIds fmt ids' outcome w.spool).1 [] _ :=
        moves_forgetIds ids' outcome w.spool
      have hw := h.call hmoves w.accepted w.events
      refine hw.setForget fun heq => ?_
      have hof := h.phase
      rw [← heq, hphase] at hof
      exact hof
  | @rejected g ids' outcome hphase =>
      have hmoves : Moves fmt w.spool (forgetIds fmt ids' outcome w.spool).1 [] _ :=
        moves_forgetIds ids' outcome w.spool
      have hw := h.call hmoves w.accepted w.events
      exact hw.setForget fun _ => trivial
  | @resolve g ids' drains hphase hreleased =>
      refine h.setForget fun heq => ?_
      have hof := h.phase
      rw [← heq, hphase] at hof
      exact hof

theorem since_ask (hstep : w.step fmt (.ask f target) = some w') :
    Since f target (target.choose w.spool.index) w.spool.journal.file.length w' := by
  cases SpoolWorld.took_of_step hstep with
  | ask target hphase =>
      refine ⟨Nat.le_refl _, fun id entry hget hcovers => .inr (mem_choose hget hcovers), ?_⟩
      rw [SpoolWorld.forgets_setForget, if_pos rfl]
      rfl

/-- A forget that has resolved stays so. -/
theorem resolved_step (h : w.forgets f = .resolved ids)
    (hstep : w.step fmt a = some w') : w'.forgets f = .resolved ids := by
  have hother : ∀ {g : Nat} {phase : ForgetPhase}, w.forgets g ≠ .resolved ids →
      (w.setForget g phase).forgets f = .resolved ids := by
    intro g phase hne
    rw [SpoolWorld.forgets_setForget, if_neg]
    · exact h
    · rintro rfl
      exact hne h
  cases SpoolWorld.took_of_step hstep with
  | append | capture | extract | start | stop | skip | take | unread | read | unwritten | wrote
  | mark | release => exact h
  | ask target' hphase => exact hother (by rw [hphase]; exact nofun)
  | forgot outcome hphase hforgot => exact hother (by rw [hphase]; exact nofun)
  | rejected outcome hphase => exact hother (by rw [hphase]; exact nofun)
  | resolve hphase hreleased => exact hother (by rw [hphase]; exact nofun)

end

end

/-! ### Runs -/

/-- A line of the turn, put before the journal had a length, is pending. -/
def SpoolWorld.StillPending (length : Nat) (turn : SourceTurn) (w : SpoolWorld) : Prop :=
  ∃ entry, w.spool.index.pending.get? turn.id = some entry ∧ entry.userId = turn.userId ∧
    entry.sessionId = turn.sessionId ∧ entry.offset < length

/-- **A forget is a barrier.**  Drains are run one at a time; a forget is asked for in `w₀`, has
resolved in `w₁`, and the run goes on to `w₂`.  The ids it forgot are those chosen when it was asked
for; no drain is on one of them, and none is pending or extracted; what is pending of its session
or user was put after it was asked for, so no turn of theirs accepted before that is left. -/
theorem forget_barrier (es : List SpoolEntry) {as₀ as₁ as₂ : List SpoolStep} {f : Nat}
    {target : ForgetTarget} {ids : List String} {w₀ w₁ w₂ : SpoolWorld}
    (hone : Runs.Along (SpoolWorld.step spoolFormat) SpoolWorld.OneDrain (openWorld spoolFormat es)
      (as₀ ++ (.ask f target :: as₁ ++ as₂)))
    (h₀ : Runs.exec (SpoolWorld.step spoolFormat) (openWorld spoolFormat es) as₀ = some w₀)
    (h₁ : Runs.exec (SpoolWorld.step spoolFormat) w₀ (.ask f target :: as₁) = some w₁)
    (hresolved : w₁.forgets f = .resolved ids)
    (h₂ : Runs.exec (SpoolWorld.step spoolFormat) w₁ as₂ = some w₂) :
    ids = target.choose w₀.spool.index ∧
      (∀ id ∈ ids, (∀ i, (w₂.drains i).phase.on? ≠ some id) ∧
        w₂.spool.index.pending.get? id = none ∧ w₂.spool.index.extracted.get? id = none) ∧
      (∀ id entry, w₂.spool.index.pending.get? id = some entry →
        target.covers entry.userId entry.sessionId = true →
          w₀.spool.journal.file.length ≤ entry.offset) ∧
      ∀ turn ∈ w₀.accepted, target.covers turn.userId turn.sessionId = true →
        ¬w₂.StillPending w₀.spool.journal.file.length turn := by
  have hrun : Runs.exec (SpoolWorld.step spoolFormat) (openWorld spoolFormat es)
      (as₀ ++ (.ask f target :: as₁ ++ as₂)) = some w₂ := by
    rw [Runs.exec_append, h₀, Option.bind_some, Runs.exec_append, h₁, Option.bind_some, h₂]
  have hbarrier : Barrier w₂ :=
    Runs.exec_invariant (fun _ _ _ h ho hs => barrier_step h ho hs) (barrier_openWorld es) hone hrun
  obtain ⟨w, hask, hrest⟩ := Option.bind_eq_some_iff.mp h₁
  have hsince : Since f target (target.choose w₀.spool.index) w₀.spool.journal.file.length w₁ :=
    Runs.exec_preserves (fun _ _ _ h hs => since_step h hs) (since_ask hask) hrest
  have hids : ids = target.choose w₀.spool.index := by
    have hof := hsince.phase
    rwa [hresolved] at hof
  have hsince₂ : Since f target (target.choose w₀.spool.index) w₀.spool.journal.file.length w₂ :=
    Runs.exec_preserves (fun _ _ _ h hs => since_step h hs) hsince h₂
  have hresolved₂ : w₂.forgets f = .resolved ids :=
    Runs.exec_preserves (fun _ _ _ h hs => resolved_step h hs) hresolved h₂
  have hout : ∀ id ∈ ids, (∀ i, (w₂.drains i).phase.on? ≠ some id) ∧
      w₂.spool.index.pending.get? id = none ∧ w₂.spool.index.extracted.get? id = none := by
    intro id hid
    obtain ⟨hforgotten, hon⟩ := hbarrier.resolved f ids hresolved₂ id hid
    exact ⟨hon, hbarrier.barred id hforgotten⟩
  have hlater : ∀ id entry, w₂.spool.index.pending.get? id = some entry →
      target.covers entry.userId entry.sessionId = true →
        w₀.spool.journal.file.length ≤ entry.offset := by
    intro id entry hget hcovers
    rcases hsince₂.pending id entry hget hcovers with hlater | hid
    · exact hlater
    · rw [(hout id (hids ▸ hid)).2.1] at hget
      cases hget
  refine ⟨hids, hout, hlater, fun turn _ hcovers hstill => ?_⟩
  obtain ⟨entry, hget, huser, hsession, hbefore⟩ := hstill
  rw [← huser, ← hsession] at hcovers
  exact absurd (hlater turn.id entry hget hcovers) (Nat.not_le_of_lt hbefore)

/-- An append, and a forget of its user; then the same turn is appended again, and is refused. -/
theorem forget_barrier_user : ∃ w₂, Runs.exec (SpoolWorld.step spoolFormat) (openWorld spoolFormat [])
    ([.append [[turnOfOne "one" "h1"]] "t" .synced] ++
      (.ask 0 (.user "ann") :: [.forget 0 .synced, .resolve 0] ++
        [.append [[turnOfOne "one" "h1"]] "t" .synced])) = some w₂ ∧
      w₂.spool.index.pending.get? "x" = none := by
  let w₀ := (openWorld spoolFormat []).appendStep spoolFormat [[turnOfOne "one" "h1"]] "t" .synced
  have h₀ : Runs.exec (SpoolWorld.step spoolFormat) (openWorld spoolFormat [])
      [.append [[turnOfOne "one" "h1"]] "t" .synced] = some w₀ := rfl
  obtain ⟨w₁, h₁, hresolved⟩ : ∃ w₁, Runs.exec (SpoolWorld.step spoolFormat) w₀
      (.ask 0 (.user "ann") :: [.forget 0 .synced, .resolve 0]) = some w₁ ∧
        w₁.forgets 0 = .resolved ["x"] := ⟨_, rfl, rfl⟩
  have h₂ : Runs.exec (SpoolWorld.step spoolFormat) w₁
      [.append [[turnOfOne "one" "h1"]] "t" .synced] =
        some (w₁.appendStep spoolFormat [[turnOfOne "one" "h1"]] "t" .synced) := rfl
  have hbarrier := forget_barrier [] (.of_forall fun _ a ha => ?_) h₀ h₁ hresolved h₂
  · refine ⟨_, ?_, (hbarrier.2.1 "x" List.mem_cons_self).2.1⟩
    rw [Runs.exec_append, h₀, Option.bind_some, Runs.exec_append, h₁, Option.bind_some, h₂]
  · cases a with
    | start => simp at ha
    | _ => trivial

end Runir
