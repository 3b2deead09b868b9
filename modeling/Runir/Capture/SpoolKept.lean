import Mathlib.Data.List.Induction
import Runir.Capture.SpoolMoves

/-!
# Capture — No put is lost

What becomes of a put line, over every run of drains, captures, appends and forgets.

* `KeptPut`: the line is pending, or has been written, or its id is forgotten, or a later put of
  the id has replaced it.
* `MarksWritten`: a drain marks an id done only while the id is pending by a line that a drain has
  written.
* `Sound`: the invariant.  `sound_step`: what one step keeps.
* `kept_run`: along `MarksWritten`, no put is lost.  `drain_loses_capture`: it is, where a capture
  puts an id again between a drain's snapshot of it and the mark.
-/

namespace Runir

/-! ### What a put is owed -/

namespace SpoolWorld

/-- The put line of `turn` at `offset` is accounted for. -/
def KeptPut (turn : SourceTurn) (offset : Nat) (w : SpoolWorld) : Prop :=
  (∃ entry, w.spool.index.pending.get? turn.id = some entry ∧ entry.offset = offset) ∨
    SpoolEvent.wrote turn offset ∈ w.events ∨
      w.spool.index.isForgotten turn.id = true ∨
        ∃ turn' offset', SpoolEvent.put turn' offset' (some offset) ∈ w.events ∧ turn'.id = turn.id

/-- Every put line is accounted for. -/
def NothingLost (w : SpoolWorld) : Prop :=
  ∀ turn offset replaced, SpoolEvent.put turn offset replaced ∈ w.events → w.KeptPut turn offset

/-- Where a drain marks ids done, each that is still pending is pending by a line that is in the
window of a drain that has done with the id. -/
def MarksWritten (w : SpoolWorld) : SpoolStep → Prop
  | .mark i outcome =>
      w.spool.appends outcome = true → ∀ id ∈ (w.drains i).done, w.spool.index.isForgotten id = false →
        ∀ entry, w.spool.index.pending.get? id = some entry →
          ∃ d, (id, entry) ∈ (w.drains d).window ∧ id ∈ (w.drains d).done
  | _ => True

end SpoolWorld

section
variable {fmt : LineFormat SpoolEntry UInt8}

/-! ### The invariant -/

variable (fmt) in
/-- The put line of `turn` at `offset` is accounted for; while pending, it reads as `turn`. -/
def Accounted (w : SpoolWorld) (turn : SourceTurn) (offset : Nat) : Prop :=
  (∃ entry, w.spool.index.pending.get? turn.id = some entry ∧ entry.offset = offset ∧
      Reads fmt w.spool.journal.file entry turn) ∨
    SpoolEvent.wrote turn offset ∈ w.events ∨
      w.spool.index.isForgotten turn.id = true ∨
        ∃ turn' offset', SpoolEvent.put turn' offset' (some offset) ∈ w.events ∧ turn'.id = turn.id

variable (fmt) in
/-- What a drain holds: lines of its window, each of which reads; those it has done are written. -/
structure DrainSound (file : List UInt8) (events : List SpoolEvent) (d : Drain) : Prop where
  nodup : (d.window.map Prod.fst).Nodup
  reads : ∀ id entry, (id, entry) ∈ d.window → ∃ turn, Reads fmt file entry turn
  rest : d.rest ⊆ d.window
  reading : ∀ id entry, d.phase = .reading id entry → (id, entry) ∈ d.window
  writing : ∀ id entry turn, d.phase = .writing id entry turn →
    (id, entry) ∈ d.window ∧ Reads fmt file entry turn
  done : ∀ id ∈ d.done, ∃ entry turn, (id, entry) ∈ d.window ∧ Reads fmt file entry turn ∧
    SpoolEvent.wrote turn entry.offset ∈ events

variable (fmt) in
structure Sound (w : SpoolWorld) : Prop where
  puts : ∀ turn offset replaced, SpoolEvent.put turn offset replaced ∈ w.events →
    Accounted fmt w turn offset
  pending : ∀ id entry, w.spool.index.pending.get? id = some entry →
    ∃ turn, turn.id = id ∧ Reads fmt w.spool.journal.file entry turn
  drains : ∀ i, DrainSound fmt w.spool.journal.file w.events (w.drains i)

variable {file : List UInt8} {entry : Pending}

/-- A line holds one turn. -/
theorem Reads.unique {turn turn' : SourceTurn}
    (h : Reads fmt file entry turn) (h' : Reads fmt file entry turn') : turn = turn' :=
  Option.some.inj (h.1.symm.trans h'.1)

variable {d : Drain}

/-- What a drain holds is not changed by what is appended, or by what happens. -/
theorem DrainSound.mono {file file' : List UInt8} {events events' : List SpoolEvent}
    (h : DrainSound fmt file events d) (hfile : ∃ g, file' = file ++ g)
    (hevents : events ⊆ events') : DrainSound fmt file' events' d := by
  obtain ⟨g, rfl⟩ := hfile
  refine ⟨h.nodup, fun id entry hmem => ?_, h.rest, h.reading, fun id entry turn hphase => ?_,
    fun id hdone => ?_⟩
  · obtain ⟨turn, hread⟩ := h.reads id entry hmem
    exact ⟨turn, hread.append g⟩
  · obtain ⟨hmem, hread⟩ := h.writing id entry turn hphase
    exact ⟨hmem, hread.append g⟩
  · obtain ⟨entry, turn, hmem, hread, hwrote⟩ := h.done id hdone
    exact ⟨entry, turn, hmem, hread.append g, hevents hwrote⟩

variable {rest : List (String × Pending)}

/-- A drain that goes on from its loop, in a phase in which it holds no line. -/
theorem DrainSound.goes {events : List SpoolEvent}
    (h : DrainSound fmt file events d) {phase : DrainPhase}
    {processed bytes : Nat} (registered : List String) (hrest : rest ⊆ d.window)
    (hreading : ∀ id entry, phase = .reading id entry → (id, entry) ∈ d.window)
    (hwriting : ∀ id entry turn, phase = .writing id entry turn →
      (id, entry) ∈ d.window ∧ Reads fmt file entry turn) :
    DrainSound fmt file events
      { d with
        phase := phase, rest := rest, processed := processed, bytes := bytes
        registered := registered } :=
  ⟨h.nodup, h.reads, hrest, hreading, hwriting, h.done⟩

/-- It holds no line in a phase on no id. -/
theorem DrainSound.goes_off {events : List SpoolEvent}
    (h : DrainSound fmt file events d) {phase : DrainPhase}
    {processed bytes : Nat} (registered : List String) (hrest : rest ⊆ d.window)
    (hoff : phase.on? = none) :
    DrainSound fmt file events
      { d with
        phase := phase, rest := rest, processed := processed, bytes := bytes
        registered := registered } := by
  refine h.goes registered hrest (fun id entry hreading => ?_) fun id entry turn hwriting => ?_
  · rw [hreading] at hoff
    cases hoff
  · rw [hwriting] at hoff
    cases hoff

/-! ### What a call keeps -/

variable {w : SpoolWorld}

/-- **A call keeps the invariant**, where what it takes away has been written or is forgotten. -/
theorem Sound.call (h : Sound fmt w) {spool : Spool}
    {puts : List (SourceTurn × (Nat × Nat))} {gone : String → Prop}
    (hmoves : Moves fmt w.spool spool puts gone)
    (hgone : ∀ id entry turn, gone id → w.spool.index.pending.get? id = some entry →
      Reads fmt w.spool.journal.file entry turn →
        spool.index.isForgotten id = true ∨ SpoolEvent.wrote turn entry.offset ∈ w.events)
    (accepted : List SourceTurn) :
    Sound fmt { w with
      spool := spool
      accepted := accepted
      events := w.events ++ puts.map fun put =>
        .put put.1 put.2.1 ((w.spool.index.pending.get? put.1.id).map (·.offset)) } := by
  refine ⟨fun turn offset replaced hput => ?_, fun id entry hget => ?_, fun i => ?_⟩
  · rcases List.mem_append.mp hput with hold | hnew
    · rcases h.puts turn offset replaced hold with
        ⟨entry, hget, hoffset, hread⟩ | hwrote | hforgotten | ⟨turn', offset', hreplaced, hid⟩
      · -- the line was pending: it is replaced by a put of the call, or kept, or gone
        by_cases hmem : ∃ put ∈ puts, put.1.id = turn.id
        · obtain ⟨put, hput', hid⟩ := hmem
          refine .inr (.inr (.inr ⟨put.1, put.2.1, List.mem_append_right _ ?_, hid⟩))
          refine List.mem_map.mpr ⟨put, hput', ?_⟩
          rw [hid, hget, Option.map_some, hoffset]
        · rcases hmoves.kept turn.id fun put hput' hid => hmem ⟨put, hput', hid⟩ with hkept | hgoes
          · exact .inl ⟨entry, hkept.trans hget, hoffset, hmoves.reads hread⟩
          · rcases hgone turn.id entry turn hgoes.2 hget hread with hforgotten | hwrote
            · exact .inr (.inr (.inl hforgotten))
            · rw [hoffset] at hwrote
              exact .inr (.inl (List.mem_append_left _ hwrote))
      · exact .inr (.inl (List.mem_append_left _ hwrote))
      · exact .inr (.inr (.inl (hmoves.forgotten _ hforgotten)))
      · exact .inr (.inr (.inr ⟨turn', offset', List.mem_append_left _ hreplaced, hid⟩))
    · obtain ⟨put, hput', heq⟩ := List.mem_map.mp hnew
      obtain ⟨rfl, rfl, -⟩ := SpoolEvent.put.inj heq
      obtain ⟨entry, hget, hoffset, hread, -⟩ := hmoves.put put hput'
      exact .inl ⟨entry, hget, hoffset, hread⟩
  · by_cases hmem : ∃ put ∈ puts, put.1.id = id
    · obtain ⟨put, hput, rfl⟩ := hmem
      obtain ⟨entry', hget', -, hread, -⟩ := hmoves.put put hput
      obtain rfl := Option.some.inj (hget.symm.trans hget')
      exact ⟨put.1, rfl, hread⟩
    · rcases hmoves.kept id fun put hput hid => hmem ⟨put, hput, hid⟩ with hkept | hgoes
      · obtain ⟨turn, hid, hread⟩ := h.pending id entry (hkept.symm.trans hget)
        exact ⟨turn, hid, hmoves.reads hread⟩
      · cases hgoes.1.symm.trans hget
  · exact (h.drains i).mono hmoves.grows (List.subset_append_left _ _)

/-- A change of one drain. -/
theorem Sound.setDrain (h : Sound fmt w) {i : Nat}
    (hd : DrainSound fmt w.spool.journal.file w.events d) : Sound fmt (w.setDrain i d) where
  puts := h.puts
  pending := h.pending
  drains := fun j => by
    rw [SpoolWorld.drains_setDrain]
    split
    · exact hd
    · exact h.drains j

/-- What the mark takes away has been written. -/
theorem Sound.marked (h : Sound fmt w) {i : Nat} {outcome : AppendOutcome}
    (hmarks : w.MarksWritten (.mark i outcome)) {id : String} {turn : SourceTurn}
    (hgone : id ∈ (w.drains i).done ∧ w.spool.index.isForgotten id = false ∧
      w.spool.appends outcome = true) (hget : w.spool.index.pending.get? id = some entry)
    (hread : Reads fmt w.spool.journal.file entry turn) :
    SpoolEvent.wrote turn entry.offset ∈ w.events := by
  obtain ⟨hdone, hforgotten, happends⟩ := hgone
  obtain ⟨d, hwindow, hdone'⟩ := hmarks happends id hdone hforgotten entry hget
  obtain ⟨entry', turn', hwindow', hread', hwrote⟩ := (h.drains d).done id hdone'
  -- the window of a drain has one line for an id
  have hentry : entry = entry' :=
    Option.some.inj (((OrdMap.find_eq_some (h.drains d).nodup).mpr hwindow).symm.trans
      ((OrdMap.find_eq_some (h.drains d).nodup).mpr hwindow'))
  subst hentry
  rw [hread.unique hread']
  exact hwrote

theorem sound_step {w w' : SpoolWorld} {a : SpoolStep} (h : Sound fmt w) (hmarks : w.MarksWritten a)
    (hstep : w.step fmt a = some w') : Sound fmt w' := by
  have hstill : ∀ {spool : Spool} {gone : String → Prop}, Moves fmt w.spool spool [] gone →
      (∀ id entry turn, gone id → w.spool.index.pending.get? id = some entry →
        Reads fmt w.spool.journal.file entry turn →
          spool.index.isForgotten id = true ∨ SpoolEvent.wrote turn entry.offset ∈ w.events) →
      Sound fmt { w with spool := spool } := by
    intro spool gone hmoves hgone
    have hcall := h.call hmoves hgone w.accepted
    simpa only [List.map_nil, List.append_nil] using hcall
  cases SpoolWorld.took_of_step hstep with
  | append requests queuedAt outcome =>
      exact h.call (moves_flushAppends requests queuedAt outcome w.spool)
        (fun _ _ _ hgone => hgone.elim) _
  | capture turns completed queuedAt outcome =>
      exact h.call (moves_commitCapture turns completed queuedAt outcome w.spool)
        (fun _ _ _ hgone => hgone.elim) _
  | extract turns outcome =>
      exact hstill (moves_markExtracted turns outcome w.spool) fun _ _ _ hgone => hgone.elim
  | start maxTurns hphase =>
      refine h.setDrain ⟨w.spool.index.pending.nodup, fun id entry hmem => ?_, List.Subset.refl _,
        (by simp), (by simp), (by simp)⟩
      obtain ⟨turn, -, hread⟩ := h.pending id entry (OrdMap.get?_eq_some.mpr hmem)
      exact ⟨turn, hread⟩
  | @stop i hphase =>
      exact h.setDrain ((h.drains i).goes_off _ (h.drains i).rest rfl)
  | @skip i id entry rest hphase hrest =>
      refine h.setDrain ((h.drains i).goes_off _ ?_ rfl)
      exact fun e he => (h.drains i).rest (hrest ▸ List.mem_cons_of_mem _ he)
  | @take i id entry rest hphase hrest hpending hforgotten =>
      have hw : Sound fmt { w with inFlight := w.inFlight.set id i } := ⟨h.puts, h.pending, h.drains⟩
      refine hw.setDrain ((h.drains i).goes _ ?_ (fun id' entry' hreading => ?_)
        (by simp))
      · exact fun e he => (h.drains i).rest (hrest ▸ List.mem_cons_of_mem _ he)
      · obtain ⟨rfl, rfl⟩ := DrainPhase.reading.inj hreading
        exact (h.drains i).rest (hrest ▸ List.mem_cons_self)
  | @unread i id entry performed hphase =>
      exact h.setDrain ((h.drains i).goes_off _ (h.drains i).rest rfl)
  | @read i id entry turn performed hphase hread =>
      refine h.setDrain ((h.drains i).goes _ (h.drains i).rest (by simp)
        fun id' entry' turn' hwriting => ?_)
      obtain ⟨rfl, rfl, rfl⟩ := DrainPhase.writing.inj hwriting
      have hmem := (h.drains i).reading id entry hphase
      obtain ⟨turn₀, hread₀⟩ := (h.drains i).reads id entry hmem
      exact ⟨hmem, hread, hread₀.2⟩
  | @unwritten i id entry turn succeeds hphase =>
      exact h.setDrain ((h.drains i).goes_off _ (h.drains i).rest rfl)
  | @wrote i id entry turn succeeds hphase =>
      have hw : Sound fmt
          { w with events := w.events ++ [SpoolEvent.wrote turn entry.offset] } := by
        refine ⟨fun turn' offset replaced hput => ?_, h.pending, fun j => ?_⟩
        · have hold : SpoolEvent.put turn' offset replaced ∈ w.events := by simpa using hput
          rcases h.puts turn' offset replaced hold with
            hpending | hwrote | hforgotten | ⟨turn'', offset', hreplaced, hid⟩
          · exact .inl hpending
          · exact .inr (.inl (List.mem_append_left _ hwrote))
          · exact .inr (.inr (.inl hforgotten))
          · exact .inr (.inr (.inr ⟨turn'', offset', List.mem_append_left _ hreplaced, hid⟩))
        · exact (h.drains j).mono ⟨[], (List.append_nil _).symm⟩ (List.subset_append_left _ _)
      obtain ⟨hmem, hread⟩ := (h.drains i).writing id entry turn hphase
      have hd := hw.drains i
      refine hw.setDrain ⟨hd.nodup, hd.reads, hd.rest, (by simp), (by simp),
        fun id' hdone => ?_⟩
      rcases List.mem_append.mp hdone with hold | hnew
      · exact hd.done id' hold
      · obtain rfl := List.mem_singleton.mp hnew
        exact ⟨entry, turn, hmem, hread, List.mem_append_right _ List.mem_cons_self⟩
  | @mark i outcome hphase =>
      have hw := hstill (moves_markDone (w.drains i).done outcome w.spool)
        fun id entry turn hgone hget hread => .inr (h.marked hmarks hgone hget hread)
      exact hw.setDrain ((hw.drains i).goes_off _ (hw.drains i).rest rfl)
  | @release i hphase =>
      have hw : Sound fmt { w with
          inFlight := (w.drains i).registered.foldl (fun m id => m.erase id) w.inFlight } :=
        ⟨h.puts, h.pending, h.drains⟩
      exact hw.setDrain ((h.drains i).goes_off _ (h.drains i).rest rfl)
  | ask target hphase => exact ⟨h.puts, h.pending, h.drains⟩
  | @forgot f ids outcome hphase hforgot =>
      have hw := hstill (moves_forgetIds ids outcome w.spool) fun _ _ _ hgone _ _ => .inl hgone
      exact ⟨hw.puts, hw.pending, hw.drains⟩
  | @rejected f ids outcome hphase =>
      have hw := hstill (moves_forgetIds ids outcome w.spool) fun _ _ _ hgone _ _ => .inl hgone
      exact ⟨hw.puts, hw.pending, hw.drains⟩
  | resolve hphase hreleased => exact ⟨h.puts, h.pending, h.drains⟩

/-! ### Opening -/

/-- Every pending line of a journal that has been read back reads as a turn of its id. -/
theorem reads_openSpool (es : List SpoolEntry) {id : String}
    (h : (openSpool fmt es).index.pending.get? id = some entry) :
    ∃ turn, turn.id = id ∧ Reads fmt (openSpool fmt es).journal.file entry turn := by
  induction es using List.reverseRecOn generalizing id entry with
  | nil => cases h
  | append_singleton es e ih =>
      have hfile : (openSpool fmt (es ++ [e])).journal.file =
          (openSpool fmt es).journal.file ++ fmt.text [e] := fmt.text_append es [e]
      have hindex : (openSpool fmt (es ++ [e])).index =
          SpoolIndex.applyLine (fmt.text es).length (fmt.line e).length e (openSpool fmt es).index := by
        change fmt.replay SpoolIndex.applyLine 0 (es ++ [e]) {} = _
        rw [fmt.replay_append, Nat.zero_add]
        rfl
      have hold : ∀ {id entry}, (openSpool fmt es).index.pending.get? id = some entry →
          ∃ turn, turn.id = id ∧ Reads fmt (openSpool fmt (es ++ [e])).journal.file entry turn := by
        intro id entry hget
        obtain ⟨turn, hid, hread⟩ := ih hget
        exact ⟨turn, hid, hfile ▸ hread.append _⟩
      rw [hindex] at h
      cases e with
      | put turn queuedAt =>
          unfold SpoolIndex.applyLine at h
          simp only at h
          split at h
          · exact hold h
          · rw [OrdMap.get?_set] at h
            split at h
            · next hid =>
                obtain rfl := Option.some.inj h
                refine ⟨turn, hid.symm, reads_line queuedAt ?_ ?_⟩
                · rw [hfile, fmt.text_cons, fmt.text_nil, List.append_nil, List.length_append]
                  exact Nat.le_refl _
                · rw [hfile, fmt.text_cons, fmt.text_nil, List.append_nil]
                  exact (congrArg (List.take _) List.drop_left).trans List.take_length
            · exact hold h
      | extracted id' marker =>
          unfold SpoolIndex.applyLine at h
          simp only at h
          split at h
          · exact hold h
          · exact hold h
      | done id' =>
          unfold SpoolIndex.applyLine at h
          simp only [OrdMap.get?_erase] at h
          split at h
          · cases h
          · exact hold h
      | forget id' =>
          unfold SpoolIndex.applyLine at h
          simp only [OrdMap.get?_erase] at h
          split at h
          · cases h
          · exact hold h

theorem sound_openWorld (es : List SpoolEntry) : Sound fmt (openWorld fmt es) := by
  refine ⟨fun turn offset replaced hput => ?_, fun id entry hget => reads_openSpool es hget,
    fun i => ⟨List.nodup_nil, fun _ _ hmem => (nomatch hmem), List.Subset.refl _,
      fun _ _ hphase => (nomatch hphase), fun _ _ _ hphase => (nomatch hphase),
      fun _ hdone => (nomatch hdone)⟩⟩
  obtain ⟨⟨id, entry⟩, hmem, hevent⟩ := List.mem_filterMap.mp hput
  have hget := OrdMap.get?_eq_some.mpr hmem
  obtain ⟨turn₀, hid, hread⟩ := reads_openSpool es hget
  rw [hread.1] at hevent
  obtain ⟨rfl, rfl, -⟩ := SpoolEvent.put.inj (Option.some.inj hevent)
  exact .inl ⟨entry, hid ▸ hget, rfl, hread⟩

end

/-! ### Runs -/

/-- **No put is lost**, where drains mark only what they have written: in every run of drains,
captures, appends, extractions and forgets, a put line that has become durable stays pending until
a write callback has succeeded with its turn, or its id is forgotten, or a later put of the id
replaces it. -/
theorem kept_run (es : List SpoolEntry) {as : List SpoolStep} {w : SpoolWorld}
    (hmarks : Runs.Along (SpoolWorld.step spoolFormat) SpoolWorld.MarksWritten
      (openWorld spoolFormat es) as)
    (hrun : Runs.exec (SpoolWorld.step spoolFormat) (openWorld spoolFormat es) as = some w) :
    w.NothingLost := by
  have hsound : Sound spoolFormat w :=
    Runs.exec_invariant (fun _ _ _ h hm hs => sound_step h hm hs) (sound_openWorld es) hmarks hrun
  intro turn offset replaced hput
  rcases hsound.puts turn offset replaced hput with ⟨entry, hget, hoffset, -⟩ | hother
  · exact .inl ⟨entry, hget, hoffset⟩
  · exact .inr hother

/-! ### A drain of one turn -/

section
variable (fmt : LineFormat SpoolEntry UInt8)

/-- Where a capture of the turn stands in a journal of that length. -/
def entryOfOne (content hmac : String) (offset : Nat) : Pending :=
  SpoolIndex.pendingOf (turnOfOne content hmac) "t" offset
    (fmt.line (.put (turnOfOne content hmac) (some "t"))).length

/-- The turn has been captured. -/
def spoolOfOne : Spool where
  journal := { file := fmt.text (putLines "t" [turnOfOne "one" "h1"]) }
  index := { pending := .set .empty "x" (entryOfOne fmt "one" "h1" 0) }

/-- The turn has been captured again, with other content. -/
def spoolOfTwo : Spool where
  journal :=
    { file := (spoolOfOne fmt).journal.file ++ fmt.text (putLines "t" [turnOfOne "two" "h2"]) }
  index :=
    { pending := .set .empty "x" (entryOfOne fmt "two" "h2" (spoolOfOne fmt).journal.file.length) }

theorem commitCapture_two :
    commitCapture fmt [turnOfOne "two" "h2"] [] "t" .synced (spoolOfOne fmt) =
      (spoolOfTwo fmt, true) := by
  have hputs : (spoolOfOne fmt).index.capturePuts [turnOfOne "two" "h2"] =
      [turnOfOne "two" "h2"] := rfl
  have happends : (spoolOfOne fmt).appends .synced = true := rfl
  unfold commitCapture
  simp only [hputs]
  rw [Spool.write_appends fmt happends]
  · rfl
  · exact fun hnil => absurd hnil (List.cons_ne_nil _ _)

/-- The turn is pending. -/
def capturedOne : SpoolWorld where
  spool := spoolOfOne fmt
  events := [.put (turnOfOne "one" "h1") 0 none]

/-- A drain has been let through to the turn. -/
def readingOne : SpoolWorld :=
  let w := (capturedOne fmt).startStep 0 1000
  w.nextStep 0 (w.drains 0)

/-- The drain is in its write callback. -/
def writingOne : SpoolWorld :=
  (readingOne fmt).setDrain 0
    { (readingOne fmt).drains 0 with
      phase := .writing "x" (entryOfOne fmt "one" "h1" 0) (turnOfOne "one" "h1") }

theorem step_readingOne : (readingOne fmt).step fmt (.read 0 true) = some (writingOne fmt) := by
  have hread : readTurn fmt (readingOne fmt).spool.journal.file (entryOfOne fmt "one" "h1" 0) =
      some (turnOfOne "one" "h1") := by
    have hput : (turnOfOne "one" "h1", (0, (entryOfOne fmt "one" "h1" 0).length)) ∈
        [turnOfOne "one" "h1"].zip
          (fmt.positions ([] : List UInt8).length (putLines "t" [turnOfOne "one" "h1"])) :=
      List.mem_cons_self
    exact (reads_put hput).1
  have hstep : (readingOne fmt).step fmt (.read 0 true) = some ((readingOne fmt).readStep fmt 0
      ((readingOne fmt).drains 0) "x" (entryOfOne fmt "one" "h1" 0) true) := rfl
  rw [hstep]
  unfold SpoolWorld.readStep
  rw [if_pos rfl, hread]
  rfl

theorem exec_writingOne (as : List SpoolStep) :
    Runs.exec (SpoolWorld.step fmt) (openWorld fmt [])
      (.capture [turnOfOne "one" "h1"] [] "t" .synced :: .start 0 1000 :: .next 0 ::
        .read 0 true :: as) =
      Runs.exec (SpoolWorld.step fmt) (writingOne fmt) as := by
  change (SpoolWorld.step fmt (readingOne fmt) (.read 0 true)).bind
    (fun w => Runs.exec (SpoolWorld.step fmt) w as) = _
  rw [step_readingOne]
  rfl

/-- While the write callback runs, the turn is captured again. -/
def recapturedOne : SpoolWorld :=
  { writingOne fmt with
    spool := spoolOfTwo fmt
    events := [.put (turnOfOne "one" "h1") 0 none,
      .put (turnOfOne "two" "h2") (spoolOfOne fmt).journal.file.length (some 0)] }

theorem step_recapturedOne :
    (writingOne fmt).step fmt (.capture [turnOfOne "two" "h2"] [] "t" .synced) =
      some (recapturedOne fmt) := by
  change some ((writingOne fmt).captureStep fmt [turnOfOne "two" "h2"] [] "t" .synced) = _
  unfold SpoolWorld.captureStep
  have hspool : (writingOne fmt).spool = spoolOfOne fmt := rfl
  have hputs : (spoolOfOne fmt).index.capturePuts [turnOfOne "two" "h2"] =
      [turnOfOne "two" "h2"] := rfl
  rw [hspool, commitCapture_two, hputs]
  rfl

/-- The write callback has succeeded. -/
def writtenOne : SpoolWorld :=
  let w := (recapturedOne fmt).writeStep 0 ((recapturedOne fmt).drains 0) "x"
    (entryOfOne fmt "one" "h1" 0) (turnOfOne "one" "h1") true
  w.nextStep 0 (w.drains 0)

/-- What has been written is marked. -/
def lostOne : SpoolWorld := (writtenOne fmt).markStep fmt 0 ((writtenOne fmt).drains 0) .synced

theorem exec_lostOne :
    Runs.exec (SpoolWorld.step fmt) (writingOne fmt)
      [.capture [turnOfOne "two" "h2"] [] "t" .synced, .write 0 true, .next 0, .mark 0 .synced] =
      some (lostOne fmt) := by
  have hwritten : Runs.exec (SpoolWorld.step fmt) (recapturedOne fmt) [.write 0 true, .next 0] =
      some (writtenOne fmt) := rfl
  have hmarked : Runs.exec (SpoolWorld.step fmt) (writtenOne fmt) [.mark 0 .synced] =
      some (lostOne fmt) := rfl
  have hsplit : Runs.exec (SpoolWorld.step fmt) (recapturedOne fmt)
      ([.write 0 true, .next 0] ++ [.mark 0 .synced]) = some (lostOne fmt) := by
    rw [Runs.exec_append, hwritten]
    exact hmarked
  rw [Runs.exec, step_recapturedOne]
  exact hsplit

theorem not_nothingLost_lostOne : ¬(lostOne fmt).NothingLost := by
  have hevents : (lostOne fmt).events =
      [.put (turnOfOne "one" "h1") 0 none,
        .put (turnOfOne "two" "h2") (spoolOfOne fmt).journal.file.length (some 0),
        .wrote (turnOfOne "one" "h1") 0] := rfl
  have hlength : (spoolOfOne fmt).journal.file.length ≠ 0 := by
    simp [spoolOfOne, putLines, LineFormat.line]
  have hcontent : turnOfOne "two" "h2" ≠ turnOfOne "one" "h1" := by decide
  intro hkept
  have hput : SpoolEvent.put (turnOfOne "two" "h2") (spoolOfOne fmt).journal.file.length (some 0) ∈
      (lostOne fmt).events := by
    rw [hevents]
    exact List.mem_cons_of_mem _ List.mem_cons_self
  rcases hkept _ _ _ hput with ⟨entry, hget, -⟩ | hwrote | hforgotten | ⟨turn, offset, hagain, -⟩
  · cases (hget : none = some entry)
  · rw [hevents] at hwrote
    simp [hcontent] at hwrote
  · cases (hforgotten : false = true)
  · rw [hevents] at hagain
    simp [hlength] at hagain

end

/-- A turn that is captured, drained and marked. -/
theorem kept_run_one : ∃ w, Runs.exec (SpoolWorld.step spoolFormat) (openWorld spoolFormat [])
    [.capture [turnOfOne "one" "h1"] [] "t" .synced, .start 0 1000, .next 0, .read 0 true,
      .write 0 true, .next 0, .mark 0 .synced] = some w ∧ w.NothingLost := by
  have hrun := exec_writingOne spoolFormat [.write 0 true, .next 0, .mark 0 .synced]
  refine ⟨_, hrun.trans rfl, kept_run [] ?_ (hrun.trans rfl)⟩
  refine .cons trivial rfl (.cons trivial rfl (.cons trivial rfl
    (.cons trivial (step_readingOne spoolFormat) (.cons trivial rfl (.cons trivial rfl
      (.cons ?_ rfl trivial))))))
  intro _ id hdone _ entry hget
  obtain rfl := List.mem_singleton.mp hdone
  refine ⟨0, ?_, hdone⟩
  obtain rfl := Option.some.inj hget
  exact List.mem_cons_self

/-- **A capture is lost**: while the write callback runs, the turn is captured again with other
content; the mark takes the new line away, which was never written. -/
theorem drain_loses_capture :
    ∃ w, Runs.exec (SpoolWorld.step spoolFormat) (openWorld spoolFormat [])
      [.capture [turnOfOne "one" "h1"] [] "t" .synced, .start 0 1000, .next 0, .read 0 true,
        .capture [turnOfOne "two" "h2"] [] "t" .synced, .write 0 true, .next 0,
        .mark 0 .synced] = some w ∧ ¬w.NothingLost := by
  exact ⟨lostOne spoolFormat, (exec_writingOne spoolFormat _).trans (exec_lostOne spoolFormat),
    not_nothingLost_lostOne spoolFormat⟩

end Runir
