import Runir.Capture.SpoolRuns

/-!
# Capture — What a call does to the pending turns

One description of every call's turn in the sequence, for the invariants to be read off from.

* `Reads`: the line of a pending turn is in the journal and holds that turn.
* `Moves`: the journal grows; what is put is pending by its own line; what is not put stays as it
  was, or goes for a reason.
* `moves_flushAppends`, `moves_commitCapture`, …: each call moves the spool so.
-/

namespace Runir

/-! ### The ids of what is staged -/

namespace SpoolIndex
variable {s : SpoolIndex}

/-- Staged turns have distinct ids. -/
theorem Staged.ids_nodup {staged : OrdMap String SourceTurn} (h : s.Staged staged) :
    (staged.values.map (·.id)).Nodup := by
  have hkeys : staged.values.map (·.id) = staged.keys := by
    unfold OrdMap.values OrdMap.keys
    rw [List.map_map]
    refine List.map_congr_left fun e he => ?_
    exact (h e.1 e.2 (OrdMap.get?_eq_some.mpr he)).1
  rw [hkeys]
  exact staged.keys_nodup

theorem ids_nodup_capturePuts (turns : List SourceTurn) :
    ((s.capturePuts turns).map (·.id)).Nodup :=
  (staged_captures turns .empty).ids_nodup

theorem ids_nodup_stageAppends (turns : List SourceTurn) :
    ((s.stageAppends turns .empty).2.values.map (·.id)).Nodup :=
  (staged_stageAppends turns .empty).ids_nodup

/-! ### Lookups after a call -/

@[simp] theorem foldl_recordExtracted_pending (turns : List SourceTurn) (s : SpoolIndex) :
    (turns.foldl recordExtracted s).pending = s.pending := by
  induction turns generalizing s with
  | nil => rfl
  | cons turn turns ih => exact ih _

@[simp] theorem foldl_recordExtracted_forgotten (turns : List SourceTurn) (s : SpoolIndex) :
    (turns.foldl recordExtracted s).forgotten = s.forgotten := by
  induction turns generalizing s with
  | nil => rfl
  | cons turn turns ih => exact ih _

@[simp] theorem foldl_recordDone_forgotten (ids : List String) (s : SpoolIndex) :
    (ids.foldl recordDone s).forgotten = s.forgotten := by
  induction ids generalizing s with
  | nil => rfl
  | cons id ids ih => exact ih _

theorem get?_foldl_recordDone (ids : List String) (s : SpoolIndex) (id : String) :
    (ids.foldl recordDone s).pending.get? id = if id ∈ ids then none else s.pending.get? id := by
  induction ids generalizing s with
  | nil => simp
  | cons id' ids ih =>
      rw [List.foldl_cons, ih, recordDone, OrdMap.get?_erase]
      by_cases h : id = id'
      · simp [h]
      · simp [h]

theorem get?_foldl_recordForgotten (ids : List String) (s : SpoolIndex) (id : String) :
    (ids.foldl recordForgotten s).pending.get? id =
      if id ∈ ids then none else s.pending.get? id := by
  induction ids generalizing s with
  | nil => simp
  | cons id' ids ih =>
      rw [List.foldl_cons, ih, recordForgotten, OrdMap.get?_erase]
      by_cases h : id = id'
      · simp [h]
      · simp [h]

theorem isForgotten_recordForgotten (s : SpoolIndex) (id id' : String) :
    (s.recordForgotten id').isForgotten id = (decide (id = id') || s.isForgotten id) := by
  unfold recordForgotten isForgotten
  by_cases hin : id' ∈ s.forgotten
  · by_cases h : id = id'
    · subst h
      simp [hin]
    · simp [hin, h]
  · simp [hin, or_comm]

theorem isForgotten_foldl_recordForgotten (ids : List String) (s : SpoolIndex) (id : String) :
    (ids.foldl recordForgotten s).isForgotten id = (decide (id ∈ ids) || s.isForgotten id) := by
  induction ids generalizing s with
  | nil => simp
  | cons id' ids ih =>
      rw [List.foldl_cons, ih, isForgotten_recordForgotten, ← Bool.or_assoc]
      congr 1
      rw [← Bool.decide_or]
      exact decide_eq_decide.mpr (by rw [List.mem_cons, or_comm])

end SpoolIndex

theorem recordPuts_pending (queuedAt : String) (puts : List SourceTurn)
    (positions : List (Nat × Nat)) (s : SpoolIndex) :
    (recordPuts queuedAt puts positions s).pending =
      ((puts.zip positions).map fun put =>
        (put.1.id, SpoolIndex.pendingOf put.1 queuedAt put.2.1 put.2.2)).foldl
          (fun m e => m.set e.1 e.2) s.pending := by
  unfold recordPuts
  induction puts.zip positions generalizing s with
  | nil => rfl
  | cons put rest ih => exact ih _

/-- Of puts with distinct ids, each is pending by its own line; any other id is as before. -/
theorem get?_recordPuts (queuedAt : String) {puts : List SourceTurn} {positions : List (Nat × Nat)}
    (hlen : positions.length = puts.length) (h : (puts.map (·.id)).Nodup) (s : SpoolIndex) :
    (∀ put ∈ puts.zip positions,
      (recordPuts queuedAt puts positions s).pending.get? put.1.id =
        some (SpoolIndex.pendingOf put.1 queuedAt put.2.1 put.2.2)) ∧
      ∀ id, (∀ put ∈ puts.zip positions, put.1.id ≠ id) →
        (recordPuts queuedAt puts positions s).pending.get? id = s.pending.get? id := by
  have hkeys : (((puts.zip positions).map fun put =>
      (put.1.id, SpoolIndex.pendingOf put.1 queuedAt put.2.1 put.2.2)).map Prod.fst).Nodup := by
    have hids : ((puts.zip positions).map fun put =>
        (put.1.id, SpoolIndex.pendingOf put.1 queuedAt put.2.1 put.2.2)).map Prod.fst =
          puts.map (·.id) := by
      rw [List.map_map]
      have hfst : (puts.zip positions).map Prod.fst = puts :=
        List.map_fst_zip (Nat.le_of_eq hlen.symm)
      conv_rhs => rw [← hfst, List.map_map]
      rfl
    rw [hids]
    exact h
  refine ⟨fun put hput => ?_, fun id hid => ?_⟩
  · rw [recordPuts_pending, OrdMap.get?_foldl_set_entries hkeys]
    have hfind := (OrdMap.find_eq_some hkeys).mpr (List.mem_map.mpr ⟨put, hput, rfl⟩)
    rw [hfind]
    rfl
  · rw [recordPuts_pending, OrdMap.get?_foldl_set_entries hkeys]
    have hfind : OrdMap.find id ((puts.zip positions).map fun put =>
        (put.1.id, SpoolIndex.pendingOf put.1 queuedAt put.2.1 put.2.2)) = none := by
      refine Option.not_isSome_iff_eq_none.mp fun hsome => ?_
      obtain ⟨e, he, hkey⟩ := List.mem_map.mp (OrdMap.isSome_find.mp hsome)
      obtain ⟨put, hput, rfl⟩ := List.mem_map.mp he
      exact hid put hput hkey
    rw [hfind]
    rfl

/-! ### An append -/

section
variable (fmt : LineFormat SpoolEntry UInt8)

/-- A call whose append goes through. -/
theorem Spool.write_appends {s : Spool} {outcome : AppendOutcome} {lines : List SpoolEntry}
    {update : List (Nat × Nat) → SpoolIndex → SpoolIndex} (h : s.appends outcome = true)
    (hnil : lines = [] → update [] s.index = s.index) :
    s.write fmt outcome lines update =
      (⟨{ s.journal with file := s.journal.file ++ fmt.text lines },
        update (fmt.positions s.journal.file.length lines) s.index⟩, true) := by
  obtain ⟨⟨file, failed⟩, index⟩ := s
  unfold Spool.appends at h
  rw [Bool.and_eq_true] at h
  obtain ⟨hfailed, hsynced⟩ := h
  obtain rfl := of_decide_eq_true hsynced
  obtain rfl : failed = false := Bool.not_eq_true' _ ▸ hfailed
  unfold Spool.write
  by_cases hlines : lines = []
  · subst hlines
    rw [if_pos rfl, LineFormat.text_nil, List.append_nil, LineFormat.positions, hnil rfl]
  · rw [if_neg hlines]
    rfl

/-- A call whose append does not go through leaves the index; the file may have grown. -/
theorem Spool.write_fails {s : Spool} {outcome : AppendOutcome} (h : s.appends outcome = false)
    (lines : List SpoolEntry) (update : List (Nat × Nat) → SpoolIndex → SpoolIndex) :
    (∃ g, (s.write fmt outcome lines update).1.journal.file = s.journal.file ++ g) ∧
      (s.write fmt outcome lines update).1.index = s.index ∧
        ((s.write fmt outcome lines update).2 = true → lines = []) := by
  unfold Spool.write
  by_cases hlines : lines = []
  · rw [if_pos hlines]
    exact ⟨⟨[], (List.append_nil _).symm⟩, rfl, fun _ => hlines⟩
  · rw [if_neg hlines]
    unfold appendLines
    cases hfailed : s.journal.rollbackFailed with
    | true => exact ⟨⟨[], (List.append_nil _).symm⟩, rfl, fun hret => nomatch hret⟩
    | false =>
        cases outcome with
        | synced =>
            unfold Spool.appends at h
            rw [hfailed] at h
            cases h
        | rolledBack => exact ⟨⟨[], (List.append_nil _).symm⟩, rfl, fun hret => nomatch hret⟩
        | stuck left => exact ⟨⟨_, rfl⟩, rfl, fun hret => nomatch hret⟩

/-! ### Lines and turns -/

/-- The line an entry points at is in the file, and holds the turn. -/
def Reads (file : List UInt8) (entry : Pending) (turn : SourceTurn) : Prop :=
  readTurn fmt file entry = some turn ∧ entry.offset + entry.length ≤ file.length

/-- What a call does: `puts` are pending where they stand, and what is no longer pending is
`gone`. -/
structure Moves (s s' : Spool) (puts : List (SourceTurn × (Nat × Nat))) (gone : String → Prop) :
    Prop where
  grows : ∃ g, s'.journal.file = s.journal.file ++ g
  put : ∀ put ∈ puts, ∃ entry, s'.index.pending.get? put.1.id = some entry ∧
    entry.offset = put.2.1 ∧ Reads fmt s'.journal.file entry put.1 ∧
      s.journal.file.length ≤ put.2.1
  kept : ∀ id, (∀ put ∈ puts, put.1.id ≠ id) →
    s'.index.pending.get? id = s.index.pending.get? id ∨
      s'.index.pending.get? id = none ∧ gone id
  forgotten : ∀ id, s.index.isForgotten id = true → s'.index.isForgotten id = true

variable {fmt} {entry : Pending} {turn : SourceTurn}

/-- A line stays where it is as the file grows. -/
theorem Reads.append {file : List UInt8}
    (h : Reads fmt file entry turn) (g : List UInt8) : Reads fmt (file ++ g) entry turn := by
  obtain ⟨hread, hin⟩ := h
  have hbody : ((file ++ g).drop entry.offset).take entry.length =
      (file.drop entry.offset).take entry.length := by
    rw [List.drop_append_of_le_length (by omega), List.take_append_of_le_length]
    rw [List.length_drop]
    omega
  refine ⟨?_, ?_⟩
  · unfold readTurn at hread ⊢
    rw [hbody]
    exact hread
  · rw [List.length_append]
    omega

variable {s s' : Spool} {gone : String → Prop}

theorem Moves.reads {puts : List (SourceTurn × (Nat × Nat))} (h : Moves fmt s s' puts gone)
    (hread : Reads fmt s.journal.file entry turn) : Reads fmt s'.journal.file entry turn := by
  obtain ⟨g, hg⟩ := h.grows
  rw [hg]
  exact hread.append g

/-- What is pending after a call was pending before it, or has been put by it. -/
theorem Moves.pending {puts : List (SourceTurn × (Nat × Nat))}
    (h : Moves fmt s s' puts gone) {id : String} (hget : s'.index.pending.get? id = some entry) :
    s.index.pending.get? id = some entry ∨ s.journal.file.length ≤ entry.offset := by
  by_cases hput : ∃ put ∈ puts, put.1.id = id
  · obtain ⟨put, hmem, rfl⟩ := hput
    obtain ⟨entry', hget', hoffset, -, hlater⟩ := h.put put hmem
    obtain rfl := Option.some.inj (hget.symm.trans hget')
    rw [hoffset]
    exact .inr hlater
  · rcases h.kept id fun put hmem hid => hput ⟨put, hmem, hid⟩ with hkept | ⟨hnone, -⟩
    · exact .inl (hkept.symm.trans hget)
    · cases hnone.symm.trans hget

theorem Moves.longer {puts : List (SourceTurn × (Nat × Nat))}
    (h : Moves fmt s s' puts gone) : s.journal.file.length ≤ s'.journal.file.length := by
  obtain ⟨g, hg⟩ := h.grows
  rw [hg, List.length_append]
  exact Nat.le_add_right _ _

/-- A put's line reads as its turn. -/
theorem reads_line {file : List UInt8}
    (queuedAt : Option String) (hin : entry.offset + entry.length ≤ file.length)
    (hline : (file.drop entry.offset).take entry.length = fmt.line (.put turn queuedAt)) :
    Reads fmt file entry turn := by
  refine ⟨?_, hin⟩
  have hlength : ¬ ((file.drop entry.offset).take entry.length).length < entry.length := by
    rw [List.length_take, List.length_drop]
    omega
  unfold readTurn
  simp only
  rw [if_neg hlength, hline, LineFormat.line, fmt.parse_line]

/-- A put that has just been appended reads as its turn. -/
theorem reads_put {file : List UInt8} {queuedAt : String} {puts : List SourceTurn}
    {put : SourceTurn × (Nat × Nat)}
    (h : put ∈ puts.zip (fmt.positions file.length (putLines queuedAt puts))) :
    Reads fmt (file ++ fmt.text (putLines queuedAt puts))
      (SpoolIndex.pendingOf put.1 queuedAt put.2.1 put.2.2) put.1 := by
  have hline : (SpoolEntry.put put.1 (some queuedAt), put.2) ∈
      (putLines queuedAt puts).zip (fmt.positions file.length (putLines queuedAt puts)) := by
    have hmap : (putLines queuedAt puts).zip (fmt.positions file.length (putLines queuedAt puts)) =
        (puts.zip (fmt.positions file.length (putLines queuedAt puts))).map
          (Prod.map (fun turn => SpoolEntry.put turn (some queuedAt)) id) := by
      rw [putLines, ← List.zip_map_left]
    rw [hmap]
    exact List.mem_map.mpr ⟨_, h, rfl⟩
  obtain ⟨hbody, hin⟩ := fmt.read_position hline []
  rw [List.append_nil] at hbody
  exact reads_line (some queuedAt) hin hbody

/-- Where lines are appended, they stand after the file. -/
theorem le_position {offset : Nat} {es : List SpoolEntry} {pos : Nat × Nat}
    (h : pos ∈ fmt.positions offset es) : offset ≤ pos.1 := by
  induction es generalizing offset with
  | nil => cases h
  | cons e es ih =>
      rcases List.mem_cons.mp h with rfl | hmem
      · exact Nat.le_refl _
      · exact (Nat.le_add_right _ _).trans (ih hmem)

/-! ### Calls -/

/-- A call that leaves the index. -/
theorem Moves.still (hfile : ∃ g, s'.journal.file = s.journal.file ++ g)
    (hindex : s'.index = s.index) (gone : String → Prop) : Moves fmt s s' [] gone where
  grows := hfile
  put := fun _ hmem => nomatch hmem
  kept := fun id _ => .inl (by rw [hindex])
  forgotten := fun id h => by rw [hindex]; exact h

/-- A call that puts turns with distinct ids, and takes none away. -/
theorem Moves.puts {s : Spool} {queuedAt : String} {puts : List SourceTurn}
    (hids : (puts.map (·.id)).Nodup) {lines rest : List SpoolEntry} {index : SpoolIndex}
    {failed : Bool} (hlines : lines = putLines queuedAt puts ++ rest)
    (hpending : index.pending = (recordPuts queuedAt puts
      (fmt.positions s.journal.file.length (putLines queuedAt puts)) s.index).pending)
    (hforgotten : index.forgotten = s.index.forgotten) :
    Moves fmt s ⟨⟨s.journal.file ++ fmt.text lines, failed⟩, index⟩
      (puts.zip (fmt.positions s.journal.file.length (putLines queuedAt puts)))
      fun _ => False := by
  subst hlines
  have hlen : (fmt.positions s.journal.file.length (putLines queuedAt puts)).length =
      puts.length := by
    rw [fmt.length_positions, putLines, List.length_map]
  obtain ⟨hput, hkept⟩ := get?_recordPuts queuedAt hlen hids s.index
  refine ⟨⟨_, rfl⟩, fun put hmem => ?_, fun id hid => .inl ?_, fun id h => ?_⟩
  · refine ⟨SpoolIndex.pendingOf put.1 queuedAt put.2.1 put.2.2, ?_, rfl, ?_, ?_⟩
    · rw [hpending]
      exact hput put hmem
    · rw [fmt.text_append, ← List.append_assoc]
      exact (reads_put hmem).append _
    · exact le_position (List.of_mem_zip hmem).2
  · rw [hpending]
    exact hkept id hid
  · unfold SpoolIndex.isForgotten
    rw [hforgotten]
    exact h

theorem moves_flushAppends (requests : List (List SourceTurn)) (queuedAt : String)
    (outcome : AppendOutcome) (s : Spool) :
    Moves fmt s (flushAppends fmt requests queuedAt outcome s).1
      (putsAt fmt outcome queuedAt (s.index.stageAppends requests.flatten .empty).2.values s)
      fun _ => False := by
  rw [flushAppends_fst]
  unfold putsAt
  cases happends : s.appends outcome with
  | true =>
      rw [Spool.write_appends fmt happends, if_pos rfl]
      · exact Moves.puts (SpoolIndex.ids_nodup_stageAppends requests.flatten)
          (List.append_nil _).symm rfl (recordPuts_forgotten _ _ _ _)
      · intro hnil
        rw [List.map_eq_nil_iff.mp hnil]
        rfl
  | false =>
      obtain ⟨hfile, hindex, -⟩ := Spool.write_fails fmt happends _ _
      exact .still hfile hindex _

theorem moves_commitCapture (turns completed : List SourceTurn) (queuedAt : String)
    (outcome : AppendOutcome) (s : Spool) :
    Moves fmt s (commitCapture fmt turns completed queuedAt outcome s).1
      (putsAt fmt outcome queuedAt (s.index.capturePuts turns) s) fun _ => False := by
  unfold commitCapture putsAt
  simp only
  cases happends : s.appends outcome with
  | true =>
      rw [Spool.write_appends fmt happends, if_pos rfl]
      · refine Moves.puts (SpoolIndex.ids_nodup_capturePuts turns) rfl ?_ ?_
        · rw [SpoolIndex.foldl_recordExtracted_pending, recordPuts_positions]
        · rw [SpoolIndex.foldl_recordExtracted_forgotten, recordPuts_forgotten]
      · intro hnil
        obtain ⟨hputs, hmarkers⟩ := List.append_eq_nil_iff.mp hnil
        rw [List.map_eq_nil_iff.mp hputs, List.map_eq_nil_iff.mp hmarkers]
        rfl
  | false =>
      obtain ⟨hfile, hindex, -⟩ := Spool.write_fails fmt happends _ _
      exact .still hfile hindex _

theorem moves_markExtracted (turns : List SourceTurn) (outcome : AppendOutcome) (s : Spool) :
    Moves fmt s (markExtracted fmt turns outcome s).1 [] fun _ => False := by
  unfold markExtracted
  simp only
  cases happends : s.appends outcome with
  | true =>
      rw [Spool.write_appends fmt happends]
      · refine ⟨⟨_, rfl⟩, fun _ hmem => (nomatch hmem), fun id _ => .inl ?_, fun id h => ?_⟩
        · rw [SpoolIndex.foldl_recordExtracted_pending]
        · unfold SpoolIndex.isForgotten
          rw [SpoolIndex.foldl_recordExtracted_forgotten]
          exact h
      · intro hnil
        rw [List.map_eq_nil_iff.mp hnil]
        rfl
  | false =>
      obtain ⟨hfile, hindex, -⟩ := Spool.write_fails fmt happends _ _
      exact .still hfile hindex _

/-- The end of a drain takes away ids it has written, where its append goes through. -/
theorem moves_markDone (done : List String) (outcome : AppendOutcome) (s : Spool) :
    Moves fmt s (markDone fmt done outcome s).1 [] fun id =>
      id ∈ done ∧ s.index.isForgotten id = false ∧ s.appends outcome = true := by
  unfold markDone
  simp only
  cases happends : s.appends outcome with
  | true =>
      rw [Spool.write_appends fmt happends]
      · refine ⟨⟨_, rfl⟩, by simp, fun id _ => ?_, fun id h => ?_⟩
        · rw [SpoolIndex.get?_foldl_recordDone]
          by_cases hmem : id ∈ done.filter fun id =>
              (s.index.pending.get? id).isSome && !s.index.isForgotten id
          · obtain ⟨hdone, heligible⟩ := List.mem_filter.mp hmem
            rw [Bool.and_eq_true, Bool.not_eq_true'] at heligible
            exact .inr ⟨if_pos hmem, hdone, heligible.2, rfl⟩
          · exact .inl (if_neg hmem)
        · unfold SpoolIndex.isForgotten
          rw [SpoolIndex.foldl_recordDone_forgotten]
          exact h
      · intro hnil
        rw [List.map_eq_nil_iff.mp hnil]
        rfl
  | false =>
      obtain ⟨hfile, hindex, -⟩ := Spool.write_fails fmt happends _ _
      exact .still hfile hindex _

/-- A forget takes away what it forgets. -/
theorem moves_forgetIds (ids : List String) (outcome : AppendOutcome) (s : Spool) :
    Moves fmt s (forgetIds fmt ids outcome s).1 [] fun id =>
      (forgetIds fmt ids outcome s).1.index.isForgotten id = true := by
  unfold forgetIds
  cases happends : s.appends outcome with
  | true =>
      rw [Spool.write_appends fmt happends]
      · refine ⟨⟨_, rfl⟩, fun _ hmem => (nomatch hmem), fun id _ => ?_, fun id h => ?_⟩
        · rw [SpoolIndex.get?_foldl_recordForgotten, SpoolIndex.isForgotten_foldl_recordForgotten]
          by_cases hmem : id ∈ ids
          · exact .inr ⟨if_pos hmem, by rw [decide_eq_true hmem, Bool.true_or]⟩
          · exact .inl (if_neg hmem)
        · rw [SpoolIndex.isForgotten_foldl_recordForgotten, h, Bool.or_true]
      · intro hnil
        rw [List.map_eq_nil_iff.mp hnil]
        rfl
  | false =>
      obtain ⟨hfile, hindex, -⟩ := Spool.write_fails fmt happends _ _
      exact .still hfile hindex _

end

end Runir
