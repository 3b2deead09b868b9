import Runir.Capture.SpoolFormat
import Runir.Lib.Runs

/-!
# Capture — Replaying the spool

The live updates of the spool against the loop of `initialize`.

* `Represents`: the journal holds some entries, and the index is what they replay to.
* `SpoolOp`: the calls, each with how its append ends; a drain counts for the ids it marks.
* `replay_eq_live`: after any calls whose rollbacks succeed, reading the journal back, whole or in
  chunks, gives the live index, and cut at any byte the index after some of its lines.
-/

namespace Runir

/-! ### What is staged -/

namespace SpoolIndex
variable {s : SpoolIndex}

/-- Every staged turn is under its own id, which is not forgotten. -/
def Staged (s : SpoolIndex) (staged : OrdMap String SourceTurn) : Prop :=
  ∀ id turn, staged.get? id = some turn → turn.id = id ∧ s.isForgotten turn.id = false

theorem Staged.empty : s.Staged .empty := fun _ _ h => by cases h

variable {staged : OrdMap String SourceTurn}

theorem Staged.set (h : s.Staged staged) {turn : SourceTurn}
    (hturn : s.isForgotten turn.id = false) : s.Staged (staged.set turn.id turn) := by
  intro id turn' hget
  rw [OrdMap.get?_set] at hget
  split at hget
  · next heq =>
      obtain rfl := Option.some.inj hget
      exact ⟨heq.symm, hturn⟩
  · exact h id turn' hget

theorem Staged.values (h : s.Staged staged) {turn : SourceTurn}
    (hmem : turn ∈ staged.values) : s.isForgotten turn.id = false := by
  obtain ⟨id, hget⟩ := OrdMap.mem_values.mp hmem
  exact (h id turn hget).2

theorem staged_stageCapture (h : s.Staged staged)
    (turn : SourceTurn) : s.Staged (s.stageCapture staged turn) := by
  unfold stageCapture
  split
  · exact h
  · next hforgotten =>
      split
      · exact h
      · exact h.set (Bool.eq_false_iff.mpr hforgotten)

theorem staged_captures (turns : List SourceTurn)
    (h : s.Staged staged) : s.Staged (turns.foldl s.stageCapture staged) := by
  induction turns generalizing staged with
  | nil => exact h
  | cons turn turns ih => exact ih (staged_stageCapture h turn)

theorem staged_stageAppend (h : s.Staged staged)
    (turn : SourceTurn) : s.Staged (s.stageAppend staged turn).2 := by
  unfold stageAppend
  split
  · exact h
  · next hforgotten =>
      split
      · exact h
      · exact h.set (Bool.eq_false_iff.mpr hforgotten)

theorem staged_stageAppends (turns : List SourceTurn)
    (h : s.Staged staged) : s.Staged (s.stageAppends turns staged).2 := by
  induction turns generalizing staged with
  | nil => exact h
  | cons turn turns ih => exact ih (staged_stageAppend h turn)

end SpoolIndex

/-! ### The live updates are a replay -/

section
variable (fmt : LineFormat SpoolEntry UInt8)

theorem replay_putLines {queuedAt : String} {puts : List SourceTurn} {s : SpoolIndex}
    (h : ∀ turn ∈ puts, s.isForgotten turn.id = false) (offset : Nat) :
    fmt.replay SpoolIndex.applyLine offset (putLines queuedAt puts) s =
      recordPuts queuedAt puts (fmt.positions offset (putLines queuedAt puts)) s := by
  induction puts generalizing s offset with
  | nil => rfl
  | cons turn puts ih =>
      have hline : ∀ length, SpoolIndex.applyLine offset length (.put turn (some queuedAt)) s =
          SpoolIndex.recordPut queuedAt s (turn, (offset, length)) := by
        intro length
        unfold SpoolIndex.applyLine
        simp only [h turn List.mem_cons_self, Bool.false_eq_true, if_false, Option.getD_some]
        rfl
      rw [putLines, List.map_cons, LineFormat.replay, hline]
      refine ih (s := SpoolIndex.recordPut queuedAt s (turn, (offset, _))) ?_ _
      exact fun turn' hmem => h turn' (List.mem_cons_of_mem _ hmem)

theorem replay_markerLines {turns : List SourceTurn} {s : SpoolIndex}
    (h : ∀ turn ∈ turns, s.isForgotten turn.id = false) (offset : Nat) :
    fmt.replay SpoolIndex.applyLine offset (markerLines turns) s =
      turns.foldl SpoolIndex.recordExtracted s := by
  induction turns generalizing s offset with
  | nil => rfl
  | cons turn turns ih =>
      have hline : ∀ length, SpoolIndex.applyLine offset length
          (.extracted turn.id (SpoolIndex.markerOf turn)) s = s.recordExtracted turn := by
        intro length
        unfold SpoolIndex.applyLine
        simp only [h turn List.mem_cons_self, Bool.false_eq_true, if_false]
        rfl
      rw [markerLines, List.map_cons, LineFormat.replay, hline]
      refine ih (s := s.recordExtracted turn) ?_ _
      exact fun turn' hmem => h turn' (List.mem_cons_of_mem _ hmem)

theorem replay_doneLines (ids : List String) (s : SpoolIndex) (offset : Nat) :
    fmt.replay SpoolIndex.applyLine offset (ids.map .done) s = ids.foldl SpoolIndex.recordDone s := by
  induction ids generalizing s offset with
  | nil => rfl
  | cons id ids ih => exact ih _ _

theorem replay_forgetLines (ids : List String) (s : SpoolIndex) (offset : Nat) :
    fmt.replay SpoolIndex.applyLine offset (ids.map .forget) s =
      ids.foldl SpoolIndex.recordForgotten s := by
  induction ids generalizing s offset with
  | nil => rfl
  | cons id ids ih => exact ih _ _

@[simp] theorem recordPuts_forgotten (queuedAt : String) (puts : List SourceTurn)
    (positions : List (Nat × Nat)) (s : SpoolIndex) :
    (recordPuts queuedAt puts positions s).forgotten = s.forgotten := by
  unfold recordPuts
  induction puts.zip positions generalizing s with
  | nil => rfl
  | cons put rest ih => exact ih _

@[simp] theorem recordPuts_extracted (queuedAt : String) (puts : List SourceTurn)
    (positions : List (Nat × Nat)) (s : SpoolIndex) :
    (recordPuts queuedAt puts positions s).extracted = s.extracted := by
  unfold recordPuts
  induction puts.zip positions generalizing s with
  | nil => rfl
  | cons put rest ih => exact ih _

/-- The puts of a call come first, so their positions are those they have alone. -/
theorem recordPuts_positions (queuedAt : String) (puts : List SourceTurn) (rest : List SpoolEntry)
    (offset : Nat) (s : SpoolIndex) :
    recordPuts queuedAt puts (fmt.positions offset (putLines queuedAt puts ++ rest)) s =
      recordPuts queuedAt puts (fmt.positions offset (putLines queuedAt puts)) s := by
  induction puts generalizing offset s with
  | nil =>
      unfold recordPuts
      rw [List.zip_nil_left, List.zip_nil_left]
  | cons turn puts ih => exact ih _ _

/-! ### Journal and index -/

/-- The journal is the text of some entries, and the index is what they replay to. -/
structure Represents (s : Spool) (es : List SpoolEntry) : Prop where
  file : s.journal.file = fmt.text es
  index : s.index = fmt.replay SpoolIndex.applyLine 0 es {}

/-- The append does not leave a part of itself behind. -/
def AppendOutcome.Clean : AppendOutcome → Prop
  | .stuck _ => False
  | _ => True

instance : (outcome : AppendOutcome) → Decidable outcome.Clean
  | .synced => isTrue trivial
  | .rolledBack => isTrue trivial
  | .stuck _ => isFalse id

variable {fmt} {s : Spool}

/-- A call whose update is the replay of its lines keeps the journal and the index together. -/
theorem Represents.write {es lines : List SpoolEntry} {outcome : AppendOutcome}
    {update : List (Nat × Nat) → SpoolIndex → SpoolIndex} (h : Represents fmt s es)
    (hclean : outcome.Clean)
    (hupdate : ∀ offset, fmt.replay SpoolIndex.applyLine offset lines s.index =
      update (fmt.positions offset lines) s.index) :
    ∃ es', Represents fmt (s.write fmt outcome lines update).1 es' := by
  unfold Spool.write
  split
  · exact ⟨es, h⟩
  · unfold appendLines
    cases hfailed : s.journal.rollbackFailed with
    | true => exact ⟨es, h⟩
    | false =>
        cases outcome with
        | synced =>
            refine ⟨es ++ lines, ?_, ?_⟩
            · rw [fmt.text_append, ← h.file]
              rfl
            · rw [fmt.replay_append, ← h.index, Nat.zero_add, ← h.file]
              exact (hupdate _).symm
        | rolledBack => exact ⟨es, h⟩
        | stuck left => exact hclean.elim

/-! ### Calls -/

/-- A call's turn in the sequence. -/
inductive SpoolOp where
  | appendBatch (requests : List (List SourceTurn)) (queuedAt : String) (outcome : AppendOutcome)
  | commitCapture (turns completed : List SourceTurn) (queuedAt : String) (outcome : AppendOutcome)
  | markExtracted (turns : List SourceTurn) (outcome : AppendOutcome)
  | drain (done : List String) (outcome : AppendOutcome)
  | forget (ids : List String) (outcome : AppendOutcome)

namespace SpoolOp

def outcome : SpoolOp → AppendOutcome
  | .appendBatch _ _ outcome | .commitCapture _ _ _ outcome | .markExtracted _ outcome
  | .drain _ outcome | .forget _ outcome => outcome

variable (fmt) in
def run (s : Spool) : SpoolOp → Spool
  | .appendBatch requests queuedAt outcome => (flushAppends fmt requests queuedAt outcome s).1
  | .commitCapture turns completed queuedAt outcome =>
      (Runir.commitCapture fmt turns completed queuedAt outcome s).1
  | .markExtracted turns outcome => (Runir.markExtracted fmt turns outcome s).1
  | .drain done outcome => (markDone fmt done outcome s).1
  | .forget ids outcome => (forgetIds fmt ids outcome s).1

end SpoolOp

/-- A batch writes its staged turns. -/
theorem flushAppends_fst (requests : List (List SourceTurn)) (queuedAt : String)
    (outcome : AppendOutcome) (s : Spool) :
    (flushAppends fmt requests queuedAt outcome s).1 =
      (s.write fmt outcome
        (putLines queuedAt (s.index.stageAppends requests.flatten .empty).2.values)
        (recordPuts queuedAt (s.index.stageAppends requests.flatten .empty).2.values)).1 := by
  unfold flushAppends
  simp only
  split
  · next s' heq => exact (congrArg Prod.fst heq).symm
  · next s' heq => exact (congrArg Prod.fst heq).symm

/-- A call appends some lines, and its update of the index is their replay. -/
theorem SpoolOp.run_eq (op : SpoolOp) (s : Spool) :
    ∃ (lines : List SpoolEntry) (update : List (Nat × Nat) → SpoolIndex → SpoolIndex),
      op.run fmt s = (s.write fmt op.outcome lines update).1 ∧
        ∀ offset, fmt.replay SpoolIndex.applyLine offset lines s.index =
          update (fmt.positions offset lines) s.index := by
  cases op with
  | appendBatch requests queuedAt outcome =>
      refine ⟨_, _, flushAppends_fst requests queuedAt outcome s, fun offset => ?_⟩
      exact replay_putLines fmt
        (fun turn hmem => (SpoolIndex.staged_stageAppends _ .empty).values hmem) offset
  | commitCapture turns completed queuedAt outcome =>
      refine ⟨_, _, rfl, fun offset => ?_⟩
      have hputs : ∀ turn ∈ s.index.capturePuts turns, s.index.isForgotten turn.id = false :=
        fun turn hmem => (SpoolIndex.staged_captures turns .empty).values hmem
      rw [fmt.replay_append, replay_putLines fmt hputs, replay_markerLines, recordPuts_positions]
      intro turn hmem
      unfold SpoolIndex.isForgotten
      rw [recordPuts_forgotten]
      have hkept := (List.mem_filter.mp hmem).2
      simpa [SpoolIndex.isForgotten] using hkept
  | markExtracted turns outcome =>
      refine ⟨_, _, rfl, fun offset => replay_markerLines fmt (fun turn hmem => ?_) offset⟩
      have hfresh := (List.mem_filter.mp hmem).2
      rw [Bool.and_eq_true] at hfresh
      simpa using hfresh.1
  | drain done outcome => exact ⟨_, _, rfl, fun offset => replay_doneLines fmt _ _ offset⟩
  | forget ids outcome => exact ⟨_, _, rfl, fun offset => replay_forgetLines fmt _ _ offset⟩

variable {es : List SpoolEntry}

theorem Represents.run (h : Represents fmt s es) (op : SpoolOp)
    (hclean : op.outcome.Clean) : ∃ es', Represents fmt (op.run fmt s) es' := by
  obtain ⟨lines, update, hrun, hupdate⟩ := op.run_eq s
  rw [hrun]
  exact h.write hclean hupdate

/-- Whatever its append comes to, a call replays some lines over the index. -/
theorem SpoolOp.run_replays (op : SpoolOp) (s : Spool) : ∃ offset lines,
    (op.run fmt s).index = fmt.replay SpoolIndex.applyLine offset lines s.index := by
  obtain ⟨lines, update, hrun, hupdate⟩ := op.run_eq s
  rw [hrun]
  unfold Spool.write
  split
  · exact ⟨0, [], rfl⟩
  · unfold appendLines
    cases s.journal.rollbackFailed with
    | true => exact ⟨0, [], rfl⟩
    | false =>
        cases op.outcome with
        | synced => exact ⟨s.journal.file.length, lines, (hupdate _).symm⟩
        | rolledBack => exact ⟨0, [], rfl⟩
        | stuck left => exact ⟨0, [], rfl⟩

variable (fmt) in
/-- A spool opened on the journal of some entries. -/
def openSpool (es : List SpoolEntry) : Spool :=
  ⟨{ file := fmt.text es }, fmt.replay SpoolIndex.applyLine 0 es {}⟩

/-- Opening a journal of whole lines gives the spool they replay to, however it is read. -/
theorem initializeSpool_text {chunks : List (List UInt8)} (h : chunks.flatten = fmt.text es) :
    initializeSpool fmt chunks = some ((openSpool fmt es).journal, (openSpool fmt es).index) := by
  unfold initializeSpool
  rw [fmt.readChunks_text SpoolIndex.applyLine h, h]
  simp only [Option.map_some, List.take_length]
  rfl

theorem Represents.runs (h : Represents fmt s es)
    {ops : List SpoolOp} (hclean : ∀ op ∈ ops, op.outcome.Clean) :
    ∃ es', Represents fmt (ops.foldl (SpoolOp.run fmt) s) es' := by
  induction ops generalizing s es with
  | nil => exact ⟨es, h⟩
  | cons op ops ih =>
      obtain ⟨es', hop⟩ := h.run op (hclean op List.mem_cons_self)
      exact ih hop fun op' hmem => hclean op' (List.mem_cons_of_mem _ hmem)

/-- Opening a journal cut at any byte gives the spool that some of its lines replay to, the first
ones. -/
theorem initializeSpool_take {n : Nat} {chunks : List (List UInt8)}
    (h : chunks.flatten = (fmt.text es).take n) :
    ∃ k, initializeSpool fmt chunks =
      some ((openSpool fmt (es.take k)).journal, (openSpool fmt (es.take k)).index) := by
  obtain ⟨k, remainder, hcut, hread⟩ := fmt.readChunks_take SpoolIndex.applyLine h {}
  refine ⟨k, ?_⟩
  unfold initializeSpool
  rw [hread, h, ← hcut]
  simp only [Option.map_some, List.take_left]
  rfl

end

/-- The spool after some calls. -/
def spoolAfter (es : List SpoolEntry) (ops : List SpoolOp) : Spool :=
  ops.foldl (SpoolOp.run spoolFormat) (openSpool spoolFormat es)

/-- **The journal replays to the live state.**  After any calls whose rollbacks succeed, opening
the journal again gives the index as it is; and opening it cut at any byte gives that of some of
its lines, the first ones. -/
theorem replay_eq_live (es : List SpoolEntry) {ops : List SpoolOp}
    (hclean : ∀ op ∈ ops, op.outcome.Clean) :
    ∃ es', (spoolAfter es ops).journal.file = spoolFormat.text es' ∧
      (∀ chunks : List (List UInt8), chunks.flatten = (spoolAfter es ops).journal.file →
        initializeSpool spoolFormat chunks =
          some ((openSpool spoolFormat es').journal, (spoolAfter es ops).index)) ∧
      ∀ (n : Nat) (chunks : List (List UInt8)),
        chunks.flatten = (spoolAfter es ops).journal.file.take n →
          ∃ k, initializeSpool spoolFormat chunks =
            some ((openSpool spoolFormat (es'.take k)).journal,
              (openSpool spoolFormat (es'.take k)).index) := by
  have hopen : Represents spoolFormat (openSpool spoolFormat es) es := ⟨rfl, rfl⟩
  obtain ⟨es', hfile, hindex⟩ := hopen.runs hclean
  refine ⟨es', hfile, fun chunks hchunks => ?_, fun n chunks hchunks => ?_⟩
  · rw [initializeSpool_text (hchunks.trans hfile)]
    exact congrArg (fun index => some ((openSpool spoolFormat es').journal, index)) hindex.symm
  · exact initializeSpool_take (hchunks.trans (congrArg (List.take n) hfile))

/-- A forget, and one whose append fails. -/
theorem replay_eq_live_forget : ∃ es',
    initializeSpool spoolFormat
        [(spoolAfter [] [.forget ["x"] .synced, .forget ["y"] .rolledBack]).journal.file] =
      some ((openSpool spoolFormat es').journal,
        (spoolAfter [] [.forget ["x"] .synced, .forget ["y"] .rolledBack]).index) := by
  have hclean : ∀ op ∈ [SpoolOp.forget ["x"] .synced, .forget ["y"] .rolledBack],
      op.outcome.Clean := by decide
  obtain ⟨es', -, hread, -⟩ := replay_eq_live [] hclean
  exact ⟨es', hread _ (List.append_nil _)⟩

end Runir
