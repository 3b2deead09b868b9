import Runir.Lib.Runs
import Runir.Lifecycle.Decay
import Runir.Store.SupersedeFacts

/-!
# Lifecycle — Mirrors

A row says twice whether it is active, since when and why it is not, and what superseded it: in
its columns and in its payload.

* `MemoryRow.Agrees`: the two copies agree, and an inactive row is dated.
* `LifecycleOp.step`: the writers of these fields, one operation after the other.
* `mirrors_run`: the copies agree in every run without a prune whose callers do not place the
  mirrored properties themselves.
-/

namespace Runir

/-- `payload.active` as a flag, where absence counts as active; `none` when it is no flag. -/
def activeFlag : Option Value → Option Bool
  | none => some true
  | some (.bool b) => some b
  | some _ => none

/-- The two copies of a row's lifecycle agree, and an inactive row has a date. -/
structure MemoryRow.Agrees (row : MemoryRow) : Prop where
  active : activeFlag (row.payload.get? "active") = some row.isCurrent
  inactiveAt : row.payload.get? "inactiveAt" = row.inactiveAt.map .str
  inactiveReason : row.payload.get? "inactiveReason" = row.inactiveReason.map .str
  supersededBy : row.payload.get? "supersededById" = row.supersededBy.map .str
  dated : row.isCurrent = false → row.inactiveAt.isSome = true

/-- The part of `queryTopMemoriesForNovelty` that asks whether a row is active. -/
def MemoryRow.noveltyActive (row : MemoryRow) : Bool := row.prop? "active" = some (.bool true)

/-- The invariant: the copies agree, and the payload always carries its flag. -/
structure MemoryRow.Mirrors (row : MemoryRow) : Prop where
  active : row.payload.get? "active" = some (.bool row.isCurrent)
  inactiveAt : row.payload.get? "inactiveAt" = row.inactiveAt.map .str
  inactiveReason : row.payload.get? "inactiveReason" = row.inactiveReason.map .str
  supersededBy : row.payload.get? "supersededById" = row.supersededBy.map .str
  dated : row.isCurrent = false → row.inactiveAt.isSome = true

theorem MemoryRow.Mirrors.agrees {row : MemoryRow} (h : row.Mirrors) : row.Agrees where
  active := by rw [h.active]; rfl
  inactiveAt := h.inactiveAt
  inactiveReason := h.inactiveReason
  supersededBy := h.supersededBy
  dated := h.dated

/-- The novelty query and the recall filter classify a row alike. -/
theorem MemoryRow.Mirrors.noveltyActive_eq {row : MemoryRow} (h : row.Mirrors) :
    row.noveltyActive = row.isCurrent := by
  unfold MemoryRow.noveltyActive MemoryRow.prop?
  rw [h.active]
  cases row.isCurrent with
  | true => rfl
  | false => rfl

def Mirrored (rows : Rows) : Prop := ∀ id row, rows.get? id = some row → row.Mirrors

theorem Mirrored.empty : Mirrored .empty := by
  intro id row h
  cases h

theorem Mirrored.set {rows : Rows} {id : String} {row : MemoryRow} (h : Mirrored rows)
    (hrow : row.Mirrors) : Mirrored (rows.set id row) := by
  intro k row' hk
  rw [OrdMap.get?_set] at hk
  split at hk
  · cases hk
    exact hrow
  · exact h k row' hk

/-! ### The writers -/

variable {lifecycle : MemoryLifecycleState}

section writers
variable (host : Host) (now : Int) {row : MemoryRow}

theorem mirrors_setForgotten (h : row.Mirrors) : (setForgotten now row).Mirrors where
  active := by simp [setForgotten, get?_setProp, MemoryRow.isCurrent]
  inactiveAt := by simp [setForgotten, get?_setProp]
  inactiveReason := by simp [setForgotten, get?_setProp]
  supersededBy := by simpa [setForgotten, get?_setProp] using h.supersededBy
  dated := fun _ => rfl

theorem mirrors_setRestored (h : row.Mirrors) : (setRestored now row).Mirrors where
  active := by simp [setRestored, get?_setProp, MemoryRow.isCurrent]
  inactiveAt := by simp [setRestored, get?_setProp]
  inactiveReason := by simp [setRestored, get?_setProp]
  supersededBy := by simpa [setRestored, get?_setProp] using h.supersededBy
  dated := by intro hcurrent; cases hcurrent

theorem mirrors_setCompacted (mergedId : String) : (setCompacted now mergedId row).Mirrors where
  active := by simp [setCompacted, get?_setProp, MemoryRow.isCurrent]
  inactiveAt := by simp [setCompacted, get?_setProp]
  inactiveReason := by simp [setCompacted, get?_setProp]
  supersededBy := by simp [setCompacted, get?_setProp]
  dated := fun _ => rfl

theorem mirrors_mergeText (newText : String) (embedding : List ℚ) (writeSource : Value)
    (action : AtomicFactAction) (continuity : ContinuityMetadata) (h : row.Mirrors) :
    (mergeText host now newText embedding writeSource action continuity row).Mirrors where
  active := by cases action <;> simp [mergeText, get?_setProp, MemoryRow.isCurrent]
  inactiveAt := by cases action <;> simp [mergeText, get?_setProp]
  inactiveReason := by cases action <;> simp [mergeText, get?_setProp]
  supersededBy := by cases action <;> simpa [mergeText, get?_setProp] using h.supersededBy
  dated := by intro hcurrent; cases hcurrent

theorem mirrors_setTarget (p : PreparedSupersede) (h : row.Mirrors) :
    (setTarget host now p row).Mirrors where
  active := by
    rw [show (setTarget host now p row).isCurrent = row.isCurrent from rfl, ← h.active]
    simp [setTarget, get?_setProp]
  inactiveAt := by simpa [setTarget, get?_setProp] using h.inactiveAt
  inactiveReason := by simpa [setTarget, get?_setProp] using h.inactiveReason
  supersededBy := by simpa [setTarget, get?_setProp] using h.supersededBy
  dated := h.dated

theorem mirrors_setPrevious (p : PreparedSupersede) : (setPrevious host now p row).Mirrors where
  active := by
    cases hflags : p.previousStaleFlags <;>
      simp [setPrevious, setStale, hflags, get?_setProp, MemoryRow.isCurrent]
  inactiveAt := by
    cases hflags : p.previousStaleFlags <;> simp [setPrevious, setStale, hflags, get?_setProp]
  inactiveReason := by
    cases hflags : p.previousStaleFlags <;> simp [setPrevious, setStale, hflags, get?_setProp]
  supersededBy := by
    cases hflags : p.previousStaleFlags <;> simp [setPrevious, setStale, hflags, get?_setProp]
  dated := fun _ => rfl

theorem mirrors_score (vitality : Option ℚ) (id : String) (h : row.Mirrors) :
    ((RowWrite.score id vitality).update row).Mirrors where
  active := by
    rw [show ((RowWrite.score id vitality).update row).isCurrent = row.isCurrent from rfl,
      ← h.active]
    simp [RowWrite.update, get?_setProp]
  inactiveAt := by simpa [RowWrite.update, get?_setProp] using h.inactiveAt
  inactiveReason := by simpa [RowWrite.update, get?_setProp] using h.inactiveReason
  supersededBy := by simpa [RowWrite.update, get?_setProp] using h.supersededBy
  dated := h.dated

/-! ### Rows written whole -/

/-- The mirrored properties of a lifecycle. -/
def mirrored (lifecycle : MemoryLifecycleState) : List (String × Option Value) :=
  [("active", some (.bool lifecycle.active)), ("inactiveAt", lifecycle.inactiveAt.map .str),
   ("inactiveReason", lifecycle.inactiveReason.map .str),
   ("supersededById", lifecycle.supersededById.map .str)]

/-- The caller's metadata leaves the mirrored properties to the lifecycle, or repeats them. -/
def RepeatsLifecycle (lifecycle : MemoryLifecycleState) (metadata : Option Metadata) : Prop :=
  ∀ e ∈ mirrored lifecycle, ((metadata.getD .empty).get? e.1).or e.2 = e.2

instance (lifecycle : MemoryLifecycleState) (metadata : Option Metadata) :
    Decidable (RepeatsLifecycle lifecycle metadata) :=
  inferInstanceAs (Decidable (∀ e ∈ mirrored lifecycle, _))

variable (text userId : String) (scope : MemoryScope) (sessionId : Option String)

theorem get?_basePayload_mirrored (lifecycle : MemoryLifecycleState) {e : String × Option Value}
    (he : e ∈ mirrored lifecycle) :
    (basePayload now text userId scope sessionId lifecycle).get? e.1 = e.2 := by
  rw [get?_basePayload]
  simp only [mirrored, List.mem_cons, List.not_mem_nil, or_false] at he
  rcases he with rfl | rfl | rfl | rfl <;>
    simp [OrdMap.find_append, find_optionalProp, OrdMap.find]

theorem get?_composePayload_mirrored
    {metadata : Option Metadata} (h : RepeatsLifecycle lifecycle metadata)
    {e : String × Option Value} (he : e ∈ mirrored lifecycle) :
    (composePayload now text userId metadata scope sessionId lifecycle).get? e.1 = e.2 := by
  have hkey : e.1 ≠ "processing_lineage" ∧ e.1 ≠ "pinnedAt" := by
    simp only [mirrored, List.mem_cons, List.not_mem_nil, or_false] at he
    rcases he with rfl | rfl | rfl | rfl <;> simp
  rw [get?_composePayload, get?_basePayload_mirrored _ _ _ _ _ _ he, h e he]
  cases e.2 with
  | none => rfl
  | some v => simp [Option.filter, hkey.1, hkey.2]

theorem mirrors_composeMemoryRecord (embedding : List ℚ) {metadata : Option Metadata}
    (provenance : Option SupersedeProvenance) (h : RepeatsLifecycle lifecycle metadata)
    (hdated : lifecycle.active = false → lifecycle.inactiveAt.isSome = true) :
    (composeMemoryRecord host now text userId embedding metadata scope sessionId lifecycle
      provenance).Mirrors := by
  have hread : ∀ e ∈ mirrored lifecycle,
      (composePayload now text userId metadata scope sessionId lifecycle).get? e.1 = e.2 :=
    fun e he => get?_composePayload_mirrored now text userId scope sessionId h he
  have hcurrent : (composeMemoryRecord host now text userId embedding metadata scope sessionId
      lifecycle provenance).isCurrent = lifecycle.active := by
    unfold MemoryRow.isCurrent
    cases hactive : lifecycle.active <;> simp [composeMemoryRecord, hactive]
  constructor
  · rw [hcurrent]
    exact hread ("active", some (.bool lifecycle.active)) (by simp [mirrored])
  · exact hread ("inactiveAt", lifecycle.inactiveAt.map .str) (by simp [mirrored])
  · exact hread ("inactiveReason", lifecycle.inactiveReason.map .str) (by simp [mirrored])
  · exact hread ("supersededById", lifecycle.supersededById.map .str) (by simp [mirrored])
  · intro hinactive
    exact hdated (hcurrent ▸ hinactive)

end writers

/-! ### Operations -/

/-- An operation on the rows of a user, with what its caller and the clock give it.  `statements`
is how many updates of a decay pass are sent before one throws. -/
inductive LifecycleOp where
  | create (now : Int) (id text userId : String) (embedding : List ℚ) (metadata : Option Metadata)
      (scope : MemoryScope) (sessionId : Option String) (lifecycle : MemoryLifecycleState)
  | merge (now : Int) (id newText : String) (embedding : List ℚ) (writeSource : Value)
      (action : AtomicFactAction) (continuity : ContinuityMetadata)
  | supersede (now : Int) (failed : Option String) (input : SupersedeInput)
  | forget (now : Int) (id userId : String)
  | restore (now : Int) (id userId : String)
  | decay (now : Int) (userId : String) (scope : MemoryScope) (statements : Nat)
  | compact (now : Int) (sourceIds : List String) (mergedId userId : String)

/-- The rows after a write; one that throws leaves them. -/
def committed (rows : Rows) (result : Except StoreError Rows) : Rows :=
  match result with
  | .ok rows' => rows'
  | .error _ => rows

section runs
variable (host : Host) (ex : Exponential)

def LifecycleOp.run (rows : Rows) : LifecycleOp → Rows
  | .create now id text userId embedding metadata scope sessionId lifecycle =>
      committed rows
        (upsertMemory host now id text userId embedding metadata scope sessionId lifecycle rows)
  | .merge now id newText embedding writeSource action continuity =>
      committed rows
        (updateMemoryText host now id newText embedding writeSource action continuity rows)
  | .supersede now failed input => committed rows (supersedeMemory host now failed input rows)
  | .forget now id userId => deleteMemoryById now id userId .softInactivate rows
  | .restore now id userId => (restoreMemoryById now id userId rows).1
  | .decay now userId scope statements =>
      runWrites ((decayWrites host ex now userId scope rows).take statements) rows
  | .compact now sourceIds mergedId userId =>
      softInactivateForCompaction now sourceIds mergedId userId rows

def LifecycleOp.step (rows : Rows) (op : LifecycleOp) : Option Rows := some (op.run host ex rows)

def RowWrite.isPrune : RowWrite → Bool
  | .prune _ => true
  | _ => false

/-- The operation keeps the copies in agreement: the caller of a row written whole leaves the
mirrored properties alone and dates an inactive row, and a decay pass sends no prune. -/
def LifecycleOp.Keeps (rows : Rows) : LifecycleOp → Prop
  | .create _ _ _ _ _ metadata _ _ lifecycle =>
      RepeatsLifecycle lifecycle metadata ∧
        (lifecycle.active = false → lifecycle.inactiveAt.isSome = true)
  | .supersede _ _ input =>
      rows.get? input.replacement.id = none →
        RepeatsLifecycle { active := true } input.replacement.metadata
  | .decay now userId scope statements =>
      ∀ w ∈ (decayWrites host ex now userId scope rows).take statements, w.isPrune = false
  | _ => True

instance (rows : Rows) (op : LifecycleOp) : Decidable (op.Keeps host ex rows) := by
  cases op <;> unfold LifecycleOp.Keeps <;> infer_instance

variable {host ex} {rows : Rows}

theorem mirrored_updateOwned {userId id : String} {f : MemoryRow → MemoryRow}
    (hf : ∀ row, row.Mirrors → (f row).Mirrors) (h : Mirrored rows) :
    Mirrored (updateOwned userId id f rows) := by
  unfold updateOwned
  split
  · exact h
  · next row hrow =>
      split
      · exact h.set (hf row (h id row hrow))
      · exact h

/-- The stamps of a created replacement are none of the mirrored properties. -/
theorem repeatsLifecycle_createMetadata {p : PreparedSupersede}
    (h : RepeatsLifecycle lifecycle p.replacement.metadata) :
    RepeatsLifecycle lifecycle (some (createMetadata p p)) := by
  intro e he
  have hstamp : (createMetadata p p).get? e.1 = (p.replacement.metadata.getD .empty).get? e.1 := by
    rw [get?_createMetadata]
    simp only [mirrored, List.mem_cons, List.not_mem_nil, or_false] at he
    rcases he with rfl | rfl | rfl | rfl <;> simp [OrdMap.find]
  rw [Option.getD_some, hstamp]
  exact h e he

theorem mirrors_targetRow {now : Int} {p : PreparedSupersede}
    (hold : ∀ row, p.replacementRow = some row → row.Mirrors)
    (hnew : p.replacementRow = none →
      RepeatsLifecycle { active := true } p.replacement.metadata) :
    (targetRow host now p p false).Mirrors := by
  unfold targetRow
  cases hrow : p.replacementRow with
  | some row => exact mirrors_setTarget host now p (hold row hrow)
  | none =>
      have hcomposed : (composeMemoryRecord host now p.replacement.text p.replacement.userId
          p.replacement.embedding (some (createMetadata p p)) p.replacement.scope
          p.replacement.sessionId
          { active := true, supersedesId := some p.previousId,
            lineageRootId := some p.lineageRootId } (some p.provenance)).Mirrors :=
        mirrors_composeMemoryRecord host now _ _ _ _ _ _
          (repeatsLifecycle_createMetadata (hnew hrow)) (by intro h; cases h)
      -- the clocks of the transaction are none of the mirrored properties
      constructor
      · exact (get?_clockOverlay _ _ _ _ _ (by decide) (by decide)).trans hcomposed.active
      · exact (get?_clockOverlay _ _ _ _ _ (by decide) (by decide)).trans hcomposed.inactiveAt
      · exact (get?_clockOverlay _ _ _ _ _ (by decide) (by decide)).trans hcomposed.inactiveReason
      · exact (get?_clockOverlay _ _ _ _ _ (by decide) (by decide)).trans hcomposed.supersededBy
      · exact hcomposed.dated

theorem mirrored_supersedeMemory {now : Int} {failed : Option String} {input : SupersedeInput}
    {rows' : Rows} (h : Mirrored rows)
    (hkeeps : rows.get? input.replacement.id = none →
      RepeatsLifecycle { active := true } input.replacement.metadata)
    (hok : supersedeMemory host now failed input rows = .ok rows') : Mirrored rows' := by
  obtain ⟨p, hp, rfl⟩ := supersedeMemory_ok hok
  unfold planRows
  refine (h.set (mirrors_targetRow ?_ ?_)).set (mirrors_setPrevious host now p)
  · intro row hrow
    exact h _ row (hp.replacementRow_eq ▸ hrow)
  · intro hnone
    rw [hp.replacement_eq]
    exact hkeeps (hp.replacementRow_eq ▸ hnone)

theorem mirrored_runWrites {writes : List RowWrite} (h : Mirrored rows)
    (hscore : ∀ w ∈ writes, ∃ id vitality, w = .score id vitality) :
    Mirrored (runWrites writes rows) := by
  induction writes generalizing rows with
  | nil => exact h
  | cons w writes ih =>
      refine ih ?_ fun w' hw' => hscore w' (List.mem_cons_of_mem _ hw')
      obtain ⟨id, vitality, rfl⟩ := hscore w List.mem_cons_self
      unfold RowWrite.run
      split
      · exact h
      · next row hrow => exact h.set (mirrors_score vitality id (h _ row hrow))

/-- A decay pass only scores and prunes. -/
theorem score_of_mem_decayWrites {now : Int} {userId : String} {scope : MemoryScope}
    {w : RowWrite} (hw : w ∈ decayWrites host ex now userId scope rows)
    (hprune : w.isPrune = false) : ∃ id vitality, w = .score id vitality := by
  unfold decayWrites at hw
  rcases List.mem_append.mp hw with h | h
  · obtain ⟨e, -, rfl⟩ := List.mem_map.mp h
    exact ⟨_, _, rfl⟩
  · obtain ⟨id, -, rfl⟩ := List.mem_map.mp h
    cases hprune

/-- **One operation.** -/
theorem mirrored_run {op : LifecycleOp} (h : Mirrored rows) (hkeeps : op.Keeps host ex rows) :
    Mirrored (op.run host ex rows) := by
  cases op with
  | create now id text userId embedding metadata scope sessionId lifecycle =>
      simp only [LifecycleOp.run, upsertMemory]
      split_ifs
      · exact h
      · exact h
      · exact h.set (mirrors_composeMemoryRecord host now _ _ _ _ _ _ hkeeps.1 hkeeps.2)
  | merge now id newText embedding writeSource action continuity =>
      simp only [LifecycleOp.run, updateMemoryText]
      split_ifs
      · exact h
      · split
        · exact h
        · next row hrow =>
            split_ifs
            · exact h
            · exact h.set (mirrors_mergeText host now _ _ _ _ _ (h id row hrow))
  | supersede now failed input =>
      simp only [LifecycleOp.run]
      cases hresult : supersedeMemory host now failed input rows with
      | error e => exact h
      | ok rows' => exact mirrored_supersedeMemory h hkeeps hresult
  | forget now id userId =>
      exact mirrored_updateOwned (fun row => mirrors_setForgotten now) h
  | restore now id userId =>
      simp only [LifecycleOp.run, restoreMemoryById]
      split
      · exact h
      · next row hrow =>
          split_ifs
          · exact h.set (mirrors_setRestored now (h id row hrow))
          · exact h
  | decay now userId scope statements =>
      refine mirrored_runWrites h fun w hw => ?_
      exact score_of_mem_decayWrites (List.mem_of_mem_take hw) (hkeeps w hw)
  | compact now sourceIds mergedId userId =>
      simp only [LifecycleOp.run, softInactivateForCompaction]
      clear hkeeps
      induction sourceIds generalizing rows with
      | nil => exact h
      | cons id sourceIds ih =>
          exact ih (mirrored_updateOwned (fun row _ => mirrors_setCompacted now mergedId) h)

/-- **Mirrors.**  In every run of lifecycle operations from an empty store, whatever their order,
in which no decay pass prunes a row and no caller places a mirrored property of a row it creates,
the two copies of every row agree, every inactive row is dated, and the readers of either copy
classify a row alike. -/
theorem mirrors_run {ops : List LifecycleOp}
    (hkeeps : Runs.Along (LifecycleOp.step host ex) (fun rows op => op.Keeps host ex rows) .empty ops)
    (hrun : Runs.exec (LifecycleOp.step host ex) .empty ops = some rows) :
    ∀ id row, rows.get? id = some row →
      row.Agrees ∧ row.noveltyActive = row.isCurrent := by
  have hmirrored : Mirrored rows := by
    refine Runs.exec_invariant ?_ Mirrored.empty hkeeps hrun
    intro rows op rows' h hop hstep
    cases hstep
    exact mirrored_run h hop
  intro id row hrow
  exact ⟨(hmirrored id row hrow).agrees, (hmirrored id row hrow).noveltyActive_eq⟩

end runs

/-! ### Runs on concrete rows -/

/-- Exact far from zero, where `Math.exp` rounds to zero. -/
def Exponential.coarse : Exponential where
  exp x := if x < -1000 then 0 else 1
  ln2 := 693 / 1000

/-- A create of an ephemeral memory that nobody trusts or reads. -/
def createWeak (id : String) : LifecycleOp :=
  .create 0 id "note" "u" [1]
    (some (.ofList [("tier", .str "ephemeral"), ("confidence", .num 0), ("accessCount", .num 0)]))
    .user none { active := true }

/-- Twenty weak memories, and ten years later a decay pass: it prunes one of them. -/
def pruneOps : List LifecycleOp :=
  (List.range 20).map (fun n => createWeak (toString n)) ++ [.decay 315360000000 "u" .user 21]

theorem prune_undated :
    ((Runs.exec (LifecycleOp.step .ascii .coarse) .empty pruneOps).bind (·.get? "0")).any
      (fun row => !row.isCurrent && row.inactiveAt.isNone && row.noveltyActive) = true := by
  decide +kernel

/-- A pruned row has no date, and its payload still says it is active. -/
theorem prune_breaks_mirrors :
    ¬∀ (ops : List LifecycleOp) (rows : Rows),
      Runs.exec (LifecycleOp.step .ascii .coarse) .empty ops = some rows →
        ∀ id row, rows.get? id = some row → row.Agrees := by
  intro hclaim
  have hpruned := prune_undated
  rw [Option.any_eq_true] at hpruned
  obtain ⟨row, hrow, hflags⟩ := hpruned
  obtain ⟨rows, hrun, hget⟩ := Option.bind_eq_some_iff.mp hrow
  simp only [Bool.and_eq_true, Bool.not_eq_true', Option.isNone_iff_eq_none] at hflags
  have hdated := (hclaim pruneOps rows hrun "0" row hget).dated hflags.1.1
  rw [hflags.1.2] at hdated
  cases hdated

/-- Every kind of operation, a restore of a superseded row among them. -/
def keptOps : List LifecycleOp :=
  [createWeak "a", createWeak "b",
   .merge 1 "a" "note again" [1] (.str "agent_end") .retain {},
   .supersede 2 none
     { previousId := "a",
       replacement := { id := "c", text := "newer", userId := "u", embedding := [1] } },
   .supersede 3 none
     { previousId := "b",
       replacement := { id := "c", text := "newer", userId := "u", embedding := [1] } },
   .restore 4 "a" "u", .forget 5 "b" "u", .decay 6 "u" .user 3, .compact 7 ["a"] "d" "u"]

theorem mirrors_run_kept :
    ∃ rows, Runs.exec (LifecycleOp.step .ascii .coarse) .empty keptOps = some rows ∧
      ∀ id row, rows.get? id = some row → row.Agrees ∧ row.noveltyActive = row.isCurrent := by
  have hrun : Runs.exec (LifecycleOp.step .ascii .coarse) .empty keptOps =
      some ((Runs.exec (LifecycleOp.step .ascii .coarse) .empty keptOps).getD .empty) :=
    Runs.eq_some_getD _ (by decide +kernel)
  exact ⟨_, hrun, mirrors_run (by decide +kernel) hrun⟩

end Runir
