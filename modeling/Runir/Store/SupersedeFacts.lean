import Runir.Lib.Pointers
import Runir.Store.Supersede

/-!
# Store — What one supersede does

`supersedeMemory_eq` says once what a supersede does to the table: it is refused, or it writes the
target and the previous row of its plan and nothing else.  `Prepared` is what the plan was checked
against.
-/

namespace Runir

/-! ### The cycle guard -/

/-- The pointers the cycle guard follows. -/
def guardPointer (next : String → Option (Option String)) (id : String) : Option String :=
  (next id).join

/-- **The guard is sound**: a walk it lets through does not lead to the new memory, whatever it
visited before and however much fuel is left. -/
theorem not_reach_of_cycleWalk {next : String → Option (Option String)} {newMemoryId : String}
    {fuel : Nat} {visited : List String} {currentId : String}
    (h : cycleWalk next newMemoryId fuel visited currentId = false) :
    ¬Pointers.Reach (guardPointer next) currentId newMemoryId := by
  induction fuel generalizing visited currentId with
  | zero => cases h
  | succ fuel ih =>
      unfold cycleWalk at h
      split at h
      · cases h
      · next hne =>
          split at h
          · cases h
          split at h
          · cases h
          intro hreach
          rcases Relation.ReflTransGen.cases_head hreach with rfl | ⟨nextId, hedge, hrest⟩
          · exact hne rfl
          · -- the first hop is the one the loop took
            split at h
            · next hn =>
                rw [Pointers.Edge, guardPointer, hn] at hedge
                cases hedge
            · next hn =>
                rw [Pointers.Edge, guardPointer, hn] at hedge
                cases hedge
            · next n hn =>
                rw [Pointers.Edge, guardPointer, hn] at hedge
                obtain rfl := Option.some.inj hedge
                split at h
                · cases h
                · exact ih h hrest

theorem wouldCreateCycle_self (failed : Option String) (rows : Rows) (id userId : String) :
    wouldCreateCycle failed rows id id userId = true := by
  unfold wouldCreateCycle corruptionCeiling
  rw [cycleWalk, if_pos rfl]

/-! ### Plans -/

/-- What `prepareSupersedeMemory` has checked of the plan it returns. -/
structure Prepared (failed : Option String) (rows : Rows) (input : SupersedeInput)
    (p : PreparedSupersede) : Prop where
  plan : p = ⟨input.replacement.userId, input.previousId, input.replacement, p.previousRow,
    rows.get? input.replacement.id, input.provenance, input.inactiveReason,
    input.previousStaleFlags, input.previousLineageRootId.getD input.previousId⟩
  admitted : validateGenericPreparedInputs input = .ok ()
  user : input.replacement.userId ≠ ""
  previous : rows.get? input.previousId = some p.previousRow
  previousOwned : p.previousRow.ownedBy input.replacement.userId = true
  replacementOwned : ∀ row, rows.get? input.replacement.id = some row →
    row.ownedBy input.replacement.userId = true
  noLineage : p.previousRow.processingLineage = none
  replacementNoLineage : ∀ row, rows.get? input.replacement.id = some row →
    row.processingLineage = none
  noCycle : wouldCreateCycle failed rows input.replacement.id input.previousId
    input.replacement.userId = false
  internal : ¬(input.replacement.scope = .global ∧ input.isInternalCaller = false)

variable {input : SupersedeInput}

theorem validate_user (h : validateGenericPreparedInputs input = .ok ()) :
    input.replacement.userId ≠ "" := by
  intro hu
  unfold validateGenericPreparedInputs at h
  simp only [hu, if_true, bind, Except.bind] at h
  split at h
  · cases h
  · split at h <;> cases h

variable {p : PreparedSupersede}

/-- **A plan is prepared exactly when it passes the checks.** -/
theorem prepareSupersedeMemory_ok {failed : Option String} {rows : Rows} :
    prepareSupersedeMemory failed rows input = .ok p ↔ Prepared failed rows input p := by
  constructor
  · intro h
    unfold prepareSupersedeMemory at h
    simp only at h
    split at h
    · cases h
    · next hscope =>
        split at h
        · cases h
        · next hvalid =>
            split at h
            · cases h
            · next previousRow hprev =>
                split at h
                · cases h
                next howned =>
                split at h
                · cases h
                next hlineage =>
                split at h
                · cases h
                next hreplacement =>
                split at h
                · cases h
                next hcycle =>
                obtain ⟨hl₁, hl₂⟩ := not_or.mp hlineage
                obtain rfl := Except.ok.inj h
                refine ⟨rfl, hvalid, validate_user hvalid, hprev, by simpa using howned, ?_,
                  by simpa using hl₁, ?_, by simpa using hcycle, hscope⟩
                · intro row hrow
                  rw [hrow] at hreplacement
                  simpa using hreplacement
                · intro row hrow
                  rw [hrow] at hl₂
                  simpa using hl₂
  · intro h
    have hl : (rows.get? input.replacement.id).bind (·.processingLineage) = none := by
      cases hr : rows.get? input.replacement.id with
      | none => rfl
      | some row => exact h.replacementNoLineage row hr
    have hany : (rows.get? input.replacement.id).any
        (fun row => !row.ownedBy input.replacement.userId) = false := by
      cases hr : rows.get? input.replacement.id with
      | none => rfl
      | some row => simp [h.replacementOwned row hr]
    unfold prepareSupersedeMemory
    simp only [if_neg h.internal, h.admitted, h.previous, h.previousOwned, h.noLineage, hl, hany,
      h.noCycle]
    exact congrArg Except.ok h.plan.symm

namespace Prepared
variable {failed : Option String} {rows : Rows} {input : SupersedeInput} {p : PreparedSupersede}

theorem previousId_eq (h : Prepared failed rows input p) : p.previousId = input.previousId := by
  rw [h.plan]

theorem replacement_eq (h : Prepared failed rows input p) : p.replacement = input.replacement := by
  rw [h.plan]

theorem userId_eq (h : Prepared failed rows input p) : p.userId = input.replacement.userId := by
  rw [h.plan]

theorem lineageRootId_eq (h : Prepared failed rows input p) :
    p.lineageRootId = input.previousLineageRootId.getD input.previousId := by
  rw [h.plan]

theorem replacementRow_eq (h : Prepared failed rows input p) :
    p.replacementRow = rows.get? input.replacement.id := by
  rw [h.plan]

theorem ne (h : Prepared failed rows input p) : p.previousId ≠ p.replacement.id := by
  rw [h.previousId_eq, h.replacement_eq]
  intro heq
  have hcycle := h.noCycle
  rw [← heq, wouldCreateCycle_self] at hcycle
  cases hcycle

end Prepared

/-! ### The effect of a plan -/

variable {first last : PreparedSupersede} {shared : Bool}

section run
variable {host : Host} {now : Int} {rows : Rows}

/-- A plan would create a row without text. -/
def BlankTarget (p : PreparedSupersede) : Prop :=
  p.replacementRow = none ∧ Text.trim p.replacement.text = ""

instance (p : PreparedSupersede) : Decidable (BlankTarget p) :=
  inferInstanceAs (Decidable (_ ∧ _))

/-- The statement on a target that is not blank. -/
def targetStatement (first last : PreparedSupersede) (shared : Bool) : Statement :=
  match first.replacementRow with
  | some row => .setTarget row last
  | none => .create first last shared

/-- The row that statement leaves. -/
def targetRow (host : Host) (now : Int) (first last : PreparedSupersede) (shared : Bool) :
    MemoryRow :=
  match first.replacementRow with
  | some row => setTarget host now last row
  | none => createdRow host now first last shared

theorem targetMutation_eq (first last : PreparedSupersede) (shared : Bool) :
    targetMutation first last shared =
      if BlankTarget first then .error .emptyText
      else .ok (targetStatement first last shared) := by
  unfold targetMutation targetStatement
  cases hrow : first.replacementRow with
  | some row =>
      have hsome : ¬BlankTarget first := fun h =>
        absurd (hrow.symm.trans h.1) (by simp)
      rw [if_neg hsome]
  | none =>
      by_cases hblank : Text.trim first.replacement.text = ""
      · have hpos : BlankTarget first := ⟨hrow, hblank⟩
        rw [if_pos hpos]
        exact if_pos hblank
      · have hneg : ¬BlankTarget first := fun h => hblank h.2
        rw [if_neg hneg]
        exact if_neg hblank

theorem run_previousGuard (h : rows.get? p.previousId = some p.previousRow) :
    (previousGuard p).run host now rows = .ok rows := if_pos h

theorem run_targetGuard (h : rows.get? p.replacement.id = p.replacementRow) :
    (targetGuard p).run host now rows = .ok rows := by
  unfold targetGuard
  split
  · next hrow => exact if_pos (h.trans hrow)
  · next hrow => exact if_pos (h.trans hrow)

theorem run_targetStatement (h : rows.get? first.replacement.id = first.replacementRow)
    (hid : last.replacement.id = first.replacement.id) :
    (targetStatement first last shared).run host now rows =
      .ok (rows.set first.replacement.id (targetRow host now first last shared)) := by
  unfold targetStatement targetRow
  split
  · next row hrow =>
      rw [hrow] at h
      simp only [Statement.run, updateWhere, hid, if_pos h]
  · next hrow =>
      rw [hrow] at h
      simp only [Statement.run, if_pos h]

theorem run_setPrevious (h : rows.get? p.previousId = some p.previousRow) :
    (Statement.setPrevious p).run host now rows =
      .ok (rows.set p.previousId (setPrevious host now p p.previousRow)) := if_pos h

end run

/-- The table after a plan. -/
def planRows (host : Host) (now : Int) (p : PreparedSupersede) (rows : Rows) : Rows :=
  (rows.set p.replacement.id (targetRow host now p p false)).set p.previousId
    (setPrevious host now p p.previousRow)

theorem compose_single (huser : p.userId ≠ "") (hne : p.previousId ≠ p.replacement.id) :
    composePreparedSupersedeBatch p.userId [p] =
      if BlankTarget p then .error .emptyText
      else .ok [previousGuard p, targetGuard p, targetStatement p p false, .setPrevious p] := by
  have hgroups : groupPreparedGenericSupersedes p.userId [p] = .ok [⟨p, []⟩] := by
    have hvalues : (groupByTarget [p]).values = [⟨p, []⟩] := rfl
    have hvalid : validateGroup p.userId ⟨p, []⟩ = .ok () := by
      simp [validateGroup, SupersedeGroup.shared]
    unfold groupPreparedGenericSupersedes
    rw [if_neg (by simp), if_neg (by simp), if_neg (by simpa using hne), hvalues]
    simp only [List.forM_eq_forM, List.forM_cons, List.forM_nil, hvalid]
    rfl
  unfold composePreparedSupersedeBatch
  rw [if_neg huser, if_neg (by simp), hgroups]
  simp only [bind, Except.bind, List.any_cons, List.any_nil, SupersedeGroup.shared,
    List.mapM_cons, List.mapM_nil, planMutation, targetMutation_eq]
  by_cases hblank : BlankTarget p
  · simp [hblank]
  · simp [hblank, pure, Except.pure]

/-- **One supersede.**  Once its plan is prepared, it writes the plan's two rows and nothing else,
unless it would create a row without text. -/
theorem supersedeMemory_eq {host : Host} {now : Int} {failed : Option String} {rows : Rows}
    (h : Prepared failed rows input p) :
    supersedeMemory host now failed input rows =
      if BlankTarget p then .error .emptyText else .ok (planRows host now p rows) := by
  have huser : p.userId ≠ "" := h.userId_eq ▸ h.user
  have hprev : rows.get? p.previousId = some p.previousRow := h.previousId_eq ▸ h.previous
  have htarget : rows.get? p.replacement.id = p.replacementRow := by
    rw [h.replacementRow_eq, h.replacement_eq]
  have hprev' : (rows.set p.replacement.id (targetRow host now p p false)).get? p.previousId =
      some p.previousRow := by
    rw [OrdMap.get?_set_ne _ _ h.ne, hprev]
  unfold supersedeMemory
  rw [prepareSupersedeMemory_ok.mpr h, ← h.userId_eq]
  simp only [bind, Except.bind, compose_single huser h.ne]
  by_cases hblank : BlankTarget p
  · simp only [if_pos hblank]
  · simp only [if_neg hblank, queryTransaction, List.foldlM_cons, List.foldlM_nil, bind,
      Except.bind, run_previousGuard hprev, run_targetGuard htarget,
      run_targetStatement htarget rfl, run_setPrevious hprev']
    rfl

theorem supersedeMemory_ok {host : Host} {now : Int} {failed : Option String}
    {rows rows' : Rows} (h : supersedeMemory host now failed input rows = .ok rows') :
    ∃ p, Prepared failed rows input p ∧ rows' = planRows host now p rows := by
  cases hp : prepareSupersedeMemory failed rows input with
  | error e =>
      unfold supersedeMemory at h
      rw [hp] at h
      cases h
  | ok p =>
      have hprepared := prepareSupersedeMemory_ok.mp hp
      rw [supersedeMemory_eq hprepared] at h
      split at h
      · cases h
      · exact ⟨p, hprepared, (Except.ok.inj h).symm⟩

theorem get?_planRows (host : Host) (now : Int) (p : PreparedSupersede) (rows : Rows)
    (id : String) :
    (planRows host now p rows).get? id =
      if id = p.previousId then some (setPrevious host now p p.previousRow)
      else if id = p.replacement.id then some (targetRow host now p p false)
      else rows.get? id := by
  unfold planRows
  rw [OrdMap.get?_set, OrdMap.get?_set]

/-! ### The columns a plan writes -/

section columns
variable {host : Host} {now : Int} {p : PreparedSupersede} {row : MemoryRow}

@[simp] theorem setPrevious_supersededBy :
    (setPrevious host now p row).supersededBy = some p.replacement.id := rfl
@[simp] theorem setPrevious_lineageRootId :
    (setPrevious host now p row).lineageRootId = some p.lineageRootId := rfl

theorem createdRow_supersedes :
    (createdRow host now first last shared).supersedes = some last.previousId := rfl

theorem createdRow_supersededBy :
    (createdRow host now first last shared).supersededBy = none := rfl

theorem createdRow_lineageRootId :
    (createdRow host now first last shared).lineageRootId = some last.lineageRootId := rfl

theorem targetRow_supersedes :
    (targetRow host now p p false).supersedes = some p.previousId := by
  unfold targetRow
  split
  · rfl
  · exact createdRow_supersedes

theorem targetRow_lineageRootId :
    (targetRow host now p p false).lineageRootId = some p.lineageRootId := by
  unfold targetRow
  split
  · rfl
  · exact createdRow_lineageRootId

/-- A target keeps the `superseded_by` it had, and a created one has none. -/
theorem targetRow_supersededBy :
    (targetRow host now p p false).supersededBy = p.replacementRow.bind (·.supersededBy) := by
  unfold targetRow
  split
  · next hrow =>
      rw [hrow]
      rfl
  · next hrow =>
      rw [hrow]
      exact createdRow_supersededBy

end columns

/-! ### The owner of a written row -/

section owner
variable (host : Host) (now : Int) (p : PreparedSupersede) (row : MemoryRow)

theorem payloadUserId_setTarget : (setTarget host now p row).payloadUserId = row.payloadUserId := by
  have hkey : (setTarget host now p row).payload.get? "userId" = row.payload.get? "userId" := by
    unfold setTarget
    simp only [get?_setProp]
    rfl
  unfold MemoryRow.payloadUserId
  rw [hkey]

theorem payloadUserId_setPrevious : (setPrevious host now p row).payloadUserId = row.payloadUserId := by
  have hkey : (setPrevious host now p row).payload.get? "userId" = row.payload.get? "userId" := by
    unfold setPrevious setStale
    cases p.previousStaleFlags with
    | none => simp only [get?_setProp]; rfl
    | some f => simp only [get?_setProp]; rfl
  unfold MemoryRow.payloadUserId
  rw [hkey]

/-- The stamps of a supersede win over the caller's metadata. -/
theorem get?_createMetadata (first last : PreparedSupersede) (k : String) :
    (createMetadata first last).get? k =
      (OrdMap.find k [("writeSource", .str last.replacement.writeSource),
        ("arbitrationOutcome", .str "supersede"),
        ("supersede_provenance", .str last.provenance.text)]).or
        ((first.replacement.metadata.getD .empty).get? k) := by
  have hkeys : ["writeSource", "arbitrationOutcome", "supersede_provenance"].Nodup := by decide
  unfold createMetadata
  rw [get?_spread, OrdMap.get?_ofList_of_nodup]
  exact hkeys

/-- A created row is its user's, unless the caller's metadata says otherwise. -/
theorem payloadUserId_createdRow (first last : PreparedSupersede) (shared : Bool) :
    (createdRow host now first last shared).payloadUserId =
      (((first.replacement.metadata.getD .empty).get? "userId").getD
        (.str first.replacement.userId)).str? := by
  have hpayload : (createdRow host now first last shared).payload.get? "userId" =
      ((first.replacement.metadata.getD .empty).get? "userId").or
        (some (.str first.replacement.userId)) := by
    have hcomposed : ∀ lifecycle, (composePayload now first.replacement.text
        first.replacement.userId (some (createMetadata first last)) first.replacement.scope
        first.replacement.sessionId lifecycle).get? "userId" =
          ((first.replacement.metadata.getD .empty).get? "userId").or
            (some (.str first.replacement.userId)) := by
      intro lifecycle
      rw [get?_composePayload, Option.getD_some, get?_createMetadata, get?_basePayload]
      cases (first.replacement.metadata.getD .empty).get? "userId" <;>
        simp [OrdMap.find, Option.filter]
    unfold createdRow
    simp only
    rw [get?_clockOverlay _ _ _ _ _ (by decide) (by decide)]
    exact hcomposed _
  unfold MemoryRow.payloadUserId
  rw [hpayload]
  cases (first.replacement.metadata.getD .empty).get? "userId" <;> rfl

end owner

theorem MemoryRow.ownedBy_payload {row : MemoryRow} {userId : String}
    (h : row.ownedBy userId = true) : row.payloadUserId = some userId := by
  unfold MemoryRow.ownedBy at h
  rw [Bool.and_eq_true] at h
  exact of_decide_eq_true h.2

end Runir
