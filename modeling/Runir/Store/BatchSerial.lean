import Runir.Store.Batch
import Runir.Store.SupersedeRuns
import Runir.Store.Untimed

/-!
# Store — A batch and its plans one by one

A batch of plans against the same plans through `supersedeMemory`, in list order.  Both are read
as updates of one abstract table, `UntimedRows`, that forgets the clocks.

* `Linked.step`: what one plan does to the abstract table; `view_planRows` is its refinement.
* `serial_run`: the calls complete exactly when no cycle guard refuses, and then do the plans'
  steps one after the other.
* `batch_eq_serial`: the batch leaves the same rows exactly when also no shared fresh target
  carries a link in its metadata.
-/

namespace Runir

/-- A table without clocks. -/
abbrev UntimedRows := String → Option Untimed

def view (rows : Rows) : UntimedRows := fun id => (rows.get? id).map MemoryRow.untimed

/-! ### One plan -/

/-- What a plan makes of its target. -/
def linkTarget (host : Host) (p : PreparedSupersede) : Option Untimed → Untimed
  | some u => u.link p
  | none => createdUntimed host p p

/-- What a plan makes of its previous row. -/
def retiredRow (p : PreparedSupersede) : Untimed := (setPrevious .ascii 0 p p.previousRow).untimed

/-- One plan on the abstract table. -/
def applyPlan (host : Host) (σ : UntimedRows) (p : PreparedSupersede) : UntimedRows :=
  Function.update (Function.update σ p.replacement.id (some (linkTarget host p (σ p.replacement.id))))
    p.previousId (some (retiredRow p))

variable {rows : Rows}

/-- **Refinement.**  A plan that runs does to the table what it does to the abstract one. -/
theorem view_planRows {host : Host} {now : Int} {p : PreparedSupersede}
    (h : rows.get? p.replacement.id = p.replacementRow) :
    view (planRows host now p rows) = applyPlan host (view rows) p := by
  have htargetView : view rows p.replacement.id = p.replacementRow.map MemoryRow.untimed :=
    congrArg (Option.map MemoryRow.untimed) h
  funext id
  unfold applyPlan
  rw [htargetView, Function.update_apply, Function.update_apply]
  unfold view
  rw [get?_planRows]
  by_cases hprev : id = p.previousId
  · rw [if_pos hprev, if_pos hprev]
    exact congrArg some (untimed_setPrevious host .ascii now 0 p p.previousRow)
  · rw [if_neg hprev, if_neg hprev]
    by_cases htarget : id = p.replacement.id
    · rw [if_pos htarget, if_pos htarget]
      unfold targetRow
      cases p.replacementRow with
      | some row => exact congrArg some (untimed_setTarget host now p row)
      | none => exact congrArg some (untimed_createdRow host now p p false)
    · rw [if_neg htarget, if_neg htarget]

/-! ### Many plans -/

section fold
variable {host : Host}

/-- A row that no plan touches. -/
theorem foldl_applyPlan_of_ne {plans : List PreparedSupersede} {σ : UntimedRows} {id : String}
    (hprev : ∀ p ∈ plans, p.previousId ≠ id) :
    plans.foldl (applyPlan host) σ id =
      (plansFor plans id).foldl (fun u p => some (linkTarget host p u)) (σ id) := by
  induction plans generalizing σ with
  | nil => rfl
  | cons p plans ih =>
      obtain ⟨hp, hplans⟩ := List.forall_mem_cons.mp hprev
      rw [List.foldl_cons, ih hplans]
      have hread : applyPlan host σ p id =
          if id = p.replacement.id then some (linkTarget host p (σ p.replacement.id))
          else σ id := by
        unfold applyPlan
        rw [Function.update_of_ne (Ne.symm hp), Function.update_apply]
      rw [hread]
      by_cases htarget : p.replacement.id = id
      · have hfor : plansFor (p :: plans) id = p :: plansFor plans id := by
          unfold plansFor
          rw [List.filter_cons_of_pos (by simpa using htarget)]
        rw [if_pos htarget.symm, hfor, List.foldl_cons, htarget]
      · have hfor : plansFor (p :: plans) id = plansFor plans id := by
          unfold plansFor
          rw [List.filter_cons_of_neg (by simpa using htarget)]
        rw [if_neg (Ne.symm htarget), hfor]

/-- A previous row is retired once. -/
theorem foldl_applyPlan_previous {plans : List PreparedSupersede} {σ : UntimedRows}
    (hnodup : (plans.map (·.previousId)).Nodup)
    (hdisjoint : ∀ p ∈ plans, ∀ q ∈ plans, p.previousId ≠ q.replacement.id)
    {p : PreparedSupersede} (hp : p ∈ plans) :
    plans.foldl (applyPlan host) σ p.previousId = some (retiredRow p) := by
  induction plans generalizing σ with
  | nil => cases hp
  | cons q plans ih =>
      obtain ⟨hq, hnodup'⟩ := List.nodup_cons.mp hnodup
      rw [List.foldl_cons]
      rcases List.mem_cons.mp hp with rfl | hp'
      · -- the remaining plans leave the row alone
        have hprev : ∀ r ∈ plans, r.previousId ≠ p.previousId := fun r hr heq =>
          hq (List.mem_map.mpr ⟨r, hr, heq⟩)
        have hfor : plansFor plans p.previousId = [] := by
          refine List.filter_eq_nil_iff.mpr fun r hr => ?_
          have hne := hdisjoint p List.mem_cons_self r (List.mem_cons_of_mem _ hr)
          simpa using Ne.symm hne
        rw [foldl_applyPlan_of_ne hprev, hfor, List.foldl_nil]
        unfold applyPlan
        rw [Function.update_self]
      · exact ih hnodup' (fun r hr s hs =>
          hdisjoint r (List.mem_cons_of_mem _ hr) s (List.mem_cons_of_mem _ hs)) hp'

/-- Linking an existing row to several plans links it to the last. -/
theorem foldl_link (u : Untimed) (p : PreparedSupersede) (rest : List PreparedSupersede) :
    rest.foldl (fun u p => some (linkTarget host p u)) (some (u.link p)) =
      some (u.link (rest.getLastD p)) := by
  induction rest generalizing p with
  | nil => rfl
  | cons q rest ih =>
      rw [List.foldl_cons, List.getLastD_cons]
      change rest.foldl _ (some ((u.link p).link q)) = _
      rw [Untimed.link_link]
      exact ih q

/-- Linking the created row of the first plan to the others links it to the last. -/
theorem foldl_link_created (p : PreparedSupersede) {rest : List PreparedSupersede}
    (h : rest ≠ []) :
    rest.foldl (fun u p => some (linkTarget host p u)) (some (createdUntimed host p p)) =
      some ((createdUntimed host p p).link (rest.getLastD p)) := by
  cases rest with
  | nil => exact absurd rfl h
  | cons q rest =>
      rw [List.foldl_cons, List.getLastD_cons]
      exact foldl_link (createdUntimed host p p) q rest

end fold

/-! ### The guards of the plans, one by one -/

/-- The caller's metadata leaves a created row to its user. -/
def OwnsCreated (p : PreparedSupersede) : Prop :=
  ((p.replacement.metadata.getD .empty).get? "userId").getD (.str p.replacement.userId) =
    .str p.replacement.userId

instance (p : PreparedSupersede) : Decidable (OwnsCreated p) := inferInstanceAs (Decidable (_ = _))

/-- The `supersedes` pointers the cycle guard sees once a plan is applied: its target names its
previous row, when the user can see it. -/
def linkPointer (next : String → Option (Option String)) (p : PreparedSupersede) (id : String) :
    Option (Option String) :=
  if id = p.replacement.id then
    if (next id).isSome ∨ OwnsCreated p then some (some p.previousId) else none
  else next id

/-- No cycle guard refuses, each plan's guard seeing the links of the plans before it. -/
def GuardsPass (next : String → Option (Option String)) : List PreparedSupersede → Prop
  | [] => True
  | p :: plans =>
      cycleWalk next p.replacement.id corruptionCeiling [] p.previousId = false ∧
        GuardsPass (linkPointer next p) plans

instance decidableGuardsPass (next : String → Option (Option String)) :
    (plans : List PreparedSupersede) → Decidable (GuardsPass next plans)
  | [] => isTrue trivial
  | p :: plans =>
      haveI := decidableGuardsPass (linkPointer next p) plans
      inferInstanceAs (Decidable (_ ∧ _))

/-- What a call needs of the table, apart from its cycle guard: its previous row is still the one
its plan was prepared on, and its target, if there is one, is the user's. -/
structure Ready (rows : Rows) (call : SupersedeCall) (p : PreparedSupersede) : Prop where
  plan : p = ⟨call.input.replacement.userId, call.input.previousId, call.input.replacement,
    p.previousRow, p.replacementRow, call.input.provenance, call.input.inactiveReason,
    call.input.previousStaleFlags,
    call.input.previousLineageRootId.getD call.input.previousId⟩
  admitted : validateGenericPreparedInputs call.input = .ok ()
  internal : ¬(call.input.replacement.scope = .global ∧ call.input.isInternalCaller = false)
  previous : rows.get? p.previousId = some p.previousRow
  previousOwned : p.previousRow.ownedBy p.replacement.userId = true
  noLineage : p.previousRow.processingLineage = none
  target : ∀ row, rows.get? p.replacement.id = some row →
    row.ownedBy p.replacement.userId = true ∧ row.processingLineage = none

theorem Prepared.ready {failed : Option String} {call : SupersedeCall}
    {p : PreparedSupersede} (h : Prepared failed rows call.input p) : Ready rows call p where
  plan := by
    have hplan := h.plan
    rw [← h.replacementRow_eq] at hplan
    exact hplan
  admitted := h.admitted
  internal := h.internal
  previous := h.previousId_eq ▸ h.previous
  previousOwned := h.replacement_eq ▸ h.previousOwned
  noLineage := h.noLineage
  target := by
    intro row hrow
    rw [h.replacement_eq] at hrow ⊢
    exact ⟨h.replacementOwned row hrow, h.replacementNoLineage row hrow⟩

/-- The plan of a call, prepared again on the table as it is now. -/
def replan (rows : Rows) (p : PreparedSupersede) : PreparedSupersede :=
  { p with replacementRow := rows.get? p.replacement.id }

namespace Ready
variable {rows : Rows} {call : SupersedeCall} {p : PreparedSupersede}

theorem previousId_eq (h : Ready rows call p) : p.previousId = call.input.previousId := by
  rw [h.plan]

theorem replacement_eq (h : Ready rows call p) : p.replacement = call.input.replacement := by
  rw [h.plan]

/-- A call that is ready prepares its plan exactly when its cycle guard lets it. -/
theorem prepared_iff (h : Ready rows call p) {q : PreparedSupersede} :
    Prepared none rows call.input q ↔
      q = replan rows p ∧
        cycleWalk (guardQuery none rows p.replacement.userId) p.replacement.id corruptionCeiling []
          p.previousId = false := by
  have hprevious : rows.get? call.input.previousId = some p.previousRow := by
    rw [← h.previousId_eq]
    exact h.previous
  constructor
  · intro hq
    have hrow : q.previousRow = p.previousRow :=
      Option.some.inj (hq.previous.symm.trans hprevious)
    refine ⟨?_, ?_⟩
    · rw [hq.plan, hrow]
      unfold replan
      rw [h.plan]
    · have hguard := hq.noCycle
      unfold wouldCreateCycle at hguard
      rw [h.replacement_eq, h.previousId_eq]
      exact hguard
  · rintro ⟨rfl, hguard⟩
    rw [h.replacement_eq, h.previousId_eq] at hguard
    have howned := h.previousOwned
    rw [h.replacement_eq] at howned
    have htarget := h.target
    rw [h.replacement_eq] at htarget
    refine ⟨?_, h.admitted, validate_user h.admitted, hprevious, howned,
      fun row hrow => (htarget row hrow).1, h.noLineage, fun row hrow => (htarget row hrow).2,
      hguard, h.internal⟩
    unfold replan
    rw [h.plan]

end Ready

section serial
variable {host : Host} {now : Int} {userId : String} {rows : Rows} {call : SupersedeCall}
  {p : PreparedSupersede}

theorem str?_eq_some {v : Value} {s : String} : v.str? = some s ↔ v = .str s := by
  cases v <;> simp [Value.str?]

theorem guardQuery_of_owned {row : MemoryRow} {id : String} (hrow : rows.get? id = some row)
    (howned : row.payloadUserId = some userId) :
    guardQuery none rows userId id = some row.supersedes := by
  unfold guardQuery visibleSupersedes
  rw [if_neg (by simp), hrow]
  exact if_pos howned

/-- **The pointers after a plan** are those before it, with its link in place. -/
theorem guardQuery_planRows (hp : Ready rows call p) (huser : p.replacement.userId = userId)
    (hne : p.previousId ≠ p.replacement.id) :
    guardQuery none (planRows host now (replan rows p) rows) userId =
      linkPointer (guardQuery none rows userId) p := by
  funext id
  have hread := get?_planRows host now (replan rows p) rows id
  by_cases htarget : id = p.replacement.id
  · subst htarget
    unfold linkPointer
    rw [if_pos rfl]
    have hafter : (planRows host now (replan rows p) rows).get? p.replacement.id =
        some (targetRow host now (replan rows p) (replan rows p) false) := by
      rw [hread]
      exact (if_neg hne.symm).trans (if_pos rfl)
    have hlink : (targetRow host now (replan rows p) (replan rows p) false).supersedes =
        some p.previousId := targetRow_supersedes
    cases hrow : rows.get? p.replacement.id with
    | some row =>
        have howned : row.payloadUserId = some userId :=
          huser ▸ MemoryRow.ownedBy_payload (hp.target row hrow).1
        have hvisible : (targetRow host now (replan rows p) (replan rows p) false).payloadUserId =
            some userId := by
          unfold targetRow replan
          simp only [hrow]
          rw [payloadUserId_setTarget, howned]
        rw [guardQuery_of_owned hafter hvisible, hlink, guardQuery_of_owned hrow howned]
        exact (if_pos (Or.inl rfl)).symm
    | none =>
        have hnone : guardQuery none rows userId p.replacement.id = none := by
          unfold guardQuery visibleSupersedes
          rw [if_neg (by simp), hrow]
        have hcreated : (targetRow host now (replan rows p) (replan rows p) false).payloadUserId =
            (((p.replacement.metadata.getD .empty).get? "userId").getD
              (.str p.replacement.userId)).str? := by
          have hfresh : (replan rows p).replacementRow = none := hrow
          unfold targetRow
          rw [hfresh]
          exact payloadUserId_createdRow host now (replan rows p) (replan rows p) false
        rw [hnone]
        by_cases howns : OwnsCreated p
        · have hvisible : (targetRow host now (replan rows p) (replan rows p) false).payloadUserId =
              some userId := by
            rw [hcreated, howns, huser]
            rfl
          rw [guardQuery_of_owned hafter hvisible, hlink]
          exact (if_pos (Or.inr howns)).symm
        · -- the created row is not its user's
          have hhidden : (targetRow host now (replan rows p) (replan rows p) false).payloadUserId ≠
              some userId := by
            rw [hcreated]
            intro h
            exact howns ((str?_eq_some.mp h).trans (by rw [huser]))
          have hneg : ¬((none : Option (Option String)).isSome = true ∨ OwnsCreated p) := by
            rintro (h | h)
            · cases h
            · exact howns h
          rw [if_neg hneg]
          unfold guardQuery visibleSupersedes
          rw [if_neg (by simp), hafter]
          exact if_neg hhidden
  · unfold linkPointer
    rw [if_neg htarget]
    by_cases hprev : id = p.previousId
    · have howned : p.previousRow.payloadUserId = some userId :=
        huser ▸ MemoryRow.ownedBy_payload hp.previousOwned
      have hafter : (planRows host now (replan rows p) rows).get? id =
          some (setPrevious host now (replan rows p) p.previousRow) := hread.trans (if_pos hprev)
      have hbefore : rows.get? id = some p.previousRow := hprev ▸ hp.previous
      have hvisible : (setPrevious host now (replan rows p) p.previousRow).payloadUserId =
          some userId := by
        rw [payloadUserId_setPrevious, howned]
      rw [guardQuery_of_owned hafter hvisible, guardQuery_of_owned hbefore howned]
      rfl
    · have hsame : (planRows host now (replan rows p) rows).get? id = rows.get? id :=
        hread.trans ((if_neg hprev).trans (if_neg htarget))
      unfold guardQuery visibleSupersedes
      rw [hsame]

theorem ownedBy_setTarget {row : MemoryRow} (h : row.ownedBy userId = true) :
    (setTarget host now p row).ownedBy userId = true := by
  unfold MemoryRow.ownedBy at h ⊢
  rw [payloadUserId_setTarget]
  exact h

theorem ownedBy_createdRow (h : OwnsCreated p) (first : PreparedSupersede)
    (hreplacement : first.replacement = p.replacement) :
    (createdRow host now first first false).ownedBy p.replacement.userId = true := by
  have hpayload : (createdRow host now first first false).payloadUserId =
      some p.replacement.userId := by
    rw [payloadUserId_createdRow, hreplacement, h]
    rfl
  have hcolumn : (createdRow host now first first false).userId = some p.replacement.userId := by
    rw [← hreplacement]
    rfl
  unfold MemoryRow.ownedBy
  rw [hpayload, hcolumn]
  simp

/-- A plan keeps the calls after it ready. -/
theorem Ready.step (hp : Ready rows call p) {call' : SupersedeCall} {q : PreparedSupersede}
    (hq : Ready rows call' q) (huser : p.replacement.userId = q.replacement.userId)
    (hprev : q.previousId ≠ p.previousId) (hprev' : q.previousId ≠ p.replacement.id)
    (htarget : q.replacement.id ≠ p.previousId)
    (howns : rows.get? p.replacement.id = none → p.replacement.id = q.replacement.id →
      OwnsCreated p) :
    Ready (planRows host now (replan rows p) rows) call' q := by
  refine ⟨hq.plan, hq.admitted, hq.internal, ?_, hq.previousOwned, hq.noLineage, ?_⟩
  · rw [get?_planRows]
    exact (if_neg hprev).trans ((if_neg hprev').trans hq.previous)
  · intro row hrow
    rw [get?_planRows] at hrow
    replace hrow := (if_neg htarget).symm.trans hrow
    by_cases hshared : q.replacement.id = p.replacement.id
    · obtain rfl := Option.some.inj ((if_pos hshared).symm.trans hrow)
      unfold targetRow
      cases hread : rows.get? p.replacement.id with
      | some row =>
          have hexisting : (replan rows p).replacementRow = some row := hread
          rw [hexisting]
          obtain ⟨howned, hlineage⟩ := hp.target row hread
          exact ⟨ownedBy_setTarget (huser ▸ howned), hlineage⟩
      | none =>
          have hfresh : (replan rows p).replacementRow = none := hread
          rw [hfresh]
          refine ⟨?_, rfl⟩
          rw [← huser]
          exact ownedBy_createdRow (howns hread hshared.symm) (replan rows p) rfl
    · exact hq.target row ((if_neg hshared).symm.trans hrow)

end serial

/-- The calls one after the other, their guards reading the table each time. -/
def serialSupersede (host : Host) (calls : List SupersedeCall) (rows : Rows) :
    Except StoreError Rows :=
  calls.foldlM (fun rows call => supersedeMemory host call.now none call.input rows) rows

/-- The first plan for a target that is not there has a text, and leaves the row to its user if
another plan shares it. -/
def FreshTargets (rows : Rows) (plans : List PreparedSupersede) : Prop :=
  ∀ pre p post, plans = pre ++ p :: post → rows.get? p.replacement.id = none →
    p.replacement.id ∉ pre.map (·.replacement.id) →
      Text.trim p.replacement.text ≠ "" ∧
        (p.replacement.id ∈ post.map (·.replacement.id) → OwnsCreated p)

/-- One call that is ready: it does its plan, exactly when its cycle guard lets it. -/
theorem Ready.run (host : Host) {call : SupersedeCall} {p : PreparedSupersede}
    (h : Ready rows call p)
    (htext : rows.get? p.replacement.id = none → Text.trim p.replacement.text ≠ "") (rows' : Rows) :
    supersedeMemory host call.now none call.input rows = .ok rows' ↔
      cycleWalk (guardQuery none rows p.replacement.userId) p.replacement.id corruptionCeiling []
          p.previousId = false ∧
        rows' = planRows host call.now (replan rows p) rows := by
  constructor
  · intro hrun
    obtain ⟨q, hq, hrows'⟩ := supersedeMemory_ok hrun
    obtain ⟨rfl, hguard⟩ := h.prepared_iff.mp hq
    exact ⟨hguard, hrows'⟩
  · rintro ⟨hguard, rfl⟩
    have hprepared := h.prepared_iff.mpr ⟨rfl, hguard⟩
    have hnotBlank : ¬BlankTarget (replan rows p) := fun hblank => htext hblank.1 hblank.2
    rw [supersedeMemory_eq hprepared, if_neg hnotBlank]

/-- **The calls one by one** complete exactly when no cycle guard refuses, and then do the steps of
their plans. -/
theorem serial_run (host : Host) {userId : String} {calls : List SupersedeCall}
    {plans : List PreparedSupersede} (hready : List.Forall₂ (Ready rows) calls plans)
    (husers : ∀ p ∈ plans, p.replacement.userId = userId)
    (hnodup : (plans.map (·.previousId)).Nodup)
    (hdisjoint : ∀ p ∈ plans, ∀ q ∈ plans, p.previousId ≠ q.replacement.id)
    (hfresh : FreshTargets rows plans) :
    (GuardsPass (guardQuery none rows userId) plans →
      ∃ rows', serialSupersede host calls rows = .ok rows' ∧
        view rows' = plans.foldl (applyPlan host) (view rows)) ∧
    (∀ rows', serialSupersede host calls rows = .ok rows' →
      GuardsPass (guardQuery none rows userId) plans) := by
  induction calls generalizing plans rows with
  | nil =>
      cases hready
      exact ⟨fun _ => ⟨rows, rfl, rfl⟩, fun _ _ => trivial⟩
  | cons call calls ih =>
      obtain ⟨p, plans, hp, hrest, rfl⟩ := List.forall₂_cons_left_iff.mp hready
      obtain ⟨huser, husers'⟩ := List.forall_mem_cons.mp husers
      obtain ⟨hnew, hnodup'⟩ := List.nodup_cons.mp hnodup
      have hne : p.previousId ≠ p.replacement.id :=
        hdisjoint p List.mem_cons_self p List.mem_cons_self
      have hhead := hfresh [] p plans rfl
      have hrun := hp.run host (fun hnone => (hhead hnone (by simp)).1)
      simp only [huser] at hrun
      have hpointers := @guardQuery_planRows host call.now userId rows call p hp huser hne
      -- the rest of the calls, on the table after the first
      have hready' : List.Forall₂ (Ready (planRows host call.now (replan rows p) rows)) calls
          plans := by
        refine List.forall₂_iff_get.mpr ⟨hrest.length_eq, fun i h₁ h₂ => ?_⟩
        have hq := hrest.get h₁ h₂
        have hmem : plans.get ⟨i, h₂⟩ ∈ plans := List.get_mem plans ⟨i, h₂⟩
        have hmem' := List.mem_cons_of_mem p hmem
        refine hp.step hq (huser.trans (husers' _ hmem).symm) ?_ ?_ ?_ ?_
        · exact fun heq => hnew (List.mem_map.mpr ⟨_, hmem, heq⟩)
        · exact hdisjoint _ hmem' p List.mem_cons_self
        · exact (hdisjoint p List.mem_cons_self _ hmem').symm
        · intro hnone heq
          exact (hhead hnone (by simp)).2 (List.mem_map.mpr ⟨_, hmem, heq.symm⟩)
      have hfresh' : FreshTargets (planRows host call.now (replan rows p) rows) plans := by
        rintro pre q post rfl hnone hfirst
        rw [get?_planRows] at hnone
        split at hnone
        · cases hnone
        · split at hnone
          · cases hnone
          · next hother =>
              refine hfresh (p :: pre) q post rfl hnone ?_
              rw [List.map_cons, List.mem_cons, not_or]
              exact ⟨hother, hfirst⟩
      have ih' := ih hready' husers' hnodup'
        (fun q hq r hr => hdisjoint q (List.mem_cons_of_mem _ hq) r (List.mem_cons_of_mem _ hr))
        hfresh'
      rw [hpointers] at ih'
      have hview : view (planRows host call.now (replan rows p) rows) =
          applyPlan host (view rows) p := view_planRows rfl
      constructor
      · rintro ⟨hguard, hguards⟩
        obtain ⟨rows', hserial, hfold⟩ := ih'.1 hguards
        refine ⟨rows', ?_, ?_⟩
        · unfold serialSupersede
          rw [List.foldlM_cons, (hrun _).mpr ⟨hguard, rfl⟩]
          exact hserial
        · rw [hfold, hview]
          rfl
      · intro rows' hserial
        unfold serialSupersede at hserial
        rw [List.foldlM_cons] at hserial
        cases hfirst : supersedeMemory host call.now none call.input rows with
        | error e =>
            rw [hfirst] at hserial
            cases hserial
        | ok rows₁ =>
            obtain ⟨hguard, rfl⟩ := (hrun rows₁).mp hfirst
            rw [hfirst] at hserial
            exact ⟨hguard, ih'.2 rows' hserial⟩

/-! ### The batch -/

/-- The metadata of every shared fresh target leaves its links to the last plan for it. -/
def LinksLeft (plans : List PreparedSupersede) : Prop :=
  ∀ g ∈ (groupByTarget plans).values, g.first.replacementRow = none → g.shared = true →
    LeavesLinks g.first.replacement.metadata g.last

instance (plans : List PreparedSupersede) : Decidable (LinksLeft plans) :=
  inferInstanceAs (Decidable (∀ g ∈ (groupByTarget plans).values, _ → _ → _))

section batch
variable {host : Host} {now : Int} {userId : String} {rows : Rows}
  {plans : List PreparedSupersede} {statements : List Statement}

variable {g : SupersedeGroup}

/-- A shared fresh target passes the grouped check only if it is its user's. -/
theorem validateGroup_owns (h : validateGroup userId g = .ok ())
    (hfresh : g.first.replacementRow = none) (hshared : g.shared = true)
    (huser : g.first.replacement.userId = userId) : OwnsCreated g.first := by
  unfold validateGroup at h
  split at h
  · cases h
  split at h
  · cases h
  rw [if_pos (by simp [hfresh, hshared])] at h
  unfold validateGroupedFreshPayloadEligibility at h
  simp only [bind, Except.bind] at h
  split at h
  · cases h
  by_cases hforeign : ((g.first.replacement.metadata.getD .empty).get? "userId").any
      (· ≠ .str userId) = true
  · rw [if_pos hforeign] at h
    cases h
  · unfold OwnsCreated
    rw [huser]
    cases hread : (g.first.replacement.metadata.getD .empty).get? "userId" with
    | none => rfl
    | some v =>
        rw [hread] at hforeign
        simpa using hforeign

theorem Composed.freshTargets (h : Composed userId plans statements) (hrows : Matches rows plans)
    (husers : ∀ p ∈ plans, p.replacement.userId = userId) : FreshTargets rows plans := by
  rintro pre p post rfl hnone hfirst
  have hp : p ∈ pre ++ p :: post := by simp
  -- the plan is the first of its group
  have hfor : plansFor (pre ++ p :: post) p.replacement.id =
      p :: plansFor post p.replacement.id := by
    have hpre : plansFor pre p.replacement.id = [] := by
      refine List.filter_eq_nil_iff.mpr fun q hq hmem => ?_
      exact hfirst (List.mem_map.mpr ⟨q, hq, of_decide_eq_true hmem⟩)
    have hsplit : plansFor (pre ++ p :: post) p.replacement.id =
        plansFor pre p.replacement.id ++ plansFor (p :: post) p.replacement.id :=
      List.filter_append _ _
    rw [hsplit, hpre]
    unfold plansFor
    rw [List.filter_cons_of_pos (by simp)]
    rfl
  have hget : (groupByTarget (pre ++ p :: post)).get? p.replacement.id =
      some ⟨p, plansFor post p.replacement.id⟩ := by
    rw [get?_groupByTarget, hfor]
    rfl
  have hg := OrdMap.mem_values.mpr ⟨_, hget⟩
  have hfresh : p.replacementRow = none := (hrows p hp).2.symm.trans hnone
  refine ⟨fun hblank => h.notBlank _ hg ⟨hfresh, hblank⟩, fun hlater => ?_⟩
  obtain ⟨q, hq, hqt⟩ := List.mem_map.mp hlater
  have hrest : plansFor post p.replacement.id ≠ [] :=
    List.ne_nil_of_mem (mem_plansFor.mpr ⟨hq, hqt⟩)
  exact validateGroup_owns (h.valid _ hg) hfresh (decide_eq_true hrest) (husers p hp)

/-- What the plans do to the target of a group, one by one. -/
theorem foldl_applyPlan_target (h : Composed userId plans statements)
    (hg : g ∈ (groupByTarget plans).values) (σ : UntimedRows) :
    plans.foldl (applyPlan host) σ g.targetId =
      g.rest.foldl (fun u p => some (linkTarget host p u))
        (some (linkTarget host g.first (σ g.targetId))) := by
  have hprev : ∀ p ∈ plans, p.previousId ≠ g.targetId := fun p hp =>
    h.disjoint p hp g.first (SupersedeGroup.mem_states hg g.first_mem).1
  rw [foldl_applyPlan_of_ne hprev, ← (mem_groups hg).1]
  rfl

/-- The row a batch makes of a target is what its plans make of it one by one, unless the target
is shared, fresh, and carries a link of its own. -/
theorem targetRow_eq_foldl (host : Host) (now : Int) (h : Composed userId plans statements)
    (hrows : Matches rows plans) (hg : g ∈ (groupByTarget plans).values) :
    (some (targetRow host now g.first g.last g.shared).untimed =
      plans.foldl (applyPlan host) (view rows) g.targetId) ↔
    (g.first.replacementRow = none → g.shared = true →
      LeavesLinks g.first.replacement.metadata g.last) := by
  have hfirst : rows.get? g.targetId = g.first.replacementRow :=
    (hrows g.first (SupersedeGroup.mem_states hg g.first_mem).1).2
  have hread : view rows g.targetId = g.first.replacementRow.map MemoryRow.untimed :=
    congrArg (Option.map MemoryRow.untimed) hfirst
  rw [foldl_applyPlan_target h hg, hread]
  unfold targetRow
  cases hrow : g.first.replacementRow with
  | some row =>
      refine iff_of_true ?_ fun hnone => by cases hnone
      rw [untimed_setTarget]
      exact (foldl_link row.untimed g.first g.rest).symm
  | none =>
      rw [untimed_createdRow]
      by_cases hrest : g.rest = []
      · have hlast : g.last = g.first := by
          unfold SupersedeGroup.last
          rw [hrest]
          rfl
        refine iff_of_true ?_ fun _ hshared => ?_
        · rw [hlast, hrest]
          rfl
        · exact absurd hrest (of_decide_eq_true hshared)
      · have hfold := @foldl_link_created host g.first g.rest hrest
        have hcreated : linkTarget host g.first (Option.map MemoryRow.untimed none) =
            createdUntimed host g.first g.first := rfl
        rw [hcreated, hfold, Option.some.injEq, eq_comm]
        refine (createdUntimed_link host g.first g.last).trans ?_
        exact ⟨fun hlinks _ _ => hlinks, fun hlinks => hlinks rfl (decide_eq_true hrest)⟩

/-- **The batch** does to every row what its plans do one by one, exactly when it leaves the links
of shared fresh targets alone. -/
theorem view_batch (h : Composed userId plans statements) (hrows : Matches rows plans) :
    view ((batchWrites host now plans).foldl (fun m e => m.set e.1 e.2) rows) =
      plans.foldl (applyPlan host) (view rows) ↔ LinksLeft plans := by
  constructor
  · intro heq g hg
    refine (targetRow_eq_foldl host now h hrows hg).mp ?_
    rw [← heq]
    unfold view
    rw [h.get?_target hg]
    rfl
  · intro hlinks
    funext id
    by_cases hprev : ∃ p ∈ plans, p.previousId = id
    · obtain ⟨p, hp, rfl⟩ := hprev
      rw [foldl_applyPlan_previous h.previous h.disjoint hp]
      unfold view
      rw [h.get?_previous hp]
      exact congrArg some (untimed_setPrevious host .ascii now 0 p p.previousRow)
    · have hprev' : ∀ p ∈ plans, p.previousId ≠ id := fun p hp heq => hprev ⟨p, hp, heq⟩
      by_cases htarget : ∃ p ∈ plans, p.replacement.id = id
      · obtain ⟨p, hp, rfl⟩ := htarget
        obtain ⟨g, hg, hpg⟩ := exists_group hp
        rw [(SupersedeGroup.mem_states hg hpg).2,
          ← (targetRow_eq_foldl host now h hrows hg).mpr (hlinks g hg)]
        unfold view
        rw [h.get?_target hg]
        rfl
      · -- a row no plan names
        have htarget' : ∀ p ∈ plans, p.replacement.id ≠ id := fun p hp heq => htarget ⟨p, hp, heq⟩
        have hfor : plansFor plans id = [] := by
          refine List.filter_eq_nil_iff.mpr fun p hp => ?_
          simpa using htarget' p hp
        rw [foldl_applyPlan_of_ne hprev', hfor, List.foldl_nil]
        unfold view
        rw [h.get?_other hprev' htarget']

end batch

/-- **A batch against its plans one by one.**  Plans prepared on a table and accepted as a batch
commit; and the same calls one after the other complete and leave the same rows, timestamps
apart, exactly when no shared fresh target carries a link in its metadata and no call's cycle guard
refuses once the links of the calls before it are in place. -/
theorem batch_eq_serial {host : Host} {now : Int} {userId : String} {rows : Rows}
    {calls : List SupersedeCall} {plans : List PreparedSupersede} {statements : List Statement}
    (hprepared : (calls.mapM fun call => prepareSupersedeMemory call.failed rows call.input) =
      .ok plans)
    (hcomposed : composePreparedSupersedeBatch userId plans = .ok statements) :
    ∃ batched, queryTransaction host now statements rows = .ok batched ∧
      ((∃ serial, serialSupersede host calls rows = .ok serial ∧ view batched = view serial) ↔
        LinksLeft plans ∧ GuardsPass (guardQuery none rows userId) plans) := by
  have h := composePreparedSupersedeBatch_ok hcomposed
  have hprepared' : List.Forall₂ (fun call p => Prepared call.failed rows call.input p) calls
      plans := (forall₂_of_mapM_ok hprepared).imp fun _ _ hp => prepareSupersedeMemory_ok.mp hp
  have hready : List.Forall₂ (Ready rows) calls plans := hprepared'.imp fun _ _ hp => hp.ready
  have hplan : ∀ p ∈ plans, ∃ call : SupersedeCall, Prepared call.failed rows call.input p := by
    intro p hp
    obtain ⟨i, hi, rfl⟩ := List.getElem_of_mem hp
    have hlen := hprepared'.length_eq
    exact ⟨_, hprepared'.get (hlen ▸ hi) hi⟩
  have hrows : Matches rows plans := by
    intro p hp
    obtain ⟨call, hprep⟩ := hplan p hp
    refine ⟨hprep.previousId_eq ▸ hprep.previous, ?_⟩
    rw [hprep.replacementRow_eq, hprep.replacement_eq]
  have husers : ∀ p ∈ plans, p.replacement.userId = userId := by
    intro p hp
    obtain ⟨call, hprep⟩ := hplan p hp
    rw [hprep.replacement_eq, ← hprep.userId_eq]
    exact h.users p hp
  obtain ⟨hruns, hguards⟩ := serial_run host hready husers h.previous h.disjoint
    (h.freshTargets hrows husers)
  refine ⟨_, batch_run h hrows, ?_⟩
  constructor
  · rintro ⟨serial, hserial, heq⟩
    have hpass := hguards serial hserial
    obtain ⟨serial', hserial', hfold⟩ := hruns hpass
    obtain rfl := Except.ok.inj (hserial.symm.trans hserial')
    exact ⟨(view_batch h hrows).mp (heq.trans hfold), hpass⟩
  · rintro ⟨hlinks, hpass⟩
    obtain ⟨serial, hserial, hfold⟩ := hruns hpass
    exact ⟨serial, hserial, ((view_batch h hrows).mpr hlinks).trans hfold.symm⟩

/-- `A` and `B`, both replaced by a fresh `D` with the given metadata. -/
def sharedCalls (metadata : Option Metadata) : List SupersedeCall :=
  let first := (supersedeBy "A" "D").input
  [{ now := 10, input := { first with replacement := { first.replacement with metadata := metadata } } },
    supersedeBy "B" "D"]

theorem batch_eq_serial_shared :
    ∃ plans statements, ((sharedCalls none).mapM fun call =>
        prepareSupersedeMemory call.failed loneRows call.input) = .ok plans ∧
      composePreparedSupersedeBatch "u" plans = .ok statements ∧
      ∃ batched serial, queryTransaction .ascii 20 statements loneRows = .ok batched ∧
        serialSupersede .ascii (sharedCalls none) loneRows = .ok serial ∧
        view batched = view serial := by
  have hrun : (match (sharedCalls none).mapM fun call =>
        prepareSupersedeMemory call.failed loneRows call.input with
      | .error _ => false
      | .ok plans =>
          (composePreparedSupersedeBatch "u" plans).isOk &&
            decide (LinksLeft plans ∧ GuardsPass (guardQuery none loneRows "u") plans)) = true := by
    decide +kernel
  split at hrun
  · cases hrun
  · next plans hplans =>
      obtain ⟨hok, hcond⟩ := (Bool.and_eq_true _ _).mp hrun
      cases hcomposed : composePreparedSupersedeBatch "u" plans with
      | error e =>
          rw [hcomposed] at hok
          cases hok
      | ok statements =>
          obtain ⟨batched, hbatched, hiff⟩ := @batch_eq_serial .ascii 20 "u" loneRows (sharedCalls none)
            plans statements hplans hcomposed
          obtain ⟨serial, hserial, heq⟩ := hiff.mpr (of_decide_eq_true hcond)
          exact ⟨plans, statements, hplans, hcomposed, batched, serial, hbatched, hserial, heq⟩

/-- **A forged link.**  The shared fresh `D` keeps the `supersedesId` of its metadata in the batch,
and loses it to the second call when the calls run one by one. -/
theorem batch_forges_link :
    (do
      let calls := sharedCalls (some (.ofList [("supersedesId", .str "C")]))
      let plans ← calls.mapM fun call => prepareSupersedeMemory call.failed loneRows call.input
      let statements ← composePreparedSupersedeBatch "u" plans
      let batched ← queryTransaction .ascii 20 statements loneRows
      let serial ← serialSupersede .ascii calls loneRows
      return ((batched.get? "D").bind (·.prop? "supersedesId"),
        (serial.get? "D").bind (·.prop? "supersedesId"))) =
      Except.ok (some (.str "C"), some (.str "B")) := by
  decide +kernel

end Runir
