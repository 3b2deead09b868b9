import Runir.Lifecycle.DedupSteps

/-!
# Lifecycle — Dedup chains

What happens to the values of a row the dedup sweep deactivates.

* `retiredTo`: where an inactive row leads to.
* `Preserved`: every row that was active at the start leads to one that is active now and carries
  all of its values.
* `dedup_preserves_iff`: exactly when consecutive sweeps keep it so.
-/

namespace Runir
open Pointers

/-- The row an inactive row was superseded by. -/
def retiredTo (rows : Rows) (id : String) : Option String :=
  (rows.get? id).bind fun row => if row.isCurrent then none else row.supersededBy

/-- `id` is a row that is active, and carries every value of `text`. -/
def Carries (host : Host) (rows : Rows) (text : String) (id : String) : Prop :=
  ∃ row, rows.get? id = some row ∧ row.isCurrent = true ∧
    exactValueTokens host text ⊆ exactValueTokens host row.text

/-- Every row active at the start leads, through `superseded_by`, to a row that is active and
carries its values. -/
def Preserved (host : Host) (rows₀ rows : Rows) : Prop :=
  ∀ id row₀, rows₀.get? id = some row₀ → row₀.isCurrent = true →
    ∃ survivor, Reach (retiredTo rows) id survivor ∧ Carries host rows row₀.text survivor

/-- No transaction that commits supersedes a row by one that leads back to it.  A survivor that is
active leads nowhere. -/
def SupersedesForward (env : DedupEnv) (s : DedupState) (e : DedupEvent) : Prop :=
  match e with
  | .compare call =>
      ∀ candidate other, s.pending env = some (candidate, other) → call.fate ≠ .rolledBack →
        ∀ rows', supersedeMemory env.host call.now call.failed
            (Sweep.supersedeInput env.userId env.scope candidate other) s.rows = .ok rows' →
          ¬Reach (retiredTo s.rows) (candidate.newer other).id (candidate.older other).id
  | _ => True

/-! ### What a supersede leaves -/

section planRows
variable {host : Host} {now : Int} {failed : Option String} {rows : Rows} {input : SupersedeInput}
  {p : PreparedSupersede}

theorem text_of_payload {row row' : MemoryRow} (hl2 : row'.payload.get? "l2" = row.payload.get? "l2")
    (hdata : row'.payload.get? "data" = row.payload.get? "data") : row'.text = row.text := by
  unfold MemoryRow.text MemoryRow.propStr?
  rw [hl2, hdata]

theorem text_setTarget (row : MemoryRow) : (setTarget host now p row).text = row.text := by
  refine text_of_payload ?_ ?_ <;> simp [setTarget, get?_setProp]

theorem text_setPrevious (row : MemoryRow) : (setPrevious host now p row).text = row.text := by
  refine text_of_payload ?_ ?_ <;>
    cases hflags : p.previousStaleFlags <;> simp [setPrevious, setStale, hflags, get?_setProp]

variable {target : MemoryRow}

/-- A supersede by an existing row, row by row. -/
theorem get?_planRows_existing (h : Prepared failed rows input p)
    (htarget : rows.get? input.replacement.id = some target) (id : String) :
    (planRows host now p rows).get? id =
      if id = input.previousId then some (setPrevious host now p p.previousRow)
      else if id = input.replacement.id then some (setTarget host now p target)
      else rows.get? id := by
  have htargetRow : targetRow host now p p false = setTarget host now p target := by
    unfold targetRow
    rw [h.replacementRow_eq, htarget]
  rw [get?_planRows, h.previousId_eq, h.replacement_eq, htargetRow]

/-- It keeps every row, with its text, and deactivates the one it supersedes. -/
theorem get?_planRows_of_target (h : Prepared failed rows input p)
    (htarget : rows.get? input.replacement.id = some target) {id : String} {row : MemoryRow}
    (hrow : rows.get? id = some row) :
    ∃ row', (planRows host now p rows).get? id = some row' ∧ row'.text = row.text ∧
      (row'.isCurrent = if id = input.previousId then false else row.isCurrent) := by
  rw [get?_planRows_existing h htarget]
  by_cases hprevious : id = input.previousId
  · have hrow' : p.previousRow = row := by
      have hread := h.previous
      rw [← hprevious, hrow] at hread
      exact (Option.some.inj hread).symm
    refine ⟨_, if_pos hprevious, ?_, (if_pos hprevious).symm⟩
    rw [text_setPrevious, hrow']
  · rw [if_neg hprevious, if_neg hprevious]
    by_cases hreplacement : id = input.replacement.id
    · rw [hreplacement, htarget] at hrow
      cases hrow
      exact ⟨_, if_pos hreplacement, text_setTarget target, rfl⟩
    · exact ⟨row, (if_neg hreplacement).trans hrow, rfl, rfl⟩

/-- It redirects the row it supersedes, and no other. -/
theorem retiredTo_planRows (h : Prepared failed rows input p)
    (htarget : rows.get? input.replacement.id = some target) :
    retiredTo (planRows host now p rows) =
      Function.update (retiredTo rows) input.previousId (some input.replacement.id) := by
  funext id
  rw [Function.update_apply]
  unfold retiredTo
  rw [get?_planRows_existing h htarget]
  by_cases hprevious : id = input.previousId
  · rw [if_pos hprevious, if_pos hprevious, Option.bind_some, setPrevious_supersededBy,
      h.replacement_eq]
    rfl
  · rw [if_neg hprevious, if_neg hprevious]
    by_cases hreplacement : id = input.replacement.id
    · rw [if_pos hreplacement, hreplacement, htarget]
      rfl
    · rw [if_neg hreplacement]

end planRows

/-! ### The invariant -/

/-- Active at the start of the run. -/
def ActiveIn (rows₀ : Rows) (id : String) : Prop :=
  ∃ row₀, rows₀.get? id = some row₀ ∧ row₀.isCurrent = true

/-- Sweeps keep every row and its text and activate none; a row they deactivated points to one that
was active too and carries its values; and a sweep in progress compares rows that were active, by
the texts they have. -/
structure Chained (host : Host) (rows₀ : Rows) (s : DedupState) : Prop where
  kept : ∀ id row₀, rows₀.get? id = some row₀ → ∃ row, s.rows.get? id = some row ∧
    row.text = row₀.text
  activeBefore : ∀ id row, s.rows.get? id = some row → row.isCurrent = true → ActiveIn rows₀ id
  edges : ∀ id row, s.rows.get? id = some row → row.isCurrent = false → ActiveIn rows₀ id →
    ∃ next row', retiredTo s.rows id = some next ∧ s.rows.get? next = some row' ∧
      ActiveIn rows₀ next ∧ exactValueTokens host row.text ⊆ exactValueTokens host row'.text
  ends : ∀ id, ActiveIn rows₀ id → Ends (retiredTo s.rows) id
  within : s.phase.Within
  snapshot : ∀ m ∈ s.phase.all, ActiveIn rows₀ m.id ∧
    ∃ row, s.rows.get? m.id = some row ∧ row.text = m.l2

namespace Chained
variable {host : Host} {rows₀ : Rows} {s : DedupState}

theorem start (w : Option String) : Chained host rows₀ ⟨rows₀, w, .idle⟩ where
  kept id row₀ hrow := ⟨row₀, hrow, rfl⟩
  activeBefore id row hrow hactive := ⟨row, hrow, hactive⟩
  edges id row hrow hinactive hbefore := by
    obtain ⟨row₀, hrow₀, hactive⟩ := hbefore
    rw [hrow] at hrow₀
    cases hrow₀
    rw [hactive] at hinactive
    cases hinactive
  ends id hbefore := by
    obtain ⟨row₀, hrow₀, hactive⟩ := hbefore
    refine ⟨id, .refl, ?_⟩
    simp [retiredTo, hrow₀, hactive]
  within := trivial
  snapshot m hm := nomatch hm

/-- A path from a row that was active at the start stays among such rows, and keeps its values. -/
theorem reach (h : Chained host rows₀ s) {id last : String} {row₀ : MemoryRow}
    (hrow₀ : rows₀.get? id = some row₀) (hactive : row₀.isCurrent = true)
    (hreach : Reach (retiredTo s.rows) id last) :
    ActiveIn rows₀ last ∧ ∃ row, s.rows.get? last = some row ∧
      exactValueTokens host row₀.text ⊆ exactValueTokens host row.text := by
  induction hreach with
  | refl =>
      obtain ⟨row, hrow, htext⟩ := h.kept id row₀ hrow₀
      exact ⟨⟨row₀, hrow₀, hactive⟩, row, hrow, by rw [htext]; exact List.Subset.refl _⟩
  | @tail b c hab hbc ih =>
      obtain ⟨hbefore, row, hrow, hsub⟩ := ih
      have hinactive : row.isCurrent = false := by
        unfold Edge retiredTo at hbc
        rw [hrow, Option.bind_some] at hbc
        split at hbc
        · cases hbc
        · next hcurrent => exact Bool.of_not_eq_true hcurrent
      obtain ⟨next, row', hnext, hrow', hbefore', hsub'⟩ := h.edges b row hrow hinactive hbefore
      have hc : next = c := Option.some.inj (hnext.symm.trans hbc)
      subst hc
      exact ⟨hbefore', row', hrow', List.Subset.trans hsub hsub'⟩

theorem preserved (h : Chained host rows₀ s) : Preserved host rows₀ s.rows := by
  intro id row₀ hrow₀ hactive
  obtain ⟨last, hreach, hend⟩ := h.ends id ⟨row₀, hrow₀, hactive⟩
  obtain ⟨hbefore, row, hrow, hsub⟩ := h.reach hrow₀ hactive hreach
  refine ⟨last, hreach, row, hrow, ?_, hsub⟩
  -- a row that was deactivated points somewhere
  by_contra hinactive
  obtain ⟨next, _, hnext, -⟩ := h.edges last row hrow (Bool.of_not_eq_true hinactive) hbefore
  rw [hend] at hnext
  cases hnext

/-- A step that leaves the rows keeps the invariant. -/
theorem of_rows_eq (h : Chained host rows₀ s) {s' : DedupState} (hrows : s'.rows = s.rows)
    (hwithin : s'.phase.Within)
    (hsnapshot : ∀ m ∈ s'.phase.all, ActiveIn rows₀ m.id ∧
      ∃ row, s.rows.get? m.id = some row ∧ row.text = m.l2) : Chained host rows₀ s' where
  kept := by rw [hrows]; exact h.kept
  activeBefore := by rw [hrows]; exact h.activeBefore
  edges := by rw [hrows]; exact h.edges
  ends := by rw [hrows]; exact h.ends
  within := hwithin
  snapshot := by rw [hrows]; exact hsnapshot

/-- A supersede of one row of the snapshot by another that carries its values and does not lead
back to it keeps the invariant. -/
theorem supersede (h : Chained host rows₀ s) {now : Int} {failed : Option String}
    {input : SupersedeInput} {p : PreparedSupersede} {older newer : SweepRow}
    (hp : Prepared failed s.rows input p) (hprevious : input.previousId = older.id)
    (hreplacement : input.replacement.id = newer.id) (holder : older ∈ s.phase.all)
    (hnewer : newer ∈ s.phase.all) (hvalues : older.preserved host newer = true)
    (hforward : ¬Reach (retiredTo s.rows) newer.id older.id) {phase : DedupPhase}
    (hwithin : phase.Within) (hall : phase.all = s.phase.all) :
    Chained host rows₀ ⟨planRows host now p s.rows, s.watermark, phase⟩ := by
  obtain ⟨holderBefore, olderRow, holderRow, holderText⟩ := h.snapshot older holder
  obtain ⟨hnewerBefore, newerRow, hnewerRow, hnewerText⟩ := h.snapshot newer hnewer
  have htarget : s.rows.get? input.replacement.id = some newerRow := hreplacement ▸ hnewerRow
  have hread : ∀ {id : String} {row : MemoryRow}, s.rows.get? id = some row →
      ∃ row', (planRows host now p s.rows).get? id = some row' ∧ row'.text = row.text ∧
        (row'.isCurrent = if id = input.previousId then false else row.isCurrent) := by
    intro id row hrow
    exact get?_planRows_of_target hp htarget hrow
  have hpointer : retiredTo (planRows host now p s.rows) =
      Function.update (retiredTo s.rows) older.id (some newer.id) := by
    rw [retiredTo_planRows hp htarget, hprevious, hreplacement]
  have hsub : exactValueTokens host older.l2 ⊆ exactValueTokens host newer.l2 := by
    intro v hv
    have hall := List.all_eq_true.mp hvalues v hv
    exact List.contains_iff_mem.mp hall
  -- no row appears
  have hback : ∀ {id row}, (planRows host now p s.rows).get? id = some row →
      ∃ row₁, s.rows.get? id = some row₁ := by
    intro id row hrow
    rw [get?_planRows] at hrow
    split at hrow
    · next hid => exact ⟨p.previousRow, by rw [hid, hp.previousId_eq]; exact hp.previous⟩
    · split at hrow
      · next hid => exact ⟨newerRow, by rw [hid, hp.replacement_eq]; exact htarget⟩
      · exact ⟨row, hrow⟩
  constructor
  · intro id row₀ hrow₀
    obtain ⟨row, hrow, htext⟩ := h.kept id row₀ hrow₀
    obtain ⟨row', hrow', htext', -⟩ := hread hrow
    exact ⟨row', hrow', htext'.trans htext⟩
  · intro id row hrow hactive
    obtain ⟨row₁, hrow₁⟩ := hback hrow
    obtain ⟨row', hrow', -, hcurrent⟩ := hread hrow₁
    rw [hrow] at hrow'
    cases hrow'
    rw [hactive] at hcurrent
    split at hcurrent
    · cases hcurrent
    · exact h.activeBefore id row₁ hrow₁ hcurrent.symm
  · intro id row hrow hinactive hbefore
    obtain ⟨row₁, hrow₁⟩ := hback hrow
    obtain ⟨row', hrow', htext', hcurrent⟩ := hread hrow₁
    rw [hrow] at hrow'
    cases hrow'
    rw [hpointer, Function.update_apply]
    by_cases hid : id = older.id
    · obtain ⟨newerRow', hnewerRow', hnewerText', -⟩ := hread hnewerRow
      refine ⟨newer.id, newerRow', if_pos hid, hnewerRow', hnewerBefore, ?_⟩
      have holder₁ : row₁ = olderRow := by
        rw [hid, holderRow] at hrow₁
        exact (Option.some.inj hrow₁).symm
      rw [htext', holder₁, holderText, hnewerText', hnewerText]
      exact hsub
    · rw [if_neg (hprevious ▸ hid), hinactive] at hcurrent
      obtain ⟨next, nextRow, hnext, hnextRow, hnextBefore, hnextSub⟩ :=
        h.edges id row₁ hrow₁ hcurrent.symm hbefore
      obtain ⟨nextRow', hnextRow', hnextText', -⟩ := hread hnextRow
      refine ⟨next, nextRow', by rw [if_neg hid, hnext], hnextRow', hnextBefore, ?_⟩
      rw [htext', hnextText']
      exact hnextSub
  · intro id hbefore
    rw [hpointer]
    exact Ends.update (h.ends newer.id hnewerBefore) hforward (h.ends id hbefore)
  · exact hwithin
  · intro m hm
    rw [hall] at hm
    obtain ⟨hbefore, row, hrow, htext⟩ := h.snapshot m hm
    obtain ⟨row', hrow', htext', -⟩ := hread hrow
    exact ⟨hbefore, row', hrow', htext'.trans htext⟩

/-- The snapshot after a step is of rows that were active. -/
theorem snapshot_moves (h : Chained host rows₀ s) {env : DedupEnv} {s' : DedupState}
    {e : DedupEvent} (hmoves : DedupMoves env s e s') :
    ∀ m ∈ s'.phase.all, ActiveIn rows₀ m.id ∧
      ∃ row, s.rows.get? m.id = some row ∧ row.text = m.l2 := by
  intro m hm
  rcases hmoves.all_cases with hall | hall | ⟨now, embed, -, hall⟩
  · exact h.snapshot m (hall ▸ hm)
  · rw [hall] at hm
    cases hm
  · rw [hall] at hm
    obtain ⟨row, hrow, hsweepable, hread⟩ := mem_fetch hm
    unfold sweepable at hsweepable
    simp only [Bool.and_eq_true] at hsweepable
    refine ⟨h.activeBefore m.id row hrow hsweepable.2, row, hrow, ?_⟩
    rw [hread]
    rfl

end Chained

/-- The pair a comparison sends is of rows of the snapshot. -/
theorem Chained.pair_mem {env : DedupEnv} {rows₀ : Rows} {s : DedupState}
    (h : Chained env.host rows₀ s) {candidate other : SweepRow}
    (hpending : s.pending env = some (candidate, other)) :
    candidate.older other ∈ s.phase.all ∧ candidate.newer other ∈ s.phase.all := by
  have hmem : candidate ∈ s.phase.all ∧ other ∈ s.phase.all := pending_mem h.within hpending
  rcases candidate.older_cases other with ⟨ho, hn⟩ | ⟨ho, hn⟩
  · rw [ho, hn]
    exact hmem
  · rw [ho, hn]
    exact hmem.symm

section runs
variable {env : DedupEnv} {rows₀ : Rows} {s s' : DedupState} {e : DedupEvent}

/-- **One step.** -/
theorem Chained.step (h : Chained env.host rows₀ s) (hforward : SupersedesForward env s e)
    (hstep : s.step env e = some s') : Chained env.host rows₀ s' := by
  have hmoves := moves_of_step hstep
  rcases hmoves.rows_cases with hrows | ⟨candidate, other, call, p, hcommits⟩
  · exact h.of_rows_eq hrows (hmoves.within h.within) (h.snapshot_moves hmoves)
  · obtain ⟨rows', w', phase'⟩ := s'
    have hmem := h.pair_mem hcommits.pending
    have hnot : ¬Reach (retiredTo s.rows) (candidate.newer other).id (candidate.older other).id := by
      rw [hcommits.event] at hforward
      exact hforward candidate other hcommits.pending hcommits.fate _ hcommits.result
    have hrows : rows' = planRows env.host call.now p s.rows := hcommits.rows
    have hw : w' = s.watermark := hcommits.watermark
    subst hrows hw
    exact h.supersede hcommits.prepared rfl rfl hmem.1 hmem.2
      (SweepRow.preserved_of_duplicates hcommits.duplicates) hnot (hmoves.within h.within)
      hcommits.all

/-- A path with an active end comes to an end. -/
theorem Preserved.ends {rows : Rows} {host : Host} (h : Preserved host rows₀ rows) {id : String}
    (hbefore : ActiveIn rows₀ id) : Ends (retiredTo rows) id := by
  obtain ⟨row₀, hrow₀, hactive⟩ := hbefore
  obtain ⟨survivor, hreach, row, hrow, hcurrent, -⟩ := h id row₀ hrow₀ hactive
  refine ⟨survivor, hreach, ?_⟩
  simp [retiredTo, hrow, hcurrent]

/-- A transaction that commits backwards closes a cycle of inactive rows. -/
theorem Chained.not_preserved (h : Chained env.host rows₀ s)
    (hstep : s.step env e = some s') (hbackward : ¬SupersedesForward env s e) :
    ¬Preserved env.host rows₀ s'.rows := by
  intro hpreserved
  refine hbackward ?_
  cases e with
  | compare call =>
      intro candidate other hpending hfate rows' hresult hreach
      have hmoves := moves_of_step hstep
      have hrows : s'.rows = rows' :=
        (hmoves.rows_of_pending hpending).trans (SweepCall.run_fst hfate hresult)
      obtain ⟨p, hp, hplan⟩ := supersedeMemory_ok hresult
      have hmem : candidate.older other ∈ s.phase.all ∧ candidate.newer other ∈ s.phase.all :=
        h.pair_mem hpending
      obtain ⟨-, target, htarget, -⟩ := h.snapshot _ hmem.2
      have hpointer : retiredTo s'.rows = Function.update (retiredTo s.rows)
          (candidate.older other).id (some (candidate.newer other).id) := by
        rw [hrows, hplan]
        exact retiredTo_planRows hp htarget
      have hends := hpreserved.ends (h.snapshot _ hmem.1).1
      rw [hpointer] at hends
      exact not_ends_of_cycle (cycle_update hreach) hends
  | _ => trivial

/-- Only a comparison can be against the condition, and it is performed. -/
theorem step_of_backward (h : ¬SupersedesForward env s e) : ∃ s', s.step env e = some s' := by
  cases e with
  | compare call =>
      obtain ⟨rows, w, phase⟩ := s
      cases phase with
      | idle => exact absurd (fun _ _ hpending => nomatch hpending) h
      | snapshot all => exact absurd (fun _ _ hpending => nomatch hpending) h
      | sweeping sweep =>
          simp only [DedupState.step]
          split
          · exact ⟨_, rfl⟩
          · next hcurrent =>
              refine absurd ?_ h
              intro candidate other hpending
              simp only [DedupState.pending] at hpending
              cases hpending
  | _ => exact absurd trivial h

/-- **Runs.**  Consecutive sweeps, from any store and stopped anywhere, with any pattern of
supersedes that are rolled back or in doubt: in every state they reach, every row that was active
at the start leads through `superseded_by` to a row that is active and carries its values, if and
only if no transaction that commits supersedes a row by one that leads back to it. -/
theorem dedup_preserves_iff (env : DedupEnv) (rows₀ : Rows) (watermark : Option String)
    (events : List DedupEvent) :
    (∀ n s, Runs.exec (DedupState.step env) ⟨rows₀, watermark, .idle⟩ (events.take n) = some s →
        Preserved env.host rows₀ s.rows) ↔
      Runs.Along (DedupState.step env) (SupersedesForward env) ⟨rows₀, watermark, .idle⟩
        events := by
  refine Runs.always_iff_along (I := Chained env.host rows₀) ?_ ?_ ?_ (.start watermark)
  · intro s e s' hchained hforward hstep
    exact hchained.step hforward hstep
  · intro s hchained
    exact hchained.preserved
  · intro s e hchained hbackward
    obtain ⟨s', hstep⟩ := step_of_backward hbackward
    exact ⟨s', hstep, hchained.not_preserved hstep hbackward⟩

/-! ### Without transactions in doubt -/

/-- No call of the sweep commits behind its caller's back. -/
def NotInDoubt : DedupEvent → Prop
  | .compare call => call.fate ≠ .inDoubt
  | _ => True

/-- The rows of a snapshot that the sweep has not superseded itself are active. -/
def Standing (s : DedupState) : Prop :=
  ∀ m ∈ s.phase.all, m.id ∉ s.phase.deduped →
    ∃ row, s.rows.get? m.id = some row ∧ row.isCurrent = true

/-- The survivor of a pending pair is active. -/
theorem Standing.newer (h : Standing s) (hwithin : s.phase.Within) {candidate other : SweepRow}
    (hpending : s.pending env = some (candidate, other)) :
    ∃ row, s.rows.get? (candidate.newer other).id = some row ∧ row.isCurrent = true := by
  have hmem := pending_mem hwithin hpending
  have hnew := pending_not_deduped hwithin hpending
  rcases candidate.older_cases other with ⟨-, hn⟩ | ⟨-, hn⟩
  · rw [hn]
    exact h other hmem.2 hnew.2
  · rw [hn]
    exact h candidate hmem.1 hnew.1

/-- An active survivor leads nowhere. -/
theorem Standing.forward (h : Standing s) (hwithin : s.phase.Within) :
    SupersedesForward env s e := by
  cases e with
  | compare call =>
      intro candidate other hpending _ rows' _ hreach
      obtain ⟨row, hrow, hcurrent⟩ := h.newer hwithin hpending
      have hend : retiredTo s.rows (candidate.newer other).id = none := by
        simp [retiredTo, hrow, hcurrent]
      rcases Relation.ReflTransGen.cases_head hreach with heq | ⟨next, hedge, -⟩
      · exact pending_ne hpending heq
      · rw [Edge, hend] at hedge
        cases hedge
  | _ => trivial

theorem Standing.step (h : Standing s) (hwithin : s.phase.Within) (hdoubt : NotInDoubt e)
    (hstep : s.step env e = some s') : Standing s' := by
  have hmoves := moves_of_step hstep
  cases hmoves with
  | snapshot rows w now embed =>
      intro m hm _
      obtain ⟨row, hrow, hsweepable, -⟩ := mem_fetch hm
      unfold sweepable at hsweepable
      simp only [Bool.and_eq_true] at hsweepable
      exact ⟨row, hrow, hsweepable.2⟩
  | readWatermark => exact h
  | take => exact h
  | pass => exact h
  | exhausted => exact h
  | skip => exact h
  | finish => exact h
  | advance => exact fun m hm => (nomatch hm)
  | abandon => exact fun m hm => (nomatch hm)
  | call rows rows' w s candidate other others failed ok call hcurrent hne hother hduplicates hrun =>
      have hpending : (⟨rows, w, .sweeping s⟩ : DedupState).pending env = some (candidate, other) :=
        pending_of_current hcurrent hne hother hduplicates
      rcases call.run_cases env.host (Sweep.supersedeInput env.userId env.scope candidate other) rows
        with hsame | ⟨p, hp, -, ⟨-, hdone⟩ | ⟨hfate, -⟩⟩
      · -- the rows are as they were, and so is what is deduped
        rw [hsame] at hrun
        cases hrun
        exact h
      · rw [hdone] at hrun
        cases hrun
        obtain ⟨target, htarget, -⟩ := h.newer hwithin hpending
        intro m hm hnew
        have hnew' : m.id ∉ s.deduped ∧ m.id ≠ (candidate.older other).id := by
          simpa [DedupPhase.deduped] using hnew
        obtain ⟨row, hrow, hactive⟩ := h m hm hnew'.1
        obtain ⟨row', hrow', -, hcurrent'⟩ := get?_planRows_of_target hp htarget hrow
        exact ⟨row', hrow', hcurrent'.trans ((if_neg hnew'.2).trans hactive)⟩
      · exact absurd hfate hdoubt

/-- **Rolled back, not in doubt.**  When every supersede that fails is rolled back, sweeps preserve
every value, whatever the creation times and wherever they stop. -/
theorem preserved_of_not_inDoubt {events : List DedupEvent} {watermark : Option String}
    (hdoubt : ∀ e ∈ events, NotInDoubt e)
    (hrun : Runs.exec (DedupState.step env) ⟨rows₀, watermark, .idle⟩ events = some s) :
    Preserved env.host rows₀ s.rows := by
  have hinvariant : Chained env.host rows₀ s ∧ Standing s := by
    refine Runs.exec_invariant (I := fun s => Chained env.host rows₀ s ∧ Standing s)
      (P := fun _ e => NotInDoubt e) ?_ ⟨.start watermark, fun m hm => (nomatch hm)⟩
      (Runs.Along.of_forall fun _ e he => hdoubt e he) hrun
    intro s e s' ⟨hchained, hstanding⟩ hnot hstep
    exact ⟨hchained.step (hstanding.forward hchained.within) hstep,
      hstanding.step hchained.within hnot hstep⟩
  exact hinvariant.1.preserved

end runs

/-! ### Three rows created at one instant -/

def tiedRow (updatedAt : String) : MemoryRow :=
  composeMemoryRecord .ascii 0 "port 80" "u" [1] (some (.ofList [("updatedAt", .str updatedAt)]))
    .user none { active := true } none

/-- Created at one instant and merged into later, `c` first and `a` last. -/
def tiedRows : Rows := .ofList [("a", tiedRow "3"), ("c", tiedRow "1"), ("d", tiedRow "2")]

def tiedEnv : DedupEnv := ⟨.ascii, "u", .user, 100⟩

/-- The sweep takes `c`: its supersede by `a` is rolled back, and the next one goes through. -/
def rolledBackEvents : List DedupEvent :=
  [.snapshot 10 (fun _ => none), .readWatermark, .begin, .compare ⟨11, none, .rolledBack⟩,
   .compare ⟨12, none, .done⟩, .compare ⟨13, none, .done⟩]

theorem preserved_of_not_inDoubt_rolledBack :
    ∃ s, Runs.exec (DedupState.step tiedEnv) ⟨tiedRows, none, .idle⟩ rolledBackEvents = some s ∧
      Preserved tiedEnv.host tiedRows s.rows := by
  have hrun := Runs.eq_some_getD ⟨tiedRows, none, .idle⟩ (show (Runs.exec (DedupState.step tiedEnv)
    ⟨tiedRows, none, .idle⟩ rolledBackEvents).isSome = true by decide +kernel)
  exact ⟨_, hrun, preserved_of_not_inDoubt (by simp [rolledBackEvents, NotInDoubt]) hrun⟩

/-- The sweep takes `c`: its supersede by `a` is in doubt, and the one by `d` rolled back.  It takes
`d`, which `a` supersedes, and then `a`, which `c` supersedes. -/
def inDoubtEvents : List DedupEvent :=
  [.snapshot 10 (fun _ => none), .readWatermark,
   .begin, .compare ⟨11, none, .inDoubt⟩, .compare ⟨12, none, .done⟩,
   .compare ⟨13, none, .rolledBack⟩, .finish,
   .begin, .compare ⟨14, none, .done⟩, .finish,
   .begin, .compare ⟨15, none, .done⟩, .compare ⟨16, none, .done⟩, .finish, .advance]

theorem inDoubt_run :
    ((Runs.exec (DedupState.step tiedEnv) ⟨tiedRows, none, .idle⟩ inDoubtEvents).any fun s =>
      s.rows.values.all fun row => !row.isCurrent) = true := by
  decide +kernel

/-- The guard reads `a.supersedes`, which by then names `d` and no longer `c`: every carrier of the
value is gone. -/
theorem inDoubt_loses_value :
    ¬∀ (env : DedupEnv) (rows₀ : Rows) (watermark : Option String) (events : List DedupEvent)
        (s : DedupState),
      Runs.exec (DedupState.step env) ⟨rows₀, watermark, .idle⟩ events = some s →
        Preserved env.host rows₀ s.rows := by
  intro hclaim
  obtain ⟨s, hrun, hinactive⟩ := (Option.any_eq_true _ _).mp inDoubt_run
  obtain ⟨survivor, -, row, hrow, hactive, -⟩ := hclaim tiedEnv tiedRows none inDoubtEvents s hrun
    "a" (tiedRow "3") rfl (by decide)
  have hall := List.all_eq_true.mp hinactive row (OrdMap.mem_values.mpr ⟨survivor, hrow⟩)
  rw [hactive] at hall
  cases hall

end Runir
