import Runir.Store.SupersedeRuns

/-!
# Store — Lineage

`getMemoryLineage` reads a chain through one stored root; supersedes make the chain pointer by
pointer.

* `Joined`: two rows, one of which points at the other by `supersedes` or `superseded_by`.
* `Rooted`: joined rows belong to one root.
* `lineage_complete`: along runs whose calls stamp the root their neighbours already have, the
  lineage of a memory is everything its pointers lead to.
* `lineage_misses`: a replacement that changes its root leaves its old chain behind.
-/

namespace Runir

/-- The row points at `id`, by either pointer. -/
def MemoryRow.pointsTo (row : MemoryRow) (id : String) : Prop :=
  row.supersedes = some id ∨ row.supersededBy = some id

instance (row : MemoryRow) (id : String) : Decidable (row.pointsTo id) :=
  inferInstanceAs (Decidable (_ ∨ _))

/-- Rows `a` and `b` are there, and one points at the other. -/
def Joined (rows : Rows) (a b : String) : Prop :=
  ∃ rowa rowb, rows.get? a = some rowa ∧ rows.get? b = some rowb ∧
    (rowa.pointsTo b ∨ rowb.pointsTo a)

/-- Every row is the user's, and joined rows belong to one root. -/
structure Rooted (userId : String) (rows : Rows) : Prop where
  owned : ∀ id row, rows.get? id = some row → row.payloadUserId = some userId
  shared : ∀ a b rowa rowb, rows.get? a = some rowa → rows.get? b = some rowb →
    rowa.pointsTo b → lineageRootOf a rowa = lineageRootOf b rowb

variable {userId : String} {rows : Rows}

theorem Rooted.joined (h : Rooted userId rows) {a b : String}
    {rowa rowb : MemoryRow} (hj : Joined rows a b) (ha : rows.get? a = some rowa)
    (hb : rows.get? b = some rowb) : lineageRootOf a rowa = lineageRootOf b rowb := by
  obtain ⟨rowa', rowb', ha', hb', hpoints⟩ := hj
  obtain rfl := Option.some.inj (ha.symm.trans ha')
  obtain rfl := Option.some.inj (hb.symm.trans hb')
  rcases hpoints with hab | hba
  · exact h.shared a b rowa rowb ha hb hab
  · exact (h.shared b a rowb rowa hb ha hba).symm

/-- Rows of one user without pointers. -/
theorem rooted_of_unlinked
    (howned : ∀ id row, rows.get? id = some row → row.payloadUserId = some userId)
    (hlinks : ∀ id row, rows.get? id = some row → row.supersedes = none ∧ row.supersededBy = none) :
    Rooted userId rows := by
  refine ⟨howned, fun a b rowa rowb ha hb hpoints => ?_⟩
  obtain ⟨hnone, hnone'⟩ := hlinks a rowa ha
  rcases hpoints with h | h
  · rw [hnone] at h
    cases h
  · rw [hnone'] at h
    cases h

/-! ### Reading a rooted table -/

theorem mem_insertionSort_map {α β : Type*} (r : α → α → Prop) [DecidableRel r] (f : α → β)
    (xs : List α) (y : β) : y ∈ (xs.insertionSort r).map f ↔ y ∈ xs.map f := by
  constructor
  · intro h
    obtain ⟨x, hx, rfl⟩ := List.mem_map.mp h
    exact List.mem_map.mpr ⟨x, (List.mem_insertionSort r).mp hx, rfl⟩
  · intro h
    obtain ⟨x, hx, rfl⟩ := List.mem_map.mp h
    exact List.mem_map.mpr ⟨x, (List.mem_insertionSort r).mpr hx, rfl⟩

/-- What the lineage of a row of the user holds: the user's rows under its root, and the root. -/
theorem mem_getMemoryLineage {id userId x : String} {seed : MemoryRow}
    (hseed : rows.get? id = some seed) (howned : seed.payloadUserId = some userId) :
    x ∈ getMemoryLineage rows id userId ↔
      ∃ row, rows.get? x = some row ∧ row.payloadUserId = some userId ∧
        (row.lineageRootId = some (lineageRootOf id seed) ∨ x = lineageRootOf id seed) := by
  unfold getMemoryLineage
  simp only [hseed, howned, ne_eq, not_true, if_false]
  rw [mem_insertionSort_map]
  constructor
  · intro h
    obtain ⟨⟨x', row⟩, hmem, rfl⟩ := List.mem_map.mp h
    obtain ⟨hentry, hkeep⟩ := List.mem_filter.mp hmem
    refine ⟨row, OrdMap.get?_eq_some.mpr hentry, ?_⟩
    simpa using hkeep
  · rintro ⟨row, hrow, hmine, hroot⟩
    refine List.mem_map.mpr ⟨(x, row), List.mem_filter.mpr ⟨OrdMap.get?_eq_some.mp hrow, ?_⟩, rfl⟩
    simpa using ⟨hmine, hroot⟩

variable {row : MemoryRow}

/-- A joined path stays among the rows of one root. -/
theorem Rooted.reach (h : Rooted userId rows) {m x : String} (hm : rows.get? m = some row)
    (hx : Relation.ReflTransGen (Joined rows) m x) :
    ∃ rowx, rows.get? x = some rowx ∧ lineageRootOf x rowx = lineageRootOf m row := by
  induction hx with
  | refl => exact ⟨row, hm, rfl⟩
  | @tail y z _ hyz ih =>
      obtain ⟨rowy, hrowy, hroot⟩ := ih
      obtain ⟨-, rowz, -, hrowz, -⟩ := id hyz
      exact ⟨rowz, hrowz, (h.joined hyz hrowy hrowz).symm.trans hroot⟩

/-- **A rooted table has complete lineages.** -/
theorem Rooted.lineage (h : Rooted userId rows) {m x : String} (hm : rows.get? m = some row)
    (hx : Relation.ReflTransGen (Joined rows) m x) : x ∈ getMemoryLineage rows m userId := by
  obtain ⟨rowx, hrowx, hroot⟩ := h.reach hm hx
  refine (mem_getMemoryLineage hm (h.owned m row hm)).mpr
    ⟨rowx, hrowx, h.owned x rowx hrowx, ?_⟩
  unfold lineageRootOf at hroot ⊢
  -- the row names its root, or is its own
  cases hx' : rowx.lineageRootId with
  | none =>
      rw [hx'] at hroot
      exact Or.inr hroot
  | some root =>
      rw [hx'] at hroot
      exact Or.inl (congrArg some hroot)

/-! ### Calls that stamp their neighbours' root -/

/-- The root a call stamps on its two rows. -/
def SupersedeCall.stamp (call : SupersedeCall) : String :=
  call.input.previousLineageRootId.getD call.input.previousId

/-- Row `y` stays joined to one of the call's two rows. -/
def Neighbour (rows : Rows) (call : SupersedeCall) (y : String) (row : MemoryRow) : Prop :=
  row.pointsTo call.previousId ∨ row.pointsTo call.replacementId ∨
    (rows.get? call.previousId).bind (·.supersedes) = some y ∨
    (rows.get? call.replacementId).bind (·.supersededBy) = some y

instance (rows : Rows) (call : SupersedeCall) (y : String) (row : MemoryRow) :
    Decidable (Neighbour rows call y row) := inferInstanceAs (Decidable (_ ∨ _ ∨ _ ∨ _))

/-- The metadata of a created replacement leaves it to its user. -/
def KeepsOwner (rows : Rows) (call : SupersedeCall) : Prop :=
  rows.get? call.replacementId = none →
    ((call.input.replacement.metadata.getD .empty).get? "userId").getD
      (.str call.input.replacement.userId) = .str call.input.replacement.userId

instance (rows : Rows) (call : SupersedeCall) : Decidable (KeepsOwner rows call) :=
  inferInstanceAs (Decidable (_ → _))

/-- Every other row that stays joined to the call's two rows already belongs to the root the call
stamps. -/
def StampsNeighbours (rows : Rows) (call : SupersedeCall) : Prop :=
  KeepsOwner rows call ∧
    ∀ e ∈ rows.entries, e.1 ≠ call.previousId → e.1 ≠ call.replacementId →
      Neighbour rows call e.1 e.2 → lineageRootOf e.1 e.2 = call.stamp

instance (rows : Rows) (call : SupersedeCall) : Decidable (StampsNeighbours rows call) :=
  inferInstanceAs (Decidable (_ ∧ ∀ e ∈ rows.entries, _ → _ → _ → _))

section step
variable {host : Host} {userId : String} {rows : Rows} {call : SupersedeCall}
  {p : PreparedSupersede}

/-- The two rows of a plan get the root it stamps; every other row is as it was. -/
theorem planRows_root (hp : Prepared call.failed rows call.input p) {id : String}
    (h : (planRows host call.now p rows).get? id = some row) :
    ((id = p.previousId ∨ id = p.replacement.id) ∧ lineageRootOf id row = call.stamp) ∨
      (id ≠ p.previousId ∧ id ≠ p.replacement.id ∧ rows.get? id = some row) := by
  have hstamp : p.lineageRootId = call.stamp := hp.lineageRootId_eq
  unfold lineageRootOf
  rw [get?_planRows] at h
  by_cases hprev : id = p.previousId
  · rw [if_pos hprev] at h
    obtain rfl := Option.some.inj h
    refine Or.inl ⟨Or.inl hprev, ?_⟩
    rw [setPrevious_lineageRootId, Option.getD_some, hstamp]
  · rw [if_neg hprev] at h
    by_cases htarget : id = p.replacement.id
    · rw [if_pos htarget] at h
      obtain rfl := Option.some.inj h
      refine Or.inl ⟨Or.inr htarget, ?_⟩
      rw [targetRow_lineageRootId, Option.getD_some, hstamp]
    · rw [if_neg htarget] at h
      exact Or.inr ⟨hprev, htarget, h⟩

/-- A row outside the plan that is joined to one of its rows afterwards is a neighbour. -/
theorem neighbour_of_planRows (hp : Prepared call.failed rows call.input p) {a b : String}
    {rowa rowb : MemoryRow} (ha : (planRows host call.now p rows).get? a = some rowa)
    (hab : a = p.previousId ∨ a = p.replacement.id) (hpoints : rowa.pointsTo b ∨ rowb.pointsTo a)
    (hb : b ≠ p.previousId) (hb' : b ≠ p.replacement.id) : Neighbour rows call b rowb := by
  have hcallprev : call.previousId = p.previousId := hp.previousId_eq.symm
  have hcallrep : call.replacementId = p.replacement.id := by
    rw [hp.replacement_eq]
    rfl
  have hprevrow : rows.get? p.previousId = some p.previousRow := hp.previousId_eq ▸ hp.previous
  unfold Neighbour
  rw [hcallprev, hcallrep]
  rcases hpoints with hout | hin
  · rcases hab with rfl | rfl
    · -- the previous row keeps its `supersedes`; its `superseded_by` is the replacement now
      rw [get?_planRows, if_pos rfl] at ha
      obtain rfl := Option.some.inj ha
      rcases hout with h | h
      · refine Or.inr (Or.inr (Or.inl ?_))
        rw [hprevrow]
        exact h
      · exact absurd (Option.some.inj h).symm hb'
    · -- the replacement keeps its `superseded_by`; its `supersedes` is the previous row now
      rw [get?_planRows, if_neg hp.ne.symm, if_pos rfl] at ha
      obtain rfl := Option.some.inj ha
      rcases hout with h | h
      · rw [targetRow_supersedes] at h
        exact absurd (Option.some.inj h).symm hb
      · refine Or.inr (Or.inr (Or.inr ?_))
        rw [targetRow_supersededBy, hp.replacementRow_eq, ← hp.replacement_eq] at h
        exact h
  · rcases hab with rfl | rfl
    · exact Or.inl hin
    · exact Or.inr (Or.inl hin)

theorem Rooted.owned_planRows (hrows : Rooted userId rows)
    (hp : Prepared call.failed rows call.input p) (huser : call.input.replacement.userId = userId)
    (howner : KeepsOwner rows call) :
    ∀ id row, (planRows host call.now p rows).get? id = some row →
      row.payloadUserId = some userId := by
  intro id row h
  rw [get?_planRows] at h
  by_cases hprev : id = p.previousId
  · rw [if_pos hprev] at h
    obtain rfl := Option.some.inj h
    rw [payloadUserId_setPrevious, ← huser]
    exact MemoryRow.ownedBy_payload hp.previousOwned
  · rw [if_neg hprev] at h
    by_cases htarget : id = p.replacement.id
    · rw [if_pos htarget] at h
      obtain rfl := Option.some.inj h
      unfold targetRow
      split
      · next target hrow =>
          rw [payloadUserId_setTarget]
          refine hrows.owned p.replacement.id target ?_
          rw [← hrow, hp.replacementRow_eq, hp.replacement_eq]
      · next hrow =>
          have hfresh : rows.get? call.replacementId = none := by
            rw [← hrow, hp.replacementRow_eq]
            rfl
          rw [payloadUserId_createdRow, hp.replacement_eq, howner hfresh, huser]
          rfl
    · rw [if_neg htarget] at h
      exact hrows.owned id row h

/-- A plan that stamps its neighbours' root keeps joined rows under one root. -/
theorem Rooted.shared_planRows (hrows : Rooted userId rows)
    (hp : Prepared call.failed rows call.input p) (hstamps : StampsNeighbours rows call) :
    ∀ a b rowa rowb, (planRows host call.now p rows).get? a = some rowa →
      (planRows host call.now p rows).get? b = some rowb → rowa.pointsTo b →
        lineageRootOf a rowa = lineageRootOf b rowb := by
  have hcallprev : call.previousId = p.previousId := hp.previousId_eq.symm
  have hcallrep : call.replacementId = p.replacement.id := by
    rw [hp.replacement_eq]
    rfl
  have hout : ∀ {y row}, y ≠ p.previousId → y ≠ p.replacement.id → rows.get? y = some row →
      Neighbour rows call y row → lineageRootOf y row = call.stamp := by
    intro y row hy hy' hrow hnear
    rw [← hcallprev] at hy
    rw [← hcallrep] at hy'
    exact hstamps.2 (y, row) (OrdMap.get?_eq_some.mp hrow) hy hy' hnear
  intro a b rowa rowb ha hb hpoints
  rcases planRows_root hp ha with ⟨hain, haroot⟩ | ⟨ha₁, ha₂, ha₀⟩
  · rcases planRows_root hp hb with ⟨-, hbroot⟩ | ⟨hb₁, hb₂, hb₀⟩
    · rw [haroot, hbroot]
    · rw [haroot, hout hb₁ hb₂ hb₀ (neighbour_of_planRows hp ha hain (Or.inl hpoints) hb₁ hb₂)]
  · rcases planRows_root hp hb with ⟨hbin, hbroot⟩ | ⟨-, -, hb₀⟩
    · rw [hbroot, hout ha₁ ha₂ ha₀ (neighbour_of_planRows hp hb hbin (Or.inr hpoints) ha₁ ha₂)]
    · -- neither row is one of the plan's
      exact hrows.shared a b rowa rowb ha₀ hb₀ hpoints

end step

/-- **One call.**  A call that stamps its neighbours' root keeps the table rooted. -/
theorem Rooted.step {host : Host} {rows rows' : Rows} {call : SupersedeCall}
    (hrows : Rooted userId rows) (hstamps : StampsNeighbours rows call)
    (h : call.step host userId rows = some rows') : Rooted userId rows' := by
  obtain ⟨huser, rfl | ⟨p, hp, rfl⟩⟩ := SupersedeCall.step_cases h
  · exact hrows
  · exact ⟨hrows.owned_planRows hp huser hstamps.1, hrows.shared_planRows hp hstamps⟩

/-- **Lineage is complete** along every run of one user's calls that stamp the root their
neighbours already belong to: the lineage of a memory holds every row its pointers lead to. -/
theorem lineage_complete {host : Host} {userId : String} {rows rows' : Rows}
    {calls : List SupersedeCall} (h₀ : Rooted userId rows)
    (hstamps : Runs.Along (SupersedeCall.step host userId) StampsNeighbours rows calls)
    (h : Runs.exec (SupersedeCall.step host userId) rows calls = some rows') {m x : String}
    {row : MemoryRow} (hm : rows'.get? m = some row)
    (hx : Relation.ReflTransGen (Joined rows') m x) : x ∈ getMemoryLineage rows' m userId := by
  have hrooted : Rooted userId rows' :=
    Runs.exec_invariant (fun _ _ _ hI hP hstep => Rooted.step hI hP hstep) h₀ hstamps h
  exact hrooted.lineage hm hx

theorem rooted_loneRows : Rooted "u" loneRows := by
  have hall : ∀ e ∈ loneRows.entries,
      e.2.payloadUserId = some "u" ∧ e.2.supersedes = none ∧ e.2.supersededBy = none := by
    decide +kernel
  refine rooted_of_unlinked (fun id row h => ?_) fun id row h => ?_
  · exact (hall (id, row) (OrdMap.get?_eq_some.mp h)).1
  · exact (hall (id, row) (OrdMap.get?_eq_some.mp h)).2

/-- `A`, `B` and a fresh `D`, each stamped with the root `A`. -/
def rootedChain : List SupersedeCall :=
  [supersedeBy "A" "B",
    { supersedeBy "B" "D" with
      input := { (supersedeBy "B" "D").input with previousLineageRootId := some "A" } }]

theorem lineage_complete_chain :
    ∃ rows', Runs.exec (SupersedeCall.step .ascii "u") loneRows rootedChain = some rows' ∧
      "D" ∈ getMemoryLineage rows' "A" "u" := by
  have hrun : ((Runs.exec (SupersedeCall.step .ascii "u") loneRows rootedChain).map fun rows =>
      ((rows.get? "A").map (·.supersededBy), (rows.get? "B").map (·.supersededBy),
        (rows.get? "D").isSome)) = some (some (some "B"), some (some "D"), true) := by
    decide +kernel
  obtain ⟨rows', h, hread⟩ := Option.map_eq_some_iff.mp hrun
  simp only [Prod.mk.injEq, Option.map_eq_some_iff] at hread
  obtain ⟨⟨rowA, hA, hAB⟩, ⟨rowB, hB, hBD⟩, hD⟩ := hread
  obtain ⟨rowD, hD⟩ := Option.isSome_iff_exists.mp hD
  have hstamps : Runs.Along (SupersedeCall.step .ascii "u") StampsNeighbours loneRows
      rootedChain := by decide +kernel
  have hpath : Relation.ReflTransGen (Joined rows') "A" "D" :=
    .tail (.single ⟨rowA, rowB, hA, hB, Or.inl (Or.inr hAB)⟩)
      ⟨rowB, rowD, hB, hD, Or.inl (Or.inr hBD)⟩
  exact ⟨rows', h, lineage_complete rooted_loneRows hstamps h hA hpath⟩

/-- **A lost replacement.**  `B` replaces `C`, then `A`, whose root it takes: the lineage of `C`
no longer holds the row that replaced it. -/
theorem lineage_misses :
    ∃ rows' rowC rowB, Runs.exec (SupersedeCall.step .ascii "u") loneRows
        [supersedeBy "C" "B", supersedeBy "A" "B"] = some rows' ∧
      Rooted "u" loneRows ∧ rows'.get? "C" = some rowC ∧ rows'.get? "B" = some rowB ∧
      rowC.supersededBy = some "B" ∧ "B" ∉ getMemoryLineage rows' "C" "u" := by
  have hrun : ((Runs.exec (SupersedeCall.step .ascii "u") loneRows
      [supersedeBy "C" "B", supersedeBy "A" "B"]).map fun rows =>
        ((rows.get? "C").map (·.supersededBy), (rows.get? "B").isSome,
          decide ("B" ∈ getMemoryLineage rows "C" "u"))) = some (some (some "B"), true, false) := by
    decide +kernel
  obtain ⟨rows', h, hread⟩ := Option.map_eq_some_iff.mp hrun
  simp only [Prod.mk.injEq, Option.map_eq_some_iff, decide_eq_false_iff_not] at hread
  obtain ⟨⟨rowC, hC, hCB⟩, hB, hmiss⟩ := hread
  obtain ⟨rowB, hB⟩ := Option.isSome_iff_exists.mp hB
  exact ⟨rows', rowC, rowB, h, rooted_loneRows, hC, hB, hCB, hmiss⟩

end Runir
