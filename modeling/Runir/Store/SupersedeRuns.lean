import Runir.Lib.Runs
import Runir.Store.SupersedeFacts

/-!
# Store — Runs of supersedes

One user's supersedes, one after the other: `SupersedeCall.step` performs a call, and leaves the
table alone when the store refuses it.

* `WellLinked`: every `superseded_by` is answered by the `supersedes` of its replacement, and the
  `superseded_by` pointers have no cycle.
* `supersede_acyclic`: a run whose calls keep each replacement's predecessor stays acyclic.
* `supersede_cycle`: an existing replacement that forgets its predecessor closes a cycle.
-/

namespace Runir

/-- A call of `supersedeMemory`: its clock, the id at which the cycle guard's query throws, if one
does, and its arguments. -/
structure SupersedeCall where
  now : Int
  failed : Option String := none
  input : SupersedeInput

variable {host : Host}

namespace SupersedeCall

def previousId (call : SupersedeCall) : String := call.input.previousId

def replacementId (call : SupersedeCall) : String := call.input.replacement.id

/-- A call of the user; a refused one leaves the table as it was. -/
def step (host : Host) (userId : String) (rows : Rows) (call : SupersedeCall) : Option Rows :=
  if call.input.replacement.userId = userId then
    some
      (match supersedeMemory host call.now call.failed call.input rows with
      | .ok rows' => rows'
      | .error _ => rows)
  else none

/-- A call leaves the table alone, or applies the plan it prepared. -/
theorem step_cases {userId : String} {rows rows' : Rows} {call : SupersedeCall}
    (h : step host userId rows call = some rows') :
    call.input.replacement.userId = userId ∧
      (rows' = rows ∨
        ∃ p, Prepared call.failed rows call.input p ∧ rows' = planRows host call.now p rows) := by
  unfold step at h
  split at h
  · next huser =>
      refine ⟨huser, ?_⟩
      obtain rfl := Option.some.inj h
      cases hrun : supersedeMemory host call.now call.failed call.input rows with
      | error e => exact Or.inl rfl
      | ok rows₁ =>
          obtain ⟨p, hp, heq⟩ := supersedeMemory_ok hrun
          exact Or.inr ⟨p, hp, heq⟩
  · cases h

end SupersedeCall

/-! ### The `superseded_by` graph -/

/-- The `superseded_by` pointer of a row. -/
def supersededByOf (rows : Rows) (id : String) : Option String :=
  (rows.get? id).bind (·.supersededBy)

/-- A plan redirects one pointer, from its previous row to its replacement. -/
theorem supersededByOf_planRows {now : Int} {failed : Option String} {rows : Rows}
    {input : SupersedeInput} {p : PreparedSupersede} (hp : Prepared failed rows input p) :
    supersededByOf (planRows host now p rows) =
      Function.update (supersededByOf rows) p.previousId (some p.replacement.id) := by
  funext id
  unfold supersededByOf
  rw [get?_planRows, Function.update_apply]
  by_cases hprev : id = p.previousId
  · rw [if_pos hprev, if_pos hprev]
    rfl
  · rw [if_neg hprev, if_neg hprev]
    by_cases htarget : id = p.replacement.id
    · -- the target keeps the pointer it had
      rw [if_pos htarget, htarget, hp.replacement_eq, ← hp.replacementRow_eq]
      exact targetRow_supersededBy
    · rw [if_neg htarget]

/-- Every `superseded_by` leaves a row of the user, and its replacement names that row. -/
structure WellLinked (userId : String) (rows : Rows) : Prop where
  answered : ∀ a b row, rows.get? a = some row → row.supersededBy = some b →
    row.payloadUserId = some userId ∧ ∃ row', rows.get? b = some row' ∧ row'.supersedes = some a
  acyclic : Pointers.Acyclic (supersededByOf rows)

/-- A table without `superseded_by` pointers. -/
theorem wellLinked_of_unlinked {rows : Rows} (userId : String)
    (h : ∀ id row, rows.get? id = some row → row.supersededBy = none) : WellLinked userId rows := by
  constructor
  · intro a b row hrow hb
    rw [h a row hrow] at hb
    cases hb
  · refine Pointers.acyclic_of_none fun id => ?_
    unfold supersededByOf
    cases hrow : rows.get? id with
    | none => rfl
    | some row => exact h id row hrow

/-- The call does not make an existing replacement forget a predecessor that is still superseded
by it, and the cycle guard can read the table. -/
def KeepsPredecessor (rows : Rows) (call : SupersedeCall) : Prop :=
  call.failed = none ∧
    match (rows.get? call.replacementId).bind (·.supersedes) with
    | none => True
    | some a => a = call.previousId ∨ supersededByOf rows a ≠ some call.replacementId

instance (rows : Rows) (call : SupersedeCall) : Decidable (KeepsPredecessor rows call) :=
  haveI : Decidable (match (rows.get? call.replacementId).bind (·.supersedes) with
      | none => True
      | some a => a = call.previousId ∨ supersededByOf rows a ≠ some call.replacementId) :=
    match (rows.get? call.replacementId).bind (·.supersedes) with
    | none => isTrue trivial
    | some _ => inferInstanceAs (Decidable (_ ∨ _))
  inferInstanceAs (Decidable (_ ∧ _))

section step
variable {host : Host} {now : Int} {userId : String} {rows : Rows} {input : SupersedeInput}
  {p : PreparedSupersede}

/-- The walk of the guard retraces, against the arrows, every `superseded_by` path that ends in a
visible row. -/
theorem WellLinked.guard_reach (hrows : WellLinked userId rows) {a b : String}
    (hb : ∃ row, rows.get? b = some row ∧ row.payloadUserId = some userId)
    (h : Pointers.Reach (supersededByOf rows) a b) :
    Pointers.Reach (guardPointer (guardQuery none rows userId)) b a ∧
      ∃ row, rows.get? a = some row ∧ row.payloadUserId = some userId := by
  induction h using Relation.ReflTransGen.head_induction_on with
  | refl => exact ⟨.refl, hb⟩
  | @head a c hac _ ih =>
      obtain ⟨hreach, rowc, hrowc, hvisible⟩ := ih
      obtain ⟨rowa, hrowa, hsup⟩ := Option.bind_eq_some_iff.mp hac
      obtain ⟨howner, rowc', hrowc', hback⟩ := hrows.answered a c rowa hrowa hsup
      obtain rfl := Option.some.inj (hrowc.symm.trans hrowc')
      refine ⟨hreach.tail ?_, rowa, hrowa, howner⟩
      -- the guard sees `c`, whose `supersedes` is `a`
      unfold Pointers.Edge guardPointer guardQuery visibleSupersedes
      simp only [hrowc, if_pos hvisible, reduceCtorEq, if_false]
      exact hback

theorem WellLinked.not_reach (hrows : WellLinked userId rows)
    (hp : Prepared none rows input p) (huser : input.replacement.userId = userId) :
    ¬Pointers.Reach (supersededByOf rows) p.replacement.id p.previousId := by
  intro hreach
  have hprev : ∃ row, rows.get? p.previousId = some row ∧ row.payloadUserId = some userId :=
    ⟨p.previousRow, hp.previousId_eq ▸ hp.previous,
      huser ▸ MemoryRow.ownedBy_payload hp.previousOwned⟩
  have hguard := (hrows.guard_reach hprev hreach).1
  have hno := not_reach_of_cycleWalk hp.noCycle
  rw [← hp.replacement_eq, ← hp.previousId_eq, hp.replacement_eq, huser,
    ← hp.replacement_eq] at hno
  exact hno hguard

/-- A plan that keeps its replacement's predecessor keeps every answer. -/
theorem WellLinked.answered_planRows (hrows : WellLinked userId rows)
    {failed : Option String} (hp : Prepared failed rows input p)
    (huser : input.replacement.userId = userId)
    (hkeep : ∀ a, (rows.get? p.replacement.id).bind (·.supersedes) = some a →
      a = p.previousId ∨ supersededByOf rows a ≠ some p.replacement.id) :
    ∀ a b row, (planRows host now p rows).get? a = some row → row.supersededBy = some b →
      row.payloadUserId = some userId ∧
        ∃ row', (planRows host now p rows).get? b = some row' ∧ row'.supersedes = some a := by
  have hprev : rows.get? p.previousId = some p.previousRow := hp.previousId_eq ▸ hp.previous
  intro a b row hrow hb
  by_cases ha : a = p.previousId
  · -- the edge the plan makes
    rw [get?_planRows, if_pos ha] at hrow
    obtain rfl := Option.some.inj hrow
    obtain rfl : p.replacement.id = b := Option.some.inj hb
    refine ⟨?_, targetRow host now p p false, ?_, ?_⟩
    · rw [payloadUserId_setPrevious, ← huser]
      exact MemoryRow.ownedBy_payload hp.previousOwned
    · rw [get?_planRows, if_neg hp.ne.symm, if_pos rfl]
    · rw [targetRow_supersedes, ha]
  · -- an edge there was before
    have hedge : supersededByOf rows a = some b := by
      have hafter : supersededByOf (planRows host now p rows) a = some b := by
        unfold supersededByOf
        rw [hrow]
        exact hb
      rw [supersededByOf_planRows hp, Function.update_of_ne ha] at hafter
      exact hafter
    obtain ⟨row₀, hrow₀, hsup₀⟩ := Option.bind_eq_some_iff.mp hedge
    obtain ⟨howner, rowb, hrowb, hback⟩ := hrows.answered a b row₀ hrow₀ hsup₀
    have hb_ne : b ≠ p.replacement.id := by
      rintro rfl
      -- the replacement would forget `a`, which is still superseded by it
      rcases hkeep a (by rw [hrowb]; exact hback) with h | h
      · exact ha h
      · exact h hedge
    constructor
    · rw [get?_planRows, if_neg ha] at hrow
      by_cases htarget : a = p.replacement.id
      · rw [if_pos htarget] at hrow
        obtain rfl := Option.some.inj hrow
        have hreplaced : p.replacementRow = some row₀ := by
          rw [hp.replacementRow_eq, ← hp.replacement_eq, ← htarget, hrow₀]
        unfold targetRow
        rw [hreplaced]
        exact (payloadUserId_setTarget host now p row₀).trans howner
      · rw [if_neg htarget, hrow₀] at hrow
        obtain rfl := Option.some.inj hrow
        exact howner
    · by_cases hbp : b = p.previousId
      · refine ⟨setPrevious host now p p.previousRow, ?_, ?_⟩
        · rw [get?_planRows, if_pos hbp]
        · rw [hbp, hprev] at hrowb
          obtain rfl := Option.some.inj hrowb
          exact hback
      · refine ⟨rowb, ?_, hback⟩
        rw [get?_planRows, if_neg hbp, if_neg hb_ne, hrowb]

end step

/-- **One call.**  A call that keeps its replacement's predecessor keeps the table well linked. -/
theorem WellLinked.step {userId : String} {rows rows' : Rows} {call : SupersedeCall}
    (hrows : WellLinked userId rows) (hkeep : KeepsPredecessor rows call)
    (h : call.step host userId rows = some rows') : WellLinked userId rows' := by
  obtain ⟨huser, rfl | ⟨p, hp, rfl⟩⟩ := SupersedeCall.step_cases h
  · exact hrows
  · obtain ⟨hguard, hpred⟩ := hkeep
    rw [hguard] at hp
    refine ⟨hrows.answered_planRows hp huser fun a ha => ?_, ?_⟩
    · rw [hp.replacement_eq] at ha
      unfold SupersedeCall.replacementId SupersedeCall.previousId at hpred
      rw [ha] at hpred
      rw [hp.previousId_eq, hp.replacement_eq]
      exact hpred
    · rw [supersededByOf_planRows hp]
      exact hrows.acyclic.update (hrows.not_reach hp huser)

/-- **Supersession stays acyclic** along every run of one user's calls that keep each
replacement's predecessor. -/
theorem supersede_acyclic {host : Host} {userId : String} {rows rows' : Rows}
    {calls : List SupersedeCall} (h₀ : WellLinked userId rows)
    (hkeep : Runs.Along (SupersedeCall.step host userId) KeepsPredecessor rows calls)
    (h : Runs.exec (SupersedeCall.step host userId) rows calls = some rows') :
    Pointers.Acyclic (supersededByOf rows') := by
  have hlinked : WellLinked userId rows' :=
    Runs.exec_invariant (fun _ _ _ hI hP hstep => WellLinked.step hI hP hstep) h₀ hkeep h
  exact hlinked.acyclic

/-! ### A small table -/

/-- A row of user `u` that supersedes nothing. -/
def loneRow (now : Int) (id : String) : MemoryRow :=
  composeMemoryRecord .ascii now id "u" [1] none .user none { active := true } none

/-- Three such rows. -/
def loneRows : Rows := .ofList [("A", loneRow 0 "A"), ("B", loneRow 1 "B"), ("C", loneRow 2 "C")]

/-- User `u` supersedes `previous` by `replacement`. -/
def supersedeBy (previous replacement : String) : SupersedeCall where
  now := 10
  input :=
    { previousId := previous
      replacement := { id := replacement, text := replacement, userId := "u", embedding := [1] } }

theorem unlinked_loneRows : ∀ id row, loneRows.get? id = some row → row.supersededBy = none := by
  intro id row h
  have hall : ∀ e ∈ loneRows.entries, e.2.supersededBy = none := by decide +kernel
  exact hall (id, row) (OrdMap.get?_eq_some.mp h)

/-- `A`, then `B`, then a fresh `D`. -/
theorem supersede_acyclic_chain :
    ∃ rows', Runs.exec (SupersedeCall.step .ascii "u") loneRows
        [supersedeBy "A" "B", supersedeBy "B" "C", supersedeBy "C" "D"] = some rows' ∧
      Pointers.Acyclic (supersededByOf rows') := by
  have hrun : (Runs.exec (SupersedeCall.step .ascii "u") loneRows
      [supersedeBy "A" "B", supersedeBy "B" "C", supersedeBy "C" "D"]).isSome = true := by decide +kernel
  obtain ⟨rows', h⟩ := Option.isSome_iff_exists.mp hrun
  have hkeep : Runs.Along (SupersedeCall.step .ascii "u") KeepsPredecessor loneRows
      [supersedeBy "A" "B", supersedeBy "B" "C", supersedeBy "C" "D"] := by decide +kernel
  exact ⟨rows', h, supersede_acyclic (wellLinked_of_unlinked "u" unlinked_loneRows) hkeep h⟩

/-- **A cycle.**  `B` replaces `A`, then `C`, and forgets `A`; the guard lets `A` replace `B`. -/
theorem supersede_cycle :
    ∃ rows', Runs.exec (SupersedeCall.step .ascii "u") loneRows
        [supersedeBy "A" "B", supersedeBy "C" "B", supersedeBy "B" "A"] = some rows' ∧
      (∀ id row, loneRows.get? id = some row → row.supersededBy = none) ∧
      Relation.TransGen (Pointers.Edge (supersededByOf rows')) "A" "A" := by
  have hrun : ((Runs.exec (SupersedeCall.step .ascii "u") loneRows
      [supersedeBy "A" "B", supersedeBy "C" "B", supersedeBy "B" "A"]).map fun rows =>
        (supersededByOf rows "A", supersededByOf rows "B")) = some (some "B", some "A") := by
    decide +kernel
  obtain ⟨rows', h, hlinks⟩ := Option.map_eq_some_iff.mp hrun
  obtain ⟨hA, hB⟩ := Prod.mk.inj hlinks
  refine ⟨rows', h, unlinked_loneRows, ?_⟩
  have hedge : Pointers.Edge (supersededByOf rows') "A" "B" := hA
  exact .tail (.single hedge) hB

end Runir
