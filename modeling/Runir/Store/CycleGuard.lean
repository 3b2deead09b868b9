import Runir.Store.SupersedeRuns

/-!
# Store — CycleGuard

What `wouldCreateCycle` refuses where there is no cycle.

The walk ends at the first id whose row it cannot see or that supersedes nothing.  Over pointers
that close no cycle, and for an id that none of them names, only the ceiling is left to stop it: the
guard refuses exactly where `corruptionCeiling - 1` pointers can be followed from the target
(`wouldCreateCycle_eq_false_iff`).
-/

namespace Runir

/-- The `supersedes` column of the row of an id. -/
def supersedesOf (rows : Rows) (id : String) : Option String := (rows.get? id).bind (·.supersedes)

/-- An id that no row has, that no row supersedes, and that is not the target's. -/
structure FreshFor (rows : Rows) (targetId newMemoryId : String) : Prop where
  absent : rows.get? newMemoryId = none
  unnamed : ∀ id, supersedesOf rows id ≠ some newMemoryId
  ne_target : targetId ≠ newMemoryId

/-- The guard follows pointers of the table. -/
theorem guardPointer_le {failed : Option String} {rows : Rows} {userId a b : String}
    (h : Pointers.Edge (guardPointer (guardQuery failed rows userId)) a b) :
    Pointers.Edge (supersedesOf rows) a b := by
  simp only [Pointers.Edge, guardPointer, guardQuery, visibleSupersedes] at h
  split at h
  · cases h
  · rw [Pointers.Edge, supersedesOf]
    split at h
    · cases h
    · next row hrow =>
        split at h
        · rw [hrow]
          exact h
        · cases h

section
variable {next : String → Option (Option String)} {newMemoryId : String}

/-- A walk that cannot meet the new id nor come back is stopped by the ceiling only. -/
theorem cycleWalk_iff (hacyclic : Pointers.Acyclic (guardPointer next))
    (hfresh : ∀ id, guardPointer next id ≠ some newMemoryId) {fuel : Nat} {visited : List String}
    {currentId : String} (hfuel : visited.length + fuel + 1 = corruptionCeiling)
    (hne : currentId ≠ newMemoryId)
    (hvisited : ∀ v ∈ visited, Relation.TransGen (Pointers.Edge (guardPointer next)) v currentId) :
    cycleWalk next newMemoryId (fuel + 1) visited currentId = true ↔
      (Pointers.hops (guardPointer next) fuel currentId).isSome := by
  induction fuel generalizing visited currentId with
  | zero =>
      have hnot : currentId ∉ visited := fun hmem => hacyclic _ (hvisited _ hmem)
      have hceiling : corruptionCeiling ≤ (currentId :: visited).length := by
        rw [List.length_cons]
        omega
      rw [cycleWalk, if_neg hne, if_neg hnot, if_pos hceiling]
      exact iff_of_true rfl rfl
  | succ fuel ih =>
      have hnot : currentId ∉ visited := fun hmem => hacyclic _ (hvisited _ hmem)
      have hceiling : ¬corruptionCeiling ≤ (currentId :: visited).length := by
        rw [List.length_cons]
        omega
      rw [cycleWalk, if_neg hne, if_neg hnot, if_neg hceiling, Pointers.hops]
      cases hnext : next currentId with
      | none => simp [guardPointer, hnext]
      | some pointer =>
          cases pointer with
          | none => simp [guardPointer, hnext]
          | some nextId =>
              have hedge : Pointers.Edge (guardPointer next) currentId nextId := by
                simp [Pointers.Edge, guardPointer, hnext]
              have hnextId : nextId ≠ newMemoryId := fun heq => hfresh currentId (heq ▸ hedge)
              have hpath : ∀ v ∈ currentId :: visited,
                  Relation.TransGen (Pointers.Edge (guardPointer next)) v nextId := by
                intro v hv
                rcases List.mem_cons.mp hv with rfl | hv
                · exact .single hedge
                · exact (hvisited v hv).tail hedge
              have hstep : guardPointer next currentId = some nextId := hedge
              simp only [if_neg hnextId, hstep, Option.bind_some]
              exact ih (by rw [List.length_cons]; omega) hnextId hpath

end

/-- **Over an acyclic table the guard admits a fresh id exactly where the chain from the target is
shorter than the ceiling.** -/
theorem wouldCreateCycle_eq_false_iff (failed : Option String) {rows : Rows}
    {newMemoryId targetId : String} (userId : String)
    (hacyclic : Pointers.Acyclic (supersedesOf rows)) (hfresh : FreshFor rows targetId newMemoryId) :
    wouldCreateCycle failed rows newMemoryId targetId userId = false ↔
      Pointers.hops (guardPointer (guardQuery failed rows userId)) (corruptionCeiling - 1) targetId =
        none := by
  have hguard : Pointers.Acyclic (guardPointer (guardQuery failed rows userId)) :=
    hacyclic.mono fun _ _ => guardPointer_le
  have hunnamed : ∀ id, guardPointer (guardQuery failed rows userId) id ≠ some newMemoryId :=
    fun id h => hfresh.unnamed id (guardPointer_le h)
  have hwalk : cycleWalk (guardQuery failed rows userId) newMemoryId (49 + 1) [] targetId = true ↔ _ :=
    cycleWalk_iff hguard hunnamed rfl hfresh.ne_target fun v hv => nomatch hv
  rw [← Bool.not_eq_true, wouldCreateCycle, corruptionCeiling, hwalk, Option.not_isSome_iff_eq_none]

/-- A fresh `D` may supersede a row of a table without chains. -/
theorem wouldCreateCycle_loneRows :
    wouldCreateCycle none loneRows "D" "A" "u" = false ↔
      Pointers.hops (guardPointer (guardQuery none loneRows "u")) (corruptionCeiling - 1) "A" =
        none := by
  have hnone : ∀ id, supersedesOf loneRows id = none := by
    intro id
    rw [supersedesOf]
    cases hrow : loneRows.get? id with
    | none => rfl
    | some row =>
        have hall : ∀ e ∈ loneRows.entries, e.2.supersedes = none := by decide +kernel
        exact hall (id, row) (OrdMap.get?_eq_some.mp hrow)
  refine wouldCreateCycle_eq_false_iff none "u" (Pointers.acyclic_of_none hnone)
    ⟨by decide +kernel, fun id h => ?_, by decide⟩
  exact nomatch (hnone id).symm.trans h

/-! ### A long chain -/

/-- The id after `n` corrections. -/
def correctedId (n : Nat) : String := String.ofList (List.replicate (n + 1) 'm')

/-- The row after `n` corrections. -/
def correctedRow (n : Nat) : MemoryRow where
  embedding := none
  payload := .ofList [("userId", .str "u")]
  textNorm := ""
  createdAt := 0
  updatedAt := 0
  userId := some "u"
  scope := some "user"
  sessionId := none
  path := none
  memoryRole := none
  validAt := none
  invalidAt := none
  confidence := none
  active := some (n == 49)
  inactiveAt := none
  inactiveReason := none
  supersededBy := none
  supersedes := if n = 0 then none else some (correctedId (n - 1))
  lineageRootId := none
  processingLineage := none
  supersedeProvenance := none

/-- A fact that has been corrected 49 times, each time by a fresh row. -/
def correctedRows : Rows := .ofList ((List.range 50).map fun n => (correctedId n, correctedRow n))

theorem length_correctedId (n : Nat) : (correctedId n).length = n + 1 := by
  rw [correctedId, String.length_ofList, List.length_replicate]

theorem correctedId_ne_new (n : Nat) : correctedId n ≠ "new" := by
  intro h
  have hmem : 'n' ∈ (correctedId n).toList := by
    rw [h]
    decide
  rw [correctedId, String.toList_ofList] at hmem
  exact absurd (List.eq_of_mem_replicate hmem) (by decide)

/-- Each id names the one before it. -/
theorem supersedesOf_correctedRows {a b : String} (h : supersedesOf correctedRows a = some b) :
    ∃ n, a = correctedId (n + 1) ∧ b = correctedId n := by
  obtain ⟨row, hrow, hb⟩ := Option.bind_eq_some_iff.mp h
  obtain ⟨n, -, he⟩ := List.mem_map.mp (OrdMap.mem_of_get?_ofList hrow)
  obtain ⟨rfl, rfl⟩ := Prod.mk.inj he
  cases n with
  | zero => exact nomatch hb
  | succ n => exact ⟨n, rfl, (Option.some.inj hb).symm⟩

/-- It cannot be corrected once more, though no pointer closes a cycle. -/
theorem wouldCreateCycle_refuses_long_chain :
    Pointers.Acyclic (supersedesOf correctedRows) ∧
      FreshFor correctedRows (correctedId 49) "new" ∧
      wouldCreateCycle none correctedRows "new" (correctedId 49) "u" = true := by
  refine ⟨Pointers.Acyclic.of_measure String.length fun a b h => ?_, ⟨?_, fun id h => ?_, ?_⟩, ?_⟩
  · obtain ⟨n, rfl, rfl⟩ := supersedesOf_correctedRows h
    rw [length_correctedId, length_correctedId]
    exact Nat.lt_succ_self _
  · cases hrow : correctedRows.get? "new" with
    | none => rfl
    | some row =>
        obtain ⟨n, -, he⟩ := List.mem_map.mp (OrdMap.mem_of_get?_ofList hrow)
        exact absurd (Prod.mk.inj he).1 (correctedId_ne_new n)
  · obtain ⟨n, -, hnew⟩ := supersedesOf_correctedRows h
    exact correctedId_ne_new n hnew.symm
  · exact correctedId_ne_new 49
  · decide +kernel

end Runir
