import Runir.Continuity.ProjectStates

/-!
# Continuity — Project states in flight

Swaps, warmings and recalls in flight on one table of project states.

* `ProjectStateTable.Advances`: no version goes back, content changes with its version only, and not
  over a row that is newer than what the content was computed from; a recall keeps a project key.
* `ProjectStateWorld.writesWhatItRead`: no upsert of a warming is performed on a row that is there,
  and one of a recall only on the row it has read.
* `states_advance`: every step of a run of which that holds advances the table.
-/

namespace Runir
open Shared

/-! ### What a call has read -/

/-- The row a call has last read. -/
def lastRead : Heard ProjectStateQuery ProjectStateQuery.Reply → Option (String × ProjectStateRow)
  | [] => none
  | ⟨.rowByKey _ _, some (some found)⟩ :: _ => some found
  | ⟨.rowByPath _ _, some (some found)⟩ :: _ => some found
  | ⟨.rowById _, some (some found)⟩ :: _ => some found
  | ⟨.latest _, some (some found)⟩ :: _ => some found
  | _ :: h => lastRead h

namespace ProjectStateCall

/-- The version of a row that what the call writes to it was computed from: a swap is told, and the
others have read it. -/
def basis (call : ProjectStateCall) (h : Heard ProjectStateQuery ProjectStateQuery.Reply)
    (id : String) : Option Int :=
  match call with
  | .swap _ _ expectedVersion => some expectedVersion
  | .warm _ _ => ((lastRead h).filter fun e => e.1 = id).map fun e => projectStateVersion e.2.version
  | .recall _ _ _ _ =>
      ((lastRead h).filter fun e => e.1 = id).map fun e => projectStateVersion e.2.version

def isRecall : ProjectStateCall → Bool
  | .recall _ _ _ _ => true
  | _ => false

/-- What a call may ask.  A swap raises the version it was told, and a recall writes back the row it
has last read. -/
def Asks (call : ProjectStateCall) (h : Heard ProjectStateQuery ProjectStateQuery.Reply) :
    ProjectStateQuery → Prop
  | .update _ expectedVersion row =>
      match call with
      | .swap _ _ expected => expectedVersion = expected ∧ row.version = some (expected + 1)
      | _ => False
  | .upsert _ row =>
      match call with
      | .swap _ _ _ => False
      | .warm _ _ => True
      | .recall _ _ _ _ => ∀ found, lastRead h = some found →
          row.content = found.2.content.normalized.normalized ∧
            row.version = some (projectStateVersion found.2.version)
  | _ => True

end ProjectStateCall

/-! ### What a write does to the rows -/

namespace ProjectStateTable
variable {s : ProjectStateTable}

/-- What a step is to do to every row, for a call with a basis. -/
def Advances (isRecall : Bool) (basis : String → Option Int) (s s' : ProjectStateTable) : Prop :=
  ∀ id row, s.get? id = some row → ∃ row', s'.get? id = some row' ∧
    projectStateVersion row.version ≤ projectStateVersion row'.version ∧
    (row'.content ≠ row.content →
      projectStateVersion row.version < projectStateVersion row'.version ∧
        ∃ version, basis id = some version ∧ projectStateVersion row.version ≤ version) ∧
    (isRecall = true → row.projectKey.isSome = true → row'.projectKey = row.projectKey)

theorem advances_refl (isRecall : Bool) (basis : String → Option Int) (s : ProjectStateTable) :
    Advances isRecall basis s s := fun _ row hrow =>
  ⟨row, hrow, le_refl _, fun hcontent => absurd rfl hcontent, fun _ _ => rfl⟩

/-- A row that is written advances the table when it advances the row that is there. -/
theorem advances_set {isRecall : Bool} {basis : String → Option Int} {id : String}
    {row : ProjectStateRow}
    (h : ∀ old, s.get? id = some old →
      projectStateVersion old.version ≤ projectStateVersion row.version ∧
      (row.content ≠ old.content →
        projectStateVersion old.version < projectStateVersion row.version ∧
          ∃ version, basis id = some version ∧ projectStateVersion old.version ≤ version) ∧
      (isRecall = true → old.projectKey.isSome = true → row.projectKey = old.projectKey)) :
    Advances isRecall basis s (s.set id row) := by
  intro id' row' hrow'
  by_cases hid : id' = id
  · subst hid
    exact ⟨row, OrdMap.get?_set_self s id' row, h row' hrow'⟩
  · exact ⟨row', (OrdMap.get?_set_ne s row hid).trans hrow', le_refl _,
      fun hcontent => absurd rfl hcontent, fun _ _ => rfl⟩

/-- An upsert that lands on a row is a recall's of the row it has last read. -/
def writesBack (call : ProjectStateCall) (h : Heard ProjectStateQuery ProjectStateQuery.Reply)
    (id : String) (s : ProjectStateTable) : Prop :=
  ∀ old ∈ s.get? id, call.isRecall = true ∧ lastRead h = some (id, old) ∧
    old.content.normalized = old.content ∧ old.projectKey = none

/-- What a query of a call does to the rows. -/
theorem advances_perform {call : ProjectStateCall}
    {h : Heard ProjectStateQuery ProjectStateQuery.Reply} {q : ProjectStateQuery} (caller : Nat)
    (hasks : call.Asks h q) (hback : ∀ id row, q = .upsert id row → writesBack call h id s) :
    Advances call.isRecall (call.basis h) s (perform caller q s).1 := by
  have hrefl := advances_refl call.isRecall (call.basis h) s
  cases q with
  | idByKey userId projectKey => exact hrefl
  | idByPath userId path => exact hrefl
  | rowByKey userId projectKey => exact hrefl
  | rowByPath userId path => exact hrefl
  | rowById id => exact hrefl
  | latest userId => exact hrefl
  | create id row =>
      simp only [perform]
      split
      · exact hrefl
      · rename_i hfree
        rw [Bool.or_eq_true, not_or, Option.not_isSome_iff_eq_none] at hfree
        refine advances_set fun old hold => ?_
        rw [hfree.1] at hold
        cases hold
  | update id expectedVersion row =>
      cases call with
      | warm now args => exact hasks.elim
      | «recall» now userId path projectKey => exact hasks.elim
      | swap now state expected =>
          obtain ⟨rfl, hversion⟩ := hasks
          simp only [perform]
          cases hold : s.get? id with
          | none => exact hrefl
          | some old =>
              dsimp only
              split
              · rename_i hexpected
                have hold' : projectStateVersion old.version = expectedVersion := by
                  rcases hexpected with h | ⟨h, rfl⟩ <;> rw [h] <;> rfl
                have hnew : projectStateVersion row.version = expectedVersion + 1 := by
                  rw [hversion]
                  rfl
                split
                · exact hrefl
                · refine advances_set fun old' hold'' => ?_
                  obtain rfl := Option.some.inj (hold.symm.trans hold'')
                  rw [hnew, hold']
                  exact ⟨by omega, fun _ => ⟨by omega, expectedVersion, rfl, le_refl _⟩,
                    (absurd · Bool.false_ne_true)⟩
              · exact hrefl
  | upsert id row =>
      simp only [perform]
      split
      · exact hrefl
      · refine advances_set fun old hold => ?_
        obtain ⟨hrecall, hread, hnormal, hkey⟩ := hback id row rfl old hold
        cases call with
        | swap now state expected => exact hasks.elim
        | warm now args => cases hrecall
        | «recall» now userId path projectKey =>
            obtain ⟨hcontent, hversion⟩ := hasks _ hread
            refine ⟨?_, fun hne => absurd ?_ hne, fun _ hsome => ?_⟩
            · rw [hversion]
              exact le_refl _
            · rw [hcontent, hnormal, hnormal]
            · rw [hkey] at hsome
              cases hsome

end ProjectStateTable

/-! ### What the calls ask -/

section
variable (fingerprint : String → String) {call : ProjectStateCall}
  {h : Heard ProjectStateQuery ProjectStateQuery.Reply}

/-- What is returned is the row that was read last. -/
abbrev IsLastRead (found : Option (String × ProjectStateRow))
    (h : Heard ProjectStateQuery ProjectStateQuery.Reply) : Prop :=
  ∀ e, found = some e → lastRead h = some e

theorem asks_findByPath (userId : String) (path : Option String) :
    (findByPath userId path).AsksThen call.Asks IsLastRead h := by
  unfold findByPath
  cases path.filter Text.truthy with
  | none => exact fun _ hnone => nomatch hnone
  | some path =>
      refine Routine.asksThen_query trivial ?_
      rintro _ e rfl
      rfl

theorem asks_findExistingProjectStateVersionedRow (userId : String) (projectKey path : Option String) :
    (findExistingProjectStateVersionedRow userId projectKey path).AsksThen call.Asks IsLastRead h := by
  unfold findExistingProjectStateVersionedRow
  cases projectKey.filter Text.truthy with
  | none => exact asks_findByPath userId path
  | some key =>
      refine (Routine.asksThen_query (P := IsLastRead) trivial ?_).bind fun found h hfound => ?_
      · rintro _ e rfl
        rfl
      · cases found with
        | none => exact asks_findByPath userId path
        | some found => exact fun e he => hfound e he

/-- The queries for an id read no row. -/
theorem asks_findExistingProjectStateRecordId (userId : String) (projectKey path : Option String) :
    (findExistingProjectStateRecordId userId projectKey path).AsksThen call.Asks
      (fun _ h' => lastRead h' = lastRead h) h := by
  have hpath : ∀ h', lastRead h' = lastRead h → (findIdByPath userId path).AsksThen call.Asks
      (fun _ h' => lastRead h' = lastRead h) h' := by
    intro h' hsame
    unfold findIdByPath
    cases path.filter Text.truthy with
    | none => exact hsame
    | some path => exact Routine.asksThen_query trivial fun _ => hsame
  unfold findExistingProjectStateRecordId
  cases projectKey.filter Text.truthy with
  | none => exact hpath h rfl
  | some key =>
      refine (Routine.asksThen_query (P := fun _ h' => lastRead h' = lastRead h) trivial
        fun _ => rfl).bind fun found h' hsame => ?_
      cases found with
      | none => exact hpath h' hsame
      | some id => exact hsame

theorem asks_findPathless (userId : String) (projectKey : Option String) :
    (findPathless fingerprint userId projectKey).AsksThen call.Asks IsLastRead h := by
  refine (Routine.asksThen_query (P := IsLastRead) trivial ?_).bind fun found h' hfound => ?_
  · rintro _ e rfl
    rfl
  · cases found with
    | some found => exact fun e he => hfound e he
    | none =>
        refine Routine.asksThen_query trivial ?_
        rintro _ e rfl
        rfl

theorem asks_getProjectState (userId : String) (path projectKey : Option String) :
    (getProjectState fingerprint userId path projectKey).AsksThen call.Asks IsLastRead h := by
  have hrest : ∀ h, (if path.any Text.truthy then findByPath userId path
      else findPathless fingerprint userId projectKey).AsksThen call.Asks IsLastRead h := by
    intro h
    split
    · exact asks_findByPath userId path
    · exact asks_findPathless fingerprint userId projectKey
  unfold getProjectState
  cases projectKey.filter Text.truthy with
  | none => exact hrest h
  | some key =>
      refine (Routine.asksThen_query (P := IsLastRead) trivial ?_).bind fun found h' hfound => ?_
      · rintro _ e rfl
        rfl
      · cases found with
        | none => exact hrest h'
        | some found => exact fun e he => hfound e he

/-- An upsert writes what it is given, after no other read of a row. -/
theorem asks_upsertProjectState (now : String) (state : ProjectStateWrite)
    (hupsert : ∀ h', lastRead h' = lastRead h → ∀ id updatedAt,
      call.Asks h' (.upsert id (state.row updatedAt (state.version.getD 1)
        state.previousProjectStateId))) :
    (upsertProjectState fingerprint now state).AsksThen call.Asks (fun _ _ => True) h :=
  (asks_findExistingProjectStateRecordId state.userId state.projectKey state.path).bind
    fun _ h' hsame => (Routine.asksThen_query (P := fun _ _ => True) (hupsert h' hsame _ _)
      fun _ => trivial).bind fun _ _ _ => trivial

theorem asks_compareAndSwapProjectState (now : String) (state : ProjectStateWrite)
    (expectedVersion : Int) :
    (compareAndSwapProjectState fingerprint now state expectedVersion).AsksThen
      (ProjectStateCall.swap now state expectedVersion).Asks (fun _ _ => True) h := by
  refine (asks_findExistingProjectStateVersionedRow _ _ _).bind fun current h' _ => ?_
  dsimp only
  split
  · trivial
  · rename_i hexpected
    rw [not_not] at hexpected
    split
    · refine (Routine.asksThen_attempt (P := fun _ _ => True) trivial fun _ => trivial).bind
        fun created h' _ => ?_
      cases created with
      | some _ => trivial
      | none =>
          refine (asks_findExistingProjectStateVersionedRow _ _ _).bind fun raced h' _ => ?_
          cases raced <;> trivial
    · refine (Routine.asksThen_query (P := fun _ _ => True) ⟨rfl, ?_⟩ fun _ => trivial).bind
        fun updated h' _ => ?_
      · split
        · trivial
        · exact (asks_findExistingProjectStateVersionedRow _ _ _).bind fun _ _ _ => trivial
      · rw [hexpected]
        rfl

theorem asks_warmProjectState (host : Host) (now : String) (args : WarmProjectStateArgs) :
    (warmProjectState host fingerprint now args).AsksThen (ProjectStateCall.warm now args).Asks
      (fun _ _ => True) h := by
  refine (asks_getProjectState fingerprint _ _ _).bind fun existing h' _ => ?_
  cases buildWarmedProjectState host now args (existing.map fun e => e.2.record e.1) with
  | none => trivial
  | some state =>
      have hasks : (upsertProjectState fingerprint now state).AsksThen
          (ProjectStateCall.warm now args).Asks (fun _ _ => True) h' :=
        asks_upsertProjectState fingerprint now state fun _ _ _ _ => trivial
      exact hasks.bind fun _ _ _ => trivial

theorem asks_getProjectStateForRecall (now userId : String) (path projectKey : Option String) :
    (getProjectStateForRecall fingerprint now userId path projectKey).AsksThen
      (ProjectStateCall.recall now userId path projectKey).Asks (fun _ _ => True) h := by
  unfold getProjectStateForRecall
  split
  · exact (asks_getProjectState fingerprint _ _ _).bind fun _ _ _ => trivial
  · refine (asks_getProjectState fingerprint _ _ _).bind fun exact h' hread => ?_
    cases exact with
    | none => exact (asks_getProjectState fingerprint _ _ _).bind fun _ _ _ => trivial
    | some found =>
        dsimp only
        cases projectKey.filter Text.truthy with
        | none => trivial
        | some key =>
            dsimp only
            split
            · refine (asks_upsertProjectState fingerprint now _ fun h' hsame id updatedAt => ?_).bind
                fun _ _ _ => trivial
              intro found' hfound'
              rw [hsame, hread found rfl] at hfound'
              obtain rfl := Option.some.inj hfound'
              exact ⟨rfl, rfl⟩
            · trivial

theorem asks_projectStateRoutine (host : Host) (call : ProjectStateCall) :
    (call.routine host fingerprint).Asks call.Asks [] := by
  refine Routine.AsksThen.asks (P := fun _ _ => True) ?_
  cases call with
  | swap now state expectedVersion =>
      exact (asks_compareAndSwapProjectState fingerprint now state expectedVersion).bind
        fun _ _ _ => trivial
  | warm now args =>
      exact (asks_warmProjectState fingerprint host now args).bind fun _ _ _ => trivial
  | «recall» now userId path projectKey =>
      exact (asks_getProjectStateForRecall fingerprint now userId path projectKey).bind
        fun _ _ _ => trivial

end

/-! ### Runs -/

abbrev ProjectStateWorld :=
  World Nat ProjectStateTable ProjectStateQuery ProjectStateQuery.Reply ProjectStateAnswer

/-- The id of an upsert that is asked. -/
def upsertAsked {α : Type} : ProjectStateRoutine α → Option String
  | .ask (.upsert id _) _ => some id
  | _ => none

section
variable (calls : Nat → ProjectStateCall)

/-- An upsert that is performed writes a row that is new, or back what its recall has read. -/
def ProjectStateWorld.writesWhatItRead (w : ProjectStateWorld) (a : Nat × Fate) : Prop :=
  ∀ id ∈ upsertAsked (w.routine a.1), a.2 ≠ .failed →
    ProjectStateTable.writesBack (calls a.1) (w.heard a.1) id w.store

instance (w : ProjectStateWorld) (a : Nat × Fate) : Decidable (w.writesWhatItRead calls a) :=
  inferInstanceAs (Decidable (∀ id ∈ upsertAsked (w.routine a.1), a.2 ≠ .failed →
    ∀ old ∈ w.store.get? id, (calls a.1).isRecall = true ∧ lastRead (w.heard a.1) = some (id, old) ∧
      old.content.normalized = old.content ∧ old.projectKey = none))

def ProjectStateWorld.advances (w : ProjectStateWorld) (a : Nat × Fate) : Prop :=
  ∀ w', step ProjectStateTable.perform w a = some w' →
    ProjectStateTable.Advances (calls a.1).isRecall ((calls a.1).basis (w.heard a.1)) w.store w'.store

variable {calls}

theorem ProjectStateWorld.advances_of_writesWhatItRead {w : ProjectStateWorld} {a : Nat × Fate}
    (hasks : ∀ i, (w.routine i).Asks (calls i).Asks (w.heard i))
    (hguard : w.writesWhatItRead calls a) : w.advances calls a := by
  intro w' hstep
  obtain ⟨q, k, hroutine, hstore, -, -⟩ := step_cases hstep
  have hcall := hasks a.1
  rw [hroutine] at hcall
  rw [hstore]
  by_cases hfate : a.2 = .failed
  · rw [hfate]
    exact ProjectStateTable.advances_refl _ _ w.store
  · rw [outcome_store hfate]
    refine ProjectStateTable.advances_perform a.1 hcall.1 ?_
    rintro id row rfl
    refine hguard id ?_ hfate
    rw [hroutine]
    rfl

/-- **Every step advances the table** in a run whose upserts write new rows, or back what their
recalls have read. -/
theorem states_advance (host : Host) (fingerprint : String → String)
    (calls : Nat → ProjectStateCall) (s : ProjectStateTable) (as : List (Nat × Fate))
    (hguard : Runs.Along (step ProjectStateTable.perform)
      (ProjectStateWorld.writesWhatItRead calls)
      (start s fun i => (calls i).routine host fingerprint) as) :
    Runs.Along (step ProjectStateTable.perform) (ProjectStateWorld.advances calls)
      (start s fun i => (calls i).routine host fingerprint) as :=
  Runs.Along.imp (I := fun w => ∀ i, (w.routine i).Asks (calls i).Asks (w.heard i))
    (fun _ _ _ h hstep => asks_step h hstep)
    (fun _ _ h hguard => ProjectStateWorld.advances_of_writesWhatItRead h hguard)
    (fun i => asks_projectStateRoutine fingerprint host (calls i)) hguard

end

/-! ### A state overwritten -/

def firstContent : ProjectStateContent where
  activeTicketIds := ["T-1"]
  confidence := 1

def firstState : ProjectStateRow where
  userId := "ann"
  projectKey := none
  path := some "/p"
  content := firstContent
  updatedAt := "u"
  version := some 1
  previousProjectStateId := none

/-- A capture that has a fact to warm the state with, a session's end, and a recall. -/
def stateCalls : Nat → ProjectStateCall
  | 0 => .warm "now"
      { facts := [⟨"we are fixing it", "events", 1, "create", "u", none⟩]
        userId := "ann"
        path := some "/p" }
  | 1 => .swap "now" { userId := "ann", path := some "/p", content := { firstContent with
      activeTicketIds := ["T-2"], currentFocus := some "release" } } 1
  | _ => .recall "now" "ann" (some "/p") (some "k")

/-- A recall gives the row of its path its project key, after a swap. -/
theorem states_advance_recall :
    let s : ProjectStateTable := OrdMap.empty.set "r" firstState
    Runs.Along (step ProjectStateTable.perform) (ProjectStateWorld.advances stateCalls)
      (start s fun i => (stateCalls i).routine Host.ascii fun v => v)
      [(1, .done), (1, .done), (2, .done), (2, .done), (2, .done), (2, .done), (2, .done)] :=
  states_advance Host.ascii (fun v => v) stateCalls _ _ (by decide +kernel)

/-- What the row says after a run. -/
def stateAfter (row : ProjectStateRow) (as : List (Nat × Fate)) :
    Option (List String × Option Int × Option String) := do
  let s : ProjectStateTable := OrdMap.empty.set "r" row
  let w ← Runs.exec (step ProjectStateTable.perform)
    (start s fun i => (stateCalls i).routine Host.ascii fun v => v) as
  let row ← w.store.get? "r"
  return (row.content.activeTicketIds, row.version, row.projectKey)

/-- A warming that has read version 1 writes it back over version 2, and a recall gives a row of
another project its own key. -/
theorem swap_overwritten :
    stateAfter firstState [(0, .done), (1, .done), (1, .done), (0, .done)] =
      some (["T-2"], some 2, none) ∧
    stateAfter firstState [(0, .done), (1, .done), (1, .done), (0, .done), (0, .done)] =
      some (["T-1"], some 1, none) ∧
    stateAfter { firstState with projectKey := some "other" }
      [(2, .done), (2, .done), (2, .done), (2, .done)] = some (["T-1"], some 1, some "other") ∧
    stateAfter { firstState with projectKey := some "other" }
      [(2, .done), (2, .done), (2, .done), (2, .done), (2, .done)] =
        some (["T-1"], some 1, some "k") := by
  decide +kernel

end Runir
