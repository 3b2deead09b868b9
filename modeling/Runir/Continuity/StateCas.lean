import Runir.Continuity.StateStore

/-!
# Continuity — The state row, in flight

Any number of calls of `compareAndSwapProjectContinuityState` on one user, workspace and project,
whose queries may fail before or after they have taken effect.

* `Linear`: the commits so far, one after another.
* `casDiscipline`: what a call may do, and the one step that goes wrong: the re-read after a
  create that was committed although its reply was lost.
* `cas_linear`: versions are committed once and in order, and the calls answer truly.
-/

namespace Runir
open Shared

/-! ### The table -/

variable {row : ContinuityStateRow} {id : String}

namespace ContinuityStates
variable {triple : String × String × String} {s s' : ContinuityStates}

/-- The unique index, for one triple. -/
def OneRow (triple : String × String × String) (s : ContinuityStates) : Prop :=
  ∀ id id' row row', s.rows.get? id = some row → s.rows.get? id' = some row' →
    row.triple = triple → row'.triple = triple → id = id'

/-- The version of the row of a triple; `none` where there is no row. -/
def version? (triple : String × String × String) (s : ContinuityStates) : Option Int :=
  (s.findRow triple).map fun e => e.2.version.getD 0

/-- The rows stay, each with its triple. -/
def KeepsRows (s s' : ContinuityStates) : Prop :=
  ∀ id row, s.rows.get? id = some row →
    ∃ row', s'.rows.get? id = some row' ∧ row'.triple = row.triple

/-- What a call has committed. -/
def own (caller : Nat) (s : ContinuityStates) : List StateCommit :=
  s.commits.filter fun c => c.caller = caller

theorem findRow_some
    (h : s.findRow triple = some (id, row)) : s.rows.get? id = some row ∧ row.triple = triple := by
  unfold findRow at h
  have htriple := List.find?_some h
  exact ⟨OrdMap.get?_eq_some.mpr (List.mem_of_find?_eq_some h), of_decide_eq_true htriple⟩

theorem findRow_none (h : s.findRow triple = none)
    (hrow : s.rows.get? id = some row) : row.triple ≠ triple := by
  intro heq
  have hnot := List.find?_eq_none.mp h (id, row) (OrdMap.get?_eq_some.mp hrow)
  exact hnot (decide_eq_true heq)

theorem findRow_of_get (hone : OneRow triple s)
    (hrow : s.rows.get? id = some row) (htriple : row.triple = triple) :
    s.findRow triple = some (id, row) := by
  cases h : s.findRow triple with
  | none => exact absurd htriple (findRow_none h hrow)
  | some e =>
      obtain ⟨id', row'⟩ := e
      obtain ⟨hrow', htriple'⟩ := findRow_some h
      obtain rfl := hone _ _ _ _ hrow hrow' htriple htriple'
      rw [hrow] at hrow'
      rw [Option.some.inj hrow']

/-- A commit to the row of a triple, or where there is none yet. -/
theorem commit_oneRow (caller : Nat) (id : String) (found : Option Int) (version : Int)
    (hone : OneRow triple s) (htriple : row.triple = triple)
    (hplace : (∃ old, s.rows.get? id = some old ∧ old.triple = triple) ∨ s.findRow triple = none) :
    OneRow triple (s.commit caller id found row version) ∧
      (s.commit caller id found row version).version? triple = some version := by
  have hget : ∀ id', (s.commit caller id found row version).rows.get? id' =
      if id' = id then some { row with version := some version } else s.rows.get? id' := fun id' =>
    OrdMap.get?_set s.rows id id' _
  have hothers : ∀ id' row', id' ≠ id → s.rows.get? id' = some row' → row'.triple ≠ triple := by
    intro id' row' hne hrow'
    rcases hplace with ⟨old, hold, holdTriple⟩ | hnone
    · exact fun htriple' => hne (hone _ _ _ _ hrow' hold htriple' holdTriple)
    · exact findRow_none hnone hrow'
  have hnew : OneRow triple (s.commit caller id found row version) := by
    have hid : ∀ id' row', (s.commit caller id found row version).rows.get? id' = some row' →
        row'.triple = triple → id' = id := by
      intro id' row' hrow' htriple'
      by_contra hne
      rw [hget, if_neg hne] at hrow'
      exact hothers id' row' hne hrow' htriple'
    intro id₁ id₂ row₁ row₂ h₁ h₂ ht₁ ht₂
    rw [hid id₁ row₁ h₁ ht₁, hid id₂ row₂ h₂ ht₂]
  refine ⟨hnew, ?_⟩
  unfold version?
  have hrow : (s.commit caller id found row version).rows.get? id =
      some { row with version := some version } := by
    rw [hget, if_pos rfl]
  rw [findRow_of_get hnew hrow htriple]
  rfl

theorem commit_keepsRows {caller : Nat} {found : Option Int} {version : Int}
    (hold : ∀ old, s.rows.get? id = some old → old.triple = row.triple) :
    KeepsRows s (s.commit caller id found row version) := by
  intro id' row' hrow'
  by_cases hid : id' = id
  · subst hid
    exact ⟨_, OrdMap.get?_set_self s.rows id' _, (hold row' hrow').symm⟩
  · exact ⟨row', (OrdMap.get?_set_ne s.rows _ hid).trans hrow', rfl⟩

end ContinuityStates

/-! ### The commits -/

/-- Each commit was applied to the version the one before it wrote, and wrote the next one; the
first found what was there, and the last wrote what is there now. -/
def Linear (first : Option Int) : List StateCommit → Option Int → Prop
  | [], current => current = first
  | c :: cs, current =>
      current = some c.version ∧ c.version = c.found.getD 0 + 1 ∧ Linear first cs c.found

theorem Linear.le {first : Option Int} {cs : List StateCommit} {current : Option Int}
    (h : Linear first cs current) : ∀ c ∈ cs, c.version ≤ current.getD 0 := by
  induction cs generalizing current with
  | nil => exact fun c hc => (List.not_mem_nil hc).elim
  | cons c cs ih =>
      obtain ⟨rfl, hnext, hrest⟩ := h
      rw [List.forall_mem_cons]
      refine ⟨le_rfl, fun c' hc' => ?_⟩
      have := ih hrest c' hc'
      rw [Option.getD_some]
      omega

/-- No version is committed twice. -/
theorem Linear.nodup {first : Option Int} {cs : List StateCommit} {current : Option Int}
    (h : Linear first cs current) : (cs.map (·.version)).Nodup := by
  induction cs generalizing current with
  | nil => exact List.nodup_nil
  | cons c cs ih =>
      obtain ⟨-, hnext, hrest⟩ := h
      rw [List.map_cons, List.nodup_cons]
      refine ⟨fun hmem => ?_, ih hrest⟩
      obtain ⟨c', hc', heq⟩ := List.mem_map.mp hmem
      have := hrest.le c' hc'
      omega

/-! ### The discipline -/

/-- The last query was a create, and nothing was heard of it. -/
def createUnheard : Heard StateQuery StateQuery.Reply → Bool
  | ⟨.create _ _ _, none⟩ :: _ => true
  | _ => false

/-- A re-read after a create is answered only if the create was not committed. -/
def ReReadFair (caller : Nat) (h : Heard StateQuery StateQuery.Reply) (_ : StateQuery) (fate : Fate)
    (s : ContinuityStates) : Prop :=
  createUnheard h = true → fate = .done → s.own caller = []

/-- What a query of a call may do: commit as itself, to rows that stay. -/
def MayCommit (caller : Nat) (s s' : ContinuityStates) : Prop :=
  (∀ j, j ≠ caller → s'.own j = s.own j) ∧ s.KeepsRows s'

/-- `first` is the version the row of the triple has to begin with. -/
def casDiscipline (triple : String × String × String) (first : Option Int) :
    Discipline Nat ContinuityStates StateQuery StateQuery.Reply where
  perform := ContinuityStates.perform
  inv s := s.OneRow triple ∧ Linear first s.commits (s.version? triple)
  may := MayCommit
  guard := ReReadFair

/-- What a call that answers has done: it has committed the version it names, to a row at the
version it expected (no row counts as version 0), or nothing. -/
def CasDone (expected : Nat → Int) (caller : Nat) (r : CasResult) (s : ContinuityStates) : Prop :=
  match r with
  | .record _ _ version _ _ =>
      version = expected caller + 1 ∧
        ∃ c, s.own caller = [c] ∧ c.found.getD 0 = expected caller ∧ c.version = version
  | .mismatch _ _ => s.own caller = []

section
variable {triple : String × String × String} {first : Option Int} {caller : Nat}

theorem mayCommit_refl (s : ContinuityStates) : MayCommit caller s s :=
  ⟨fun _ _ => rfl, fun _ row hrow => ⟨row, hrow, rfl⟩⟩

theorem own_commit (s : ContinuityStates) (j : Nat) (id : String) (found : Option Int)
    (row : ContinuityStateRow) (version : Int) :
    (s.commit caller id found row version).own j =
      if caller = j then ⟨caller, found, version⟩ :: s.own j else s.own j := by
  unfold ContinuityStates.own ContinuityStates.commit
  rw [List.filter_cons]
  split <;> rename_i h <;> simp at h <;> simp [h]

theorem mayCommit_commit {s : ContinuityStates} {found : Option Int} {version : Int}
    (hold : ∀ old, s.rows.get? id = some old → old.triple = row.triple) :
    MayCommit caller s (s.commit caller id found row version) := by
  refine ⟨fun j hj => ?_, ContinuityStates.commit_keepsRows hold⟩
  rw [own_commit, if_neg (Ne.symm hj)]

/-- What a call has committed is its own affair. -/
theorem stable_own (P : List StateCommit → Prop) :
    (casDiscipline triple first).Stable caller fun s => P (s.own caller) := by
  intro j hj s s' _ hP hmay
  rwa [hmay.1 caller (Ne.symm hj)]

end

/-! ### The queries -/

section
variable {triple : String × String × String} {first : Option Int} {caller : Nat} {s : ContinuityStates}

/-- A create on a table without a row of the triple. -/
theorem perform_create {recordId : String}
    (hinv : (casDiscipline triple first).inv s) (hrow : row.triple = triple) (hown : s.own caller = []) :
    let o := ContinuityStates.perform caller (.create recordId row 1) s
    (casDiscipline triple first).inv o.1 ∧ MayCommit caller s o.1 ∧
      (o.2 = none ∨ ∃ r c, o.2 = some (some r) ∧ o.1.own caller = [c] ∧ c.found = none ∧
        c.version = 1) := by
  simp only [ContinuityStates.perform]
  split
  · exact ⟨hinv, mayCommit_refl s, .inl rfl⟩
  · rename_i hfree
    rw [Bool.or_eq_true, not_or, Option.not_isSome_iff_eq_none, Option.not_isSome_iff_eq_none] at hfree
    obtain ⟨hid, hnone⟩ := hfree
    rw [hrow] at hnone
    obtain ⟨hone, hversion⟩ := ContinuityStates.commit_oneRow caller recordId none 1 hinv.1 hrow
      (.inr hnone)
    refine ⟨⟨hone, ?_⟩, mayCommit_commit fun old hold => ?_, .inr ⟨_, ⟨caller, none, 1⟩, rfl, ?_, rfl,
      rfl⟩⟩
    · refine ⟨hversion, rfl, ?_⟩
      have hv : s.version? triple = none := by
        unfold ContinuityStates.version?
        rw [hnone]
        rfl
      rw [← hv]
      exact hinv.2
    · rw [hid] at hold
      cases hold
    · rw [own_commit, if_pos rfl, hown]

/-- An update of the row of the triple. -/
theorem perform_update {recordId : String} {row old : ContinuityStateRow} {expected : Int}
    (hinv : (casDiscipline triple first).inv s) (hrow : row.triple = triple) (hown : s.own caller = [])
    (hold : s.rows.get? recordId = some old) (holdTriple : old.triple = triple) :
    let o := ContinuityStates.perform caller (.update recordId expected row (expected + 1)) s
    (casDiscipline triple first).inv o.1 ∧ MayCommit caller s o.1 ∧
      ((o.2 = some none ∧ o.1.own caller = []) ∨
        ∃ r c, o.2 = some (some r) ∧ o.1.own caller = [c] ∧ c.found.getD 0 = expected ∧
          c.version = expected + 1) := by
  simp only [ContinuityStates.perform, hold]
  split
  · rename_i hversion
    have hfound : old.version.getD 0 = expected := by
      rcases hversion with h | ⟨h, rfl⟩ <;> rw [h] <;> rfl
    obtain ⟨hone, hnew⟩ := ContinuityStates.commit_oneRow caller recordId
      (some (old.version.getD 0)) (expected + 1) hinv.1 hrow (.inl ⟨old, hold, holdTriple⟩)
    refine ⟨⟨hone, ?_⟩, mayCommit_commit fun old' hold' => ?_,
      .inr ⟨_, ⟨caller, some (old.version.getD 0), expected + 1⟩, rfl, ?_, hfound, rfl⟩⟩
    · refine ⟨hnew, by rw [← hfound]; rfl, ?_⟩
      have hv : s.version? triple = some (old.version.getD 0) := by
        unfold ContinuityStates.version?
        rw [ContinuityStates.findRow_of_get hinv.1 hold holdTriple]
        rfl
      rw [← hv]
      exact hinv.2
    · rw [hold] at hold'
      rw [← Option.some.inj hold', holdTriple, hrow]
    · rw [own_commit, if_pos rfl, hown]
  · exact ⟨hinv, mayCommit_refl s, .inl ⟨rfl, hown⟩⟩

end

/-! ### The call -/

section
variable {triple : String × String × String} {first : Option Int} {caller : Nat}
  {h : Heard StateQuery StateQuery.Reply} {P : ContinuityStates → Prop}

/-- A read leaves the table, and what is known of it. -/
theorem keeps_find {t : String × String × String}
    {P' : Option (Option (String × Int)) → ContinuityStates → Prop}
    (hread : ∀ s, (casDiscipline triple first).inv s → P s → ReReadFair caller h (.find t) .done s →
      P' (some ((s.findRow t).map fun e => (e.1, e.2.version.getD 0))) s)
    (hnone : ∀ s, P s → P' none s) :
    (casDiscipline triple first).Keeps caller (.find t) h P P' := by
  refine Discipline.keeps_of_perform mayCommit_refl (fun fate s _ hinv hP hguard => ?_)
    fun s _ hP => hnone s hP
  refine ⟨hinv, mayCommit_refl s, ?_, hnone s hP⟩
  rintro rfl
  exact hread s hinv hP hguard

variable {expected : Nat → Int}

/-- The re-read of a call that has lost. -/
theorem safe_reportVersionMismatchFromReRead
    (userId workspaceIdRaw projectKey : String) (version : Int) (recordId : String) :
    (casDiscipline triple first).Safe (CasDone expected) caller
      (reportVersionMismatchFromReRead userId workspaceIdRaw projectKey version recordId) h
      fun s => s.own caller = [] := by
  refine Discipline.Safe.query (fun _ s => s.own caller = []) (fun _ => stable_own (· = [])) ?_ ?_
  · exact keeps_find (fun _ _ hown _ => hown) fun _ hown => hown
  · exact fun _ _ _ hown => hown

variable {userId workspaceId projectKey recordId : String}

/-- The first write, on a table without a row. -/
theorem safe_createContinuityRow
    {record : CasResult} (hrow : row.triple = triple) (hexpected : expected caller = 0)
    (hrecord : ∃ id write validAt updatedAt, record = .record id write 1 validAt updatedAt) :
    (casDiscipline triple first).Safe (CasDone expected) caller
      (createContinuityRow userId workspaceId projectKey recordId row 1 record) h
      fun s => s.own caller = [] := by
  refine Discipline.Safe.attempt
    (fun r s => ∀ a, r = some a →
      a.isSome = true ∧ ∃ c, s.own caller = [c] ∧ c.found = none ∧ c.version = 1) ?_ ?_ ?_
  · intro r
    exact stable_own fun cs => ∀ a, r = some a →
      a.isSome = true ∧ ∃ c, cs = [c] ∧ c.found = none ∧ c.version = 1
  · refine Discipline.keeps_of_perform mayCommit_refl (fun fate s _ hinv hown _ => ?_)
      fun s _ _ a ha => nomatch ha
    obtain ⟨hinv', hmay, hreply⟩ := perform_create  hinv hrow hown
    refine ⟨hinv', hmay, fun _ a ha => ?_, fun a ha => nomatch ha⟩
    rcases hreply with hnone | ⟨r, c, hr, hc⟩
    · exact nomatch hnone.symm.trans ha
    · rw [← Option.some.inj (hr.symm.trans ha)]
      exact ⟨rfl, c, hc⟩
  · intro r
    match r with
    | none =>
        -- nothing was heard of the create: an answered re-read finds it not committed
        refine Discipline.Safe.attempt (fun r s => r.isSome = true → s.own caller = []) ?_ ?_ ?_
        · intro r
          exact stable_own fun cs => r.isSome = true → cs = []
        · exact keeps_find (fun s _ _ hguard _ => hguard rfl rfl) fun _ _ h => nomatch h
        · intro r
          match r with
          | none => trivial
          | some none => trivial
          | some (some raced) => exact fun s _ hP => hP rfl
    | some none =>
        exact Discipline.Safe.unreached.mono fun s hP => Bool.false_ne_true (hP none rfl).1
    | some (some a) =>
        obtain ⟨id, write, validAt, updatedAt, rfl⟩ := hrecord
        intro s _ hP
        obtain ⟨_, c, hc, hfound, hversion⟩ := hP _ rfl
        refine ⟨by rw [hexpected]; rfl, c, hc, by rw [hfound, hexpected]; rfl, hversion⟩

/-- A later write, on the row that was found. -/
theorem safe_updateContinuityRow
    {record : CasResult} (hrow : row.triple = triple) (hrecord : ∃ id write validAt updatedAt,
      record = .record id write (expected caller + 1) validAt updatedAt) :
    (casDiscipline triple first).Safe (CasDone expected) caller
      (updateContinuityRow userId workspaceId projectKey recordId row (expected caller)
        (expected caller + 1) record) h
      fun s => s.own caller = [] ∧ ∃ old, s.rows.get? recordId = some old ∧ old.triple = triple := by
  refine Discipline.Safe.query
    (fun r s => (r = some none → s.own caller = []) ∧ ∀ a, r = some (some a) →
      ∃ c, s.own caller = [c] ∧ c.found.getD 0 = expected caller ∧
        c.version = expected caller + 1) ?_ ?_ ?_
  · intro r
    exact stable_own fun cs => (r = some none → cs = []) ∧ ∀ a, r = some (some a) →
      ∃ c, cs = [c] ∧ c.found.getD 0 = expected caller ∧ c.version = expected caller + 1
  · refine Discipline.keeps_of_perform mayCommit_refl (fun fate s _ hinv hP _ => ?_)
      fun s _ _ => ⟨fun hr => (nomatch hr), fun a ha => nomatch ha⟩
    obtain ⟨hown, old, hold, holdTriple⟩ := hP
    obtain ⟨hinv', hmay, hreply⟩ :=
      perform_update  hinv hrow hown hold holdTriple
    refine ⟨hinv', hmay, fun _ => ⟨fun hr => ?_, fun a ha => ?_⟩,
      ⟨fun hr => (nomatch hr), fun a ha => nomatch ha⟩⟩
    · rcases hreply with ⟨_, hown'⟩ | ⟨_, c, hr', _⟩
      · exact hown'
      · exact nomatch Option.some.inj (hr'.symm.trans hr)
    · rcases hreply with ⟨hr', _⟩ | ⟨_, c, _, hc⟩
      · exact nomatch Option.some.inj (hr'.symm.trans ha)
      · exact ⟨c, hc⟩
  · intro r
    match r with
    | none =>
        exact (safe_reportVersionMismatchFromReRead userId workspaceId projectKey
          (expected caller) recordId).mono fun s hP => hP.1 rfl
    | some a =>
        obtain ⟨id, write, validAt, updatedAt, rfl⟩ := hrecord
        exact fun s _ hP => ⟨rfl, hP.2 a rfl⟩

theorem safe_cas (fingerprint : String → String) (now : String)
    (write : ProjectContinuityStateWrite) (expected : Nat → Int)
    (htriple : (write.userId, canonicalizeWorkspaceId (some write.workspaceId), write.projectKey) =
      triple) :
    (casDiscipline triple first).Safe (CasDone expected) caller
      (compareAndSwapProjectContinuityState fingerprint now write (expected caller)) []
      fun s => s.own caller = [] := by
  have hrow : ∀ validAt updatedAt, (write.row (canonicalizeWorkspaceId (some write.workspaceId))
      validAt updatedAt).triple = triple := fun _ _ => htriple
  unfold compareAndSwapProjectContinuityState findExistingContinuityVersionedRow
  -- what the first read tells: nothing has been committed, and a row that was found is there
  refine Discipline.Safe.query
    (fun r s => s.own caller = [] ∧ ∀ id v, r = some (some (id, v)) →
      ∃ row, s.rows.get? id = some row ∧ row.triple = triple) ?_ ?_ ?_
  · rintro r j hj s s' _ ⟨hown, hfound⟩ hmay
    refine ⟨(hmay.1 caller (Ne.symm hj)).trans hown, fun id v hr => ?_⟩
    obtain ⟨row, hget, htriple'⟩ := hfound id v hr
    obtain ⟨row', hget', hrow'⟩ := hmay.2 id row hget
    exact ⟨row', hget', hrow'.trans htriple'⟩
  · refine keeps_find (fun s _ hown _ => ⟨hown, fun id v hr => ?_⟩) fun s hown =>
      ⟨hown, fun _ _ h => nomatch h⟩
    obtain ⟨⟨id', row⟩, hfind, heq⟩ := Option.map_eq_some_iff.mp (Option.some.inj hr)
    obtain ⟨hget, htriple'⟩ := ContinuityStates.findRow_some hfind
    obtain ⟨rfl, _⟩ := Prod.mk.inj heq
    refine ⟨row, hget, htriple'.trans ?_⟩
    rw [canonicalizeWorkspaceId_again]
    exact htriple
  · intro current
    dsimp only
    split
    · exact fun s _ hP => hP.1
    · rename_i hversion
      rw [not_not] at hversion
      cases current with
      | none =>
          exact (safe_createContinuityRow (hrow _ _) hversion.symm ⟨_, _, _, _, rfl⟩).mono
            fun s hP => hP.1
      | some found =>
          obtain ⟨id, v⟩ := found
          obtain rfl : v = expected caller := hversion
          exact (safe_updateContinuityRow (hrow _ _) ⟨_, _, _, _, rfl⟩).mono
            fun s hP => ⟨hP.1, hP.2 id _ rfl⟩

end

def emptyStates : ContinuityStates := ⟨OrdMap.empty, []⟩

def oneWrite : ProjectContinuityStateWrite where
  userId := "ann"
  workspaceId := "w"
  projectKey := "k"
  confidence := 0

/-- Calls that all make the first write. -/
def firstWrites (_ : Nat) : StateRoutine CasResult :=
  compareAndSwapProjectContinuityState (fun v => v) "now" oneWrite 0

end Runir
