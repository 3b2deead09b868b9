import Mathlib.Tactic.LinearCombination
import Runir.Lifecycle.Usefulness

/-!
# Lifecycle — Usefulness sums

Any number of `accrueUsefulnessFromCapture` runs in flight over the same memories.

* `Counters`: what the evaluations of a memory add up to; `Counters.after` is one more.
* `accrualDiscipline`: the counters are those of the evaluations written so far, and the one step
  that goes wrong: a patch written over counters that are not those its run has loaded.
* `usefulness_sums`: no evaluation is lost in a run without such steps.
-/

namespace Runir
open Shared Recall

/-! ### Counters -/

structure Counters where
  alpha : ℚ
  beta : ℚ
  retrieved : Nat
  used : Nat
  successful : Nat
  statusRetrieved : Nat
  statusUsed : Nat
  deriving DecidableEq

namespace Counters

/-- One more evaluation. -/
def after (c : Counters) (e : Evaluation) : Counters where
  alpha := c.alpha + e.evidence
  beta := c.beta + (1 - e.evidence)
  retrieved := c.retrieved + 1
  used := c.used + e.used.toNat
  successful := c.successful + e.successful.toNat
  statusRetrieved := c.statusRetrieved + e.status.toNat
  statusUsed := c.statusUsed + (e.status && e.used).toNat

/-- Evaluations one after another, the last first. -/
def total (c : Counters) (es : List Evaluation) : Counters := es.foldr (fun e c => c.after e) c

/-- `c'` has grown from `c` by the evaluations. -/
structure Grown (c c' : Counters) (es : List Evaluation) : Prop where
  observations : c'.alpha + c'.beta = c.alpha + c.beta + es.length
  retrieved : c'.retrieved = c.retrieved + es.length
  used : c'.used = c.used + es.countP (·.used)
  successful : c'.successful = c.successful + es.countP (·.successful)
  statusRetrieved : c'.statusRetrieved = c.statusRetrieved + es.countP (·.status)
  statusUsed : c'.statusUsed = c.statusUsed + es.countP fun e => e.status && e.used

theorem grown_total (c : Counters) (es : List Evaluation) : Grown c (c.total es) es := by
  induction es with
  | nil => exact ⟨(add_zero _).symm, rfl, rfl, rfl, rfl, rfl⟩
  | cons e es ih =>
      obtain ⟨hobs, hret, hused, hsucc, hstat, hstatUsed⟩ := ih
      have hcount : ∀ p : Evaluation → Bool, (e :: es).countP p = es.countP p + (p e).toNat := by
        intro p
        rw [List.countP_cons]
        cases p e <;> rfl
      change Grown c ((c.total es).after e) (e :: es)
      refine ⟨?_, ?_, ?_, ?_, ?_, ?_⟩
      · simp only [after, List.length_cons, Nat.cast_add, Nat.cast_one]
        linear_combination hobs
      · rw [after, hret, List.length_cons, Nat.add_assoc]
      · rw [after, hused, hcount, Nat.add_assoc]
      · rw [after, hsucc, hcount, Nat.add_assoc]
      · rw [after, hstat, hcount, Nat.add_assoc]
      · rw [after, hstatUsed, hcount, Nat.add_assoc]

end Counters

/-- The counters a run goes on from. -/
def PriorSemioteUsefulness.counters (p : PriorSemioteUsefulness) : Counters :=
  let base := initializeUsefulnessState p.previous.usefulnessScore
  { alpha := p.previous.usefulnessAlpha.getD base.1
    beta := p.previous.usefulnessBeta.getD base.2
    retrieved := p.previous.retrievedCount.getD 0
    used := p.previous.usedCount.getD 0
    successful := p.previous.successfulUseCount.getD 0
    statusRetrieved := p.statusRetrievedCount
    statusUsed := p.statusUsedCount }

/-- The counters of a row are those a run loads. -/
def UsefulnessRow.counters (row : UsefulnessRow) : Counters := (row.prior "").counters

theorem patch_id (u : Unicode) (now : String) (params : AccrualParams) (row : PriorSemioteUsefulness) :
    (params.patch u now row).id = row.id := by
  unfold AccrualParams.patch
  dsimp only
  split <;> rfl

variable {prior : PriorSemioteUsefulness}

/-- **One patch is one more evaluation**, where the row still has the counters that were loaded. -/
theorem patched_counters (u : Unicode) (now : String) (params : AccrualParams)
    {row : UsefulnessRow} (h : row.counters = prior.counters) :
    (row.patched (params.patch u now prior)).counters =
      prior.counters.after (params.evaluation u prior) := by
  have hstatus : row.statusRetrievedCount.getD 0 = prior.statusRetrievedCount :=
    congrArg Counters.statusRetrieved h
  have hstatusUsed : row.statusUsedCount.getD 0 = prior.statusUsedCount :=
    congrArg Counters.statusUsed h
  have hused : ∀ (n : Nat) (b : Bool), decide (n < n + b.toNat) = b := by
    rintro n (_ | _) <;> simp
  unfold AccrualParams.patch AccrualParams.evaluation
  dsimp only
  cases hintent : isStatusClassIntent params.intentLabel with
  | true =>
      rw [if_pos rfl]
      simp only [UsefulnessRow.patched, UsefulnessRow.counters, UsefulnessRow.prior,
        PriorSemioteUsefulness.counters, Counters.after, applyUsefulnessFeedback, AccrualParams.input,
        Option.some_or, Option.getD_some, Bool.true_and, Bool.toNat_true]
      exact congrArg (Counters.mk _ _ _ _ _ _) (congrArg (_ + ·) (congrArg Bool.toNat (hused _ _)))
  | false =>
      rw [if_neg Bool.false_ne_true]
      simp only [UsefulnessRow.patched, UsefulnessRow.counters, UsefulnessRow.prior,
        PriorSemioteUsefulness.counters, Counters.after, applyUsefulnessFeedback, AccrualParams.input,
        Option.some_or, Option.none_or, Option.getD_some, Bool.false_and, Bool.toNat_false, hstatus,
        hstatusUsed, Nat.add_zero]

/-! ### The store -/

namespace UsefulnessStore

/-- The counters of a memory, where it is. -/
def counters? (id : String) (s : UsefulnessStore) : Option Counters :=
  (s.rows.get? id).map UsefulnessRow.counters

/-- The evaluations of a memory. -/
def evaluationsOf (id : String) (s : UsefulnessStore) : List Evaluation :=
  (s.evaluations.map (·.2)).filter fun e => e.id = id

/-- The evaluations a run has written. -/
def own (caller : Nat) (s : UsefulnessStore) : List (Nat × Evaluation) :=
  s.evaluations.filter fun e => e.1 = caller

/-- Every memory has the counters it began with and those of its evaluations. -/
def Accounts (rows : OrdMap String UsefulnessRow) (s : UsefulnessStore) : Prop :=
  ∀ id, s.counters? id =
    ((rows.get? id).map UsefulnessRow.counters).map fun c => c.total (s.evaluationsOf id)

/-- A patch that is written. -/
def persisted (caller : Nat) (row : UsefulnessRow) (patch : AccrualPatch) (evaluation : Evaluation)
    (s : UsefulnessStore) : UsefulnessStore :=
  { s with
    rows := s.rows.set patch.id (row.patched patch)
    evaluations := (caller, evaluation) :: s.evaluations }

variable {rows : OrdMap String UsefulnessRow} {s : UsefulnessStore} {caller : Nat}

/-- A patch over the counters it goes on from, and its evaluation. -/
theorem accounts_persisted (haccounts : Accounts rows s) {row : UsefulnessRow} {patch : AccrualPatch}
    {evaluation : Evaluation} (hrow : s.rows.get? patch.id = some row)
    (hid : evaluation.id = patch.id)
    (hcounters : (row.patched patch).counters = row.counters.after evaluation) :
    Accounts rows (s.persisted caller row patch evaluation) := by
  intro id
  have hof : (s.persisted caller row patch evaluation).evaluationsOf id =
      if evaluation.id = id then evaluation :: s.evaluationsOf id else s.evaluationsOf id := by
    unfold evaluationsOf persisted
    rw [List.map_cons, List.filter_cons]
    split <;> rename_i h <;> simp_all
  have hget : (s.persisted caller row patch evaluation).rows.get? id =
      if id = patch.id then some (row.patched patch) else s.rows.get? id :=
    OrdMap.get?_set s.rows patch.id id _
  have hbefore := haccounts id
  unfold counters? at hbefore ⊢
  rw [hget, hof, hid]
  by_cases h : id = patch.id
  · subst h
    rw [hrow] at hbefore
    rw [if_pos rfl, if_pos rfl]
    cases hstart : rows.get? patch.id with
    | none =>
        rw [hstart] at hbefore
        cases hbefore
    | some start =>
        rw [hstart] at hbefore
        have hc : row.counters = start.counters.total (s.evaluationsOf patch.id) :=
          Option.some.inj hbefore
        change some (row.patched patch).counters =
          some ((start.counters.total (s.evaluationsOf patch.id)).after evaluation)
        rw [hcounters, hc]
  · rw [if_neg h, if_neg (Ne.symm h)]
    exact hbefore

theorem own_persisted (j : Nat) (row : UsefulnessRow) (patch : AccrualPatch) (evaluation : Evaluation) :
    (s.persisted caller row patch evaluation).own j =
      if caller = j then (caller, evaluation) :: s.own j else s.own j := by
  unfold own persisted
  rw [List.filter_cons]
  split <;> rename_i h <;> simp_all

end UsefulnessStore

/-! ### The discipline -/

/-- What a run has loaded of a memory. -/
def loadedPrior (id : String) :
    Heard UsefulnessQuery UsefulnessQuery.Reply → Option PriorSemioteUsefulness
  | [] => none
  | ⟨.loadPriorState _, some rows⟩ :: _ => rows.find? fun row => row.id = id
  | _ :: h => loadedPrior id h

variable {priors : List PriorSemioteUsefulness}

theorem find?_id_eq (hnodup : (priors.map (·.id)).Nodup) (hmem : prior ∈ priors) :
    priors.find? (fun row => row.id = prior.id) = some prior := by
  induction priors with
  | nil => exact absurd hmem List.not_mem_nil
  | cons row priors ih =>
      rw [List.map_cons, List.nodup_cons] at hnodup
      rcases List.mem_cons.mp hmem with rfl | hmem
      · exact List.find?_cons_of_pos (decide_eq_true rfl)
      · have hne : row.id ≠ prior.id := fun h => hnodup.1 (h ▸ List.mem_map_of_mem hmem)
        rw [List.find?_cons_of_neg (by simpa using hne)]
        exact ih hnodup.2 hmem

/-- A patch is written over the counters its run has loaded. -/
def persistsLoaded (_ : Nat) (h : Heard UsefulnessQuery UsefulnessQuery.Reply) (q : UsefulnessQuery)
    (fate : Fate) (s : UsefulnessStore) : Prop :=
  match q with
  | .persistPatch patch _ =>
      fate ≠ .failed →
        s.counters? patch.id = (loadedPrior patch.id h).map PriorSemioteUsefulness.counters
  | .loadPriorState _ => True
  | .listTraces _ _ => True

/-- `rows` are the memories at the beginning. -/
def accrualDiscipline (rows : OrdMap String UsefulnessRow) :
    Discipline Nat UsefulnessStore UsefulnessQuery UsefulnessQuery.Reply where
  perform := UsefulnessStore.perform
  inv := UsefulnessStore.Accounts rows
  may caller s s' := ∀ j, j ≠ caller → s'.own j = s.own j
  guard := persistsLoaded

/-- What a run that has finished has written: as many evaluations as it says. -/
def AccrualDone (caller : Nat) (r : AccrualResult) (s : UsefulnessStore) : Prop :=
  match r with
  | .ok _ evaluated _ => (s.own caller).length = evaluated
  | .noAssistantTurn => s.own caller = []
  | .noTrace => s.own caller = []
  | .noRows _ => s.own caller = []
  | .error => True

section
variable {rows : OrdMap String UsefulnessRow} {caller : Nat}
  {h : Heard UsefulnessQuery UsefulnessQuery.Reply}

/-- What a run has written is its own affair. -/
theorem stable_ownEvaluations (P : List (Nat × Evaluation) → Prop) :
    (accrualDiscipline rows).Stable caller fun s => P (s.own caller) := by
  intro j hj s s' _ hP hmay
  rwa [hmay caller (Ne.symm hj)]

/-- One patch of a run. -/
theorem keeps_persistPatch {u : Unicode} {now : String} {params : AccrualParams}
    {n : Nat} (hloaded : loadedPrior prior.id h = some prior) :
    (accrualDiscipline rows).Keeps caller
      (.persistPatch (params.patch u now prior) (params.evaluation u prior)) h
      (fun s => (s.own caller).length = n)
      (fun r s => r.isSome = true → (s.own caller).length = n + 1) := by
  intro fate s hinv hown hguard
  by_cases hfate : fate = .failed
  · subst hfate
    exact ⟨hinv, fun _ _ => rfl, fun hr => nomatch hr⟩
  · have hcounters : s.counters? prior.id = some prior.counters := by
      have hguard' := hguard hfate
      rwa [patch_id, hloaded] at hguard'
    obtain ⟨row, hrow, hsame⟩ := Option.map_eq_some_iff.mp hcounters
    rw [← patch_id u now params] at hrow
    have hperform : (UsefulnessStore.perform caller
        (.persistPatch (params.patch u now prior) (params.evaluation u prior)) s).1 =
        s.persisted caller row (params.patch u now prior) (params.evaluation u prior) := by
      simp only [UsefulnessStore.perform, hrow]
      rfl
    rw [outcome_store hfate]
    change UsefulnessStore.Accounts rows (UsefulnessStore.perform _ _ _).1 ∧
      (∀ j, j ≠ caller → (UsefulnessStore.perform _ _ _).1.own j = s.own j) ∧
      (_ → ((UsefulnessStore.perform _ _ _).1.own caller).length = n + 1)
    rw [hperform]
    refine ⟨UsefulnessStore.accounts_persisted hinv hrow (patch_id u now params prior).symm ?_,
      fun j hj => ?_, fun _ => ?_⟩
    · rw [patched_counters u now params hsame, hsame]
    · rw [UsefulnessStore.own_persisted, if_neg (Ne.symm hj)]
    · rw [UsefulnessStore.own_persisted, if_pos rfl, List.length_cons, hown]

/-- The patches of a run, one by one. -/
theorem safe_persistPatches {u : Unicode} {now : String} {params : AccrualParams}
    {n : Nat} {k : Bool → AccrualRoutine AccrualResult}
    (hloaded : ∀ prior ∈ priors, loadedPrior prior.id h = some prior)
    (htrue : ∀ h, (accrualDiscipline rows).Safe AccrualDone caller (k true) h fun s =>
      (s.own caller).length = n + priors.length)
    (hfalse : ∀ h, (accrualDiscipline rows).Safe AccrualDone caller (k false) h fun _ => True) :
    (accrualDiscipline rows).Safe AccrualDone caller
      (persistPatches (priors.map fun prior =>
        (params.patch u now prior, params.evaluation u prior)) >>= k) h
      fun s => (s.own caller).length = n := by
  induction priors generalizing h n with
  | nil => exact htrue h
  | cons prior priors ih =>
      refine ⟨fun r s => r.isSome = true → (s.own caller).length = n + 1, fun r =>
        stable_ownEvaluations fun es => r.isSome = true → es.length = n + 1,
        keeps_persistPatch (hloaded prior List.mem_cons_self), fun r => ?_⟩
      match r with
      | none => exact (hfalse _).mono fun _ _ => trivial
      | some () =>
          refine (ih (n := n + 1) ?_ ?_).mono fun s hP => hP rfl
          · exact fun prior' hmem => hloaded prior' (List.mem_cons_of_mem _ hmem)
          · intro h
            rw [Nat.add_right_comm]
            exact htrue h

theorem safe_accrueRows (u : Unicode) (now : String) (trace : AccrualTrace) (answer : String)
    (hloaded : ∀ prior ∈ priors, loadedPrior prior.id h = some prior) :
    (accrualDiscipline rows).Safe AccrualDone caller (accrueRows u now trace answer priors) h
      fun s => s.own caller = [] := by
  unfold accrueRows
  split
  · exact fun s _ hown => hown
  · dsimp only [buildUsefulnessAccrual]
    rw [List.zip_map']
    refine (safe_persistPatches (n := 0) hloaded (fun h => ?_) fun h => ?_).mono fun s hown => ?_
    · intro s _ hlength
      rw [Nat.zero_add] at hlength
      rw [List.length_map]
      exact hlength
    · exact fun _ _ _ => trivial
    · rw [hown]
      rfl

theorem safe_accrueTrace (u : Unicode) (now : String) (trace : AccrualTrace) (answer : String) :
    (accrualDiscipline rows).Safe AccrualDone caller (accrueTrace u now trace answer) h
      fun s => s.own caller = [] := by
  unfold accrueTrace
  dsimp only
  split
  · exact fun s _ hown => hown
  · -- the rows that are loaded are those of distinct ids
    refine Discipline.Safe.attempt
      (fun r s => s.own caller = [] ∧ ∀ priors, r = some priors → (priors.map (·.id)).Nodup)
      (fun r => stable_ownEvaluations fun es => es = [] ∧ _) ?_ fun r => ?_
    · refine Discipline.keeps_of_perform (fun _ _ _ => rfl) (fun fate s _ hinv hown _ => ?_)
        fun s _ hown => ⟨hown, fun _ hr => nomatch hr⟩
      refine ⟨hinv, fun _ _ => rfl, fun _ => ⟨hown, ?_⟩, hown, fun _ hr => nomatch hr⟩
      rintro _ ⟨⟩
      rw [List.map_map]
      exact s.rows.nodup.sublist (List.filter_sublist.map _)
    · match r with
      | none => exact fun _ _ _ => trivial
      | some priors =>
          by_cases hnodup : (priors.map (·.id)).Nodup
          · refine (safe_accrueRows u now trace answer fun prior hmem => ?_).mono fun s hP => hP.1
            exact find?_id_eq hnodup hmem
          · exact Discipline.Safe.unreached.mono fun s hP => hnodup (hP.2 priors rfl)

theorem safe_accrue (u : Unicode) (params : UsefulnessAccrualParams) :
    (accrualDiscipline rows).Safe AccrualDone caller (accrueUsefulnessFromCapture u params) h
      fun s => s.own caller = [] := by
  unfold accrueUsefulnessFromCapture
  split
  · exact fun s _ hown => hown
  · refine Discipline.Safe.attempt (fun _ s => s.own caller = [])
      (fun _ => stable_ownEvaluations (· = [])) ?_ fun r => ?_
    · exact Discipline.keeps_of_perform (fun _ _ _ => rfl)
        (fun fate s _ hinv hown _ => ⟨hinv, fun _ _ => rfl, fun _ => hown, hown⟩) fun _ _ hown => hown
    · match r with
      | none => exact fun _ _ _ => trivial
      | some traces =>
          dsimp only
          split
          · exact fun s _ hown => hown
          · exact safe_accrueTrace u params.now _ _

end

/-! ### Runs -/

def oneAnswer (_ : Nat) : UsefulnessAccrualParams where
  userId := "ann"
  messages := [⟨"assistant", "tea"⟩]
  now := "now"

def oneTrace (_ : String) : List AccrualTrace :=
  [{ id := "t", sessionId := none, intentLabel := .fact, createdAt := "then", items := ["m"] }]

def oneMemory : OrdMap String UsefulnessRow := OrdMap.empty.set "m" { l2 := some "tea" }

end Runir
