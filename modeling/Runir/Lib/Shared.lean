import Runir.Lib.Runs

/-!
# Library — Shared stores

Routines in flight on one store.  A routine is a program whose only effects are queries, each of
which is one step on the store; between two queries of a routine, others take theirs.  A query may
fail, before or after it has taken effect, and the routine then hears nothing.

* `Routine`: programs of queries, a monad with `attempt` and `query`.
* `World`, `step`: the store and where each routine stands; one query of one of them.
* `Routine.Asks`, `Routine.AsksThen`: what a routine asks, in terms of what it has heard.
* `Discipline`: an invariant of the store, what a step of each routine may do to it, and a guard on
  the steps.  `Safe`: a routine keeps the discipline whatever the others do within theirs.
* `Discipline.Sound`, `Discipline.sound`: when every routine is safe, then in every guarded run the
  invariant holds, every step is one its routine may take, and a routine that has returned has its
  postcondition.
-/

namespace Runir.Shared

/-- A routine returns, raises, or asks a query and goes on with the reply, `none` where the query
raised. -/
inductive Routine (Q : Type) (ρ : Q → Type) (α : Type) where
  | ret (a : α)
  | raise
  | ask (q : Q) (k : Option (ρ q) → Routine Q ρ α)

namespace Routine
variable {Q : Type} {ρ : Q → Type} {α β : Type}

def bind : Routine Q ρ α → (α → Routine Q ρ β) → Routine Q ρ β
  | .ret a, f => f a
  | .raise, _ => .raise
  | .ask q k, f => .ask q fun r => (k r).bind f

instance : Monad (Routine Q ρ) where
  pure := .ret
  bind := bind

/-- A query whose error is caught. -/
def attempt (q : Q) : Routine Q ρ (Option (ρ q)) := .ask q .ret

/-- A query whose error is raised. -/
def query (q : Q) : Routine Q ρ (ρ q) :=
  .ask q fun
    | some a => .ret a
    | none => .raise

end Routine

/-- What becomes of a query: it is performed, its reply is lost, or it is not performed. -/
inductive Fate where
  | done | lost | failed
  deriving DecidableEq

/-- What a routine has heard: its queries and their replies, the last first. -/
abbrev Heard (Q : Type) (ρ : Q → Type) := List ((q : Q) × Option (ρ q))

/-- The store, where each routine stands, and what it has heard. -/
structure World (ι σ Q : Type) (ρ : Q → Type) (α : Type) where
  store : σ
  routine : ι → Routine Q ρ α
  heard : ι → Heard Q ρ

variable {ι σ Q : Type} {ρ : Q → Type} {α : Type}

/-- A query on the store: what it leaves, and what is heard of it.  `perform` may refuse a query,
with the reply `none`. -/
def outcome (perform : ι → (q : Q) → σ → σ × Option (ρ q)) (i : ι) (q : Q) (fate : Fate) (s : σ) :
    σ × Option (ρ q) :=
  match fate with
  | .done => perform i q s
  | .lost => ((perform i q s).1, none)
  | .failed => (s, none)

variable {perform : ι → (q : Q) → σ → σ × Option (ρ q)}

theorem outcome_store {i : ι} {q : Q} {fate : Fate}
    {s : σ} (h : fate ≠ .failed) : (outcome perform i q fate s).1 = (perform i q s).1 := by
  cases fate with
  | done => rfl
  | lost => rfl
  | failed => exact absurd rfl h

/-- One query of one routine. -/
def step [DecidableEq ι] (perform : ι → (q : Q) → σ → σ × Option (ρ q)) (w : World ι σ Q ρ α)
    (a : ι × Fate) : Option (World ι σ Q ρ α) :=
  match w.routine a.1 with
  | .ret _ => none
  | .raise => none
  | .ask q k =>
      let o := outcome perform a.1 q a.2 w.store
      some
        { store := o.1
          routine := Function.update w.routine a.1 (k o.2)
          heard := Function.update w.heard a.1 (⟨q, o.2⟩ :: w.heard a.1) }

/-- Every routine at its beginning. -/
def start (s : σ) (routine : ι → Routine Q ρ α) : World ι σ Q ρ α := ⟨s, routine, fun _ => []⟩

variable {w w' : World ι σ Q ρ α} {a : ι × Fate}

/-- What a step is: a query, and what becomes of it. -/
theorem step_cases [DecidableEq ι] (h : step perform w a = some w') :
    ∃ q k, w.routine a.1 = .ask q k ∧ w'.store = (outcome perform a.1 q a.2 w.store).1 ∧
      w'.routine = Function.update w.routine a.1 (k (outcome perform a.1 q a.2 w.store).2) ∧
      w'.heard = Function.update w.heard a.1
        (⟨q, (outcome perform a.1 q a.2 w.store).2⟩ :: w.heard a.1) := by
  unfold step at h
  cases hroutine : w.routine a.1 with
  | ret b => rw [hroutine] at h; exact nomatch h
  | raise => rw [hroutine] at h; exact nomatch h
  | ask q k =>
      rw [hroutine] at h
      obtain rfl := Option.some.inj h
      exact ⟨q, k, rfl, rfl, rfl, rfl⟩

variable {w : World ι σ Q ρ α}

/-- What a step leaves on the store. -/
theorem forall_step_iff [DecidableEq ι] {q : Q} {k : Option (ρ q) → Routine Q ρ α}
    (h : w.routine a.1 = .ask q k) (P : σ → Prop) :
    (∀ w', step perform w a = some w' → P w'.store) ↔ P (outcome perform a.1 q a.2 w.store).1 := by
  unfold step
  rw [h]
  constructor
  · exact fun hP => hP _ rfl
  · rintro hP w' ⟨⟩
    exact hP

/-! ### What is asked -/

/-- Every query the routine comes to ask stands in `R` to what it has heard by then. -/
def Routine.Asks (R : Heard Q ρ → Q → Prop) : Routine Q ρ α → Heard Q ρ → Prop
  | .ret _, _ => True
  | .raise, _ => True
  | .ask q k, h => R h q ∧ ∀ r, (k r).Asks R (⟨q, r⟩ :: h)

/-- As `Asks`, and what the routine returns stands in `P` to all that it has heard. -/
def Routine.AsksThen (R : Heard Q ρ → Q → Prop) (P : α → Heard Q ρ → Prop) :
    Routine Q ρ α → Heard Q ρ → Prop
  | .ret a, h => P a h
  | .raise, _ => True
  | .ask q k, h => R h q ∧ ∀ r, (k r).AsksThen R P (⟨q, r⟩ :: h)

section
variable {R : Heard Q ρ → Q → Prop} {P : α → Heard Q ρ → Prop} {c : Routine Q ρ α} {q : Q}
  {h : Heard Q ρ}

theorem Routine.AsksThen.asks (hc : c.AsksThen R P h) : c.Asks R h := by
  induction c generalizing h with
  | ret a => trivial
  | raise => trivial
  | ask q k ih => exact ⟨hc.1, fun r => ih r (hc.2 r)⟩

theorem Routine.AsksThen.bind {β : Type} {P' : β → Heard Q ρ → Prop} {f : α → Routine Q ρ β}
    (hc : c.AsksThen R P h) (hf : ∀ a h, P a h → (f a).AsksThen R P' h) :
    (c >>= f).AsksThen R P' h := by
  induction c generalizing h with
  | ret a => exact hf a h hc
  | raise => trivial
  | ask q k ih => exact ⟨hc.1, fun r => ih r (hc.2 r)⟩

theorem Routine.asksThen_query {P : ρ q → Heard Q ρ → Prop} (hq : R h q)
    (hP : ∀ a, P a (⟨q, some a⟩ :: h)) : (Routine.query q).AsksThen R P h := by
  refine ⟨hq, fun r => ?_⟩
  cases r with
  | none => trivial
  | some a => exact hP a

theorem Routine.asksThen_attempt {P : Option (ρ q) → Heard Q ρ → Prop} (hq : R h q)
    (hP : ∀ r, P r (⟨q, r⟩ :: h)) : (Routine.attempt q).AsksThen R P h := ⟨hq, hP⟩

end

theorem asks_step [DecidableEq ι] {R : ι → Heard Q ρ → Q → Prop}
    (h : ∀ i, (w.routine i).Asks (R i) (w.heard i)) (hstep : step perform w a = some w') :
    ∀ i, (w'.routine i).Asks (R i) (w'.heard i) := by
  obtain ⟨q, k, hroutine, -, hr, hh⟩ := step_cases hstep
  intro i
  rw [hr, hh]
  by_cases hi : i = a.1
  · subst hi
    have hasks := h a.1
    rw [hroutine] at hasks
    rw [Function.update_self, Function.update_self]
    exact hasks.2 _
  · rw [Function.update_of_ne hi, Function.update_of_ne hi]
    exact h i

/-! ### Disciplines -/

/-- An invariant of the store, what a step of a routine may do to it, and a guard on the steps,
which reads what the routine has heard. -/
structure Discipline (ι σ Q : Type) (ρ : Q → Type) where
  perform : ι → (q : Q) → σ → σ × Option (ρ q)
  inv : σ → Prop
  may : ι → σ → σ → Prop
  guard : ι → Heard Q ρ → Q → Fate → σ → Prop

namespace Discipline
variable (D : Discipline ι σ Q ρ)

/-- What the steps of the others cannot make false. -/
def Stable (i : ι) (P : σ → Prop) : Prop :=
  ∀ j, j ≠ i → ∀ s s', D.inv s → P s → D.may j s s' → P s'

variable (post : ι → α → σ → Prop)

/-- From a state in which `P` holds, the routine keeps the discipline, and has its postcondition
when it returns. -/
def Safe (i : ι) : Routine Q ρ α → Heard Q ρ → (σ → Prop) → Prop
  | .ret a, _, P => ∀ s, D.inv s → P s → post i a s
  | .raise, _, _ => True
  | .ask q k, h, P =>
      ∃ P' : Option (ρ q) → σ → Prop, (∀ r, D.Stable i (P' r)) ∧
        (∀ fate s, D.inv s → P s → D.guard i h q fate s →
          let o := outcome D.perform i q fate s
          D.inv o.1 ∧ D.may i s o.1 ∧ P' o.2 o.1) ∧
        ∀ r, Safe i (k r) (⟨q, r⟩ :: h) (P' r)

/-- What a query has to keep, from a state in which `P` holds: `P' r` then holds, where `r` is what
is heard of it. -/
def Keeps (i : ι) (q : Q) (h : Heard Q ρ) (P : σ → Prop) (P' : Option (ρ q) → σ → Prop) : Prop :=
  ∀ fate s, D.inv s → P s → D.guard i h q fate s →
    D.inv (outcome D.perform i q fate s).1 ∧ D.may i s (outcome D.perform i q fate s).1 ∧
      P' (outcome D.perform i q fate s).2 (outcome D.perform i q fate s).1

section
variable {D post} {i : ι} {q : Q} {h : Heard Q ρ} {P : σ → Prop} (P' : Option (ρ q) → σ → Prop)

theorem stable_true : D.Stable i fun _ => True := fun _ _ _ _ _ _ _ => trivial

theorem Stable.imp {p : Prop} (hP : p → D.Stable i P) : D.Stable i fun s => p → P s :=
  fun j hj s s' hinv hs hmay hp => hP hp j hj s s' hinv (hs hp) hmay

/-- A query that is performed, its reply heard or not, and one that is not performed. -/
theorem keeps_of_perform {P' : Option (ρ q) → σ → Prop} (hmay : ∀ s, D.may i s s)
    (hperform : ∀ fate s, fate ≠ .failed → D.inv s → P s → D.guard i h q fate s →
      D.inv (D.perform i q s).1 ∧ D.may i s (D.perform i q s).1 ∧
        (fate = .done → P' (D.perform i q s).2 (D.perform i q s).1) ∧
        P' none (D.perform i q s).1)
    (hfailed : ∀ s, D.inv s → P s → P' none s) : D.Keeps i q h P P' := by
  intro fate s hinv hP hguard
  by_cases hfate : fate = .failed
  · subst hfate
    exact ⟨hinv, hmay s, hfailed s hinv hP⟩
  · obtain ⟨hinv', hmay', hdone, hlost⟩ := hperform fate s hfate hinv hP hguard
    cases fate with
    | done => exact ⟨hinv', hmay', hdone rfl⟩
    | lost => exact ⟨hinv', hmay', hlost⟩
    | failed => exact absurd rfl hfate

/-- The rule for a query whose error is caught: what holds after it, which the others leave. -/
theorem Safe.attempt {f : Option (ρ q) → Routine Q ρ α} (hstable : ∀ r, D.Stable i (P' r))
    (hkeeps : D.Keeps i q h P P') (hrest : ∀ r, D.Safe post i (f r) (⟨q, r⟩ :: h) (P' r)) :
    D.Safe post i (Routine.attempt q >>= f) h P :=
  ⟨P', hstable, hkeeps, hrest⟩

/-- The rule for a query whose error is raised. -/
theorem Safe.query {f : ρ q → Routine Q ρ α} (hstable : ∀ r, D.Stable i (P' r))
    (hkeeps : D.Keeps i q h P P')
    (hrest : ∀ a, D.Safe post i (f a) (⟨q, some a⟩ :: h) (P' (some a))) :
    D.Safe post i (Routine.query q >>= f) h P := by
  refine ⟨P', hstable, hkeeps, fun r => ?_⟩
  cases r with
  | none => trivial
  | some a => exact hrest a

variable {c : Routine Q ρ α}

/-- A place that is not reached. -/
theorem Safe.unreached : D.Safe post i c h fun _ => False := by
  induction c generalizing h with
  | ret a => exact fun _ _ hfalse => hfalse.elim
  | raise => trivial
  | ask q k ih =>
      exact ⟨fun _ _ => False, fun _ _ _ _ _ _ hfalse _ => hfalse.elim,
        fun _ _ _ hfalse => hfalse.elim, fun r => ih r⟩

theorem Safe.mono' {P' : σ → Prop} (hc : D.Safe post i c h P)
    (hP : ∀ s, D.inv s → P' s → P s) : D.Safe post i c h P' := by
  cases c with
  | ret a => exact fun s hinv hs => hc s hinv (hP s hinv hs)
  | raise => trivial
  | ask q k =>
      obtain ⟨Q', hstable, hkeeps, hrest⟩ := hc
      exact ⟨Q', hstable, fun fate s hinv hs => hkeeps fate s hinv (hP s hinv hs), hrest⟩

theorem Safe.mono {P' : σ → Prop} (hc : D.Safe post i c h P)
    (hP : ∀ s, P' s → P s) : D.Safe post i c h P' := hc.mono' fun s _ => hP s

/-- The rule for a routine after another: what the first leaves, the second goes on from. -/
theorem Safe.bind {β : Type} {post' : ι → β → σ → Prop} {c : Routine Q ρ β} {f : β → Routine Q ρ α}
    (hc : D.Safe post' i c h P) (hf : ∀ a h, D.Safe post i (f a) h (post' i a)) :
    D.Safe post i (c >>= f) h P := by
  induction c generalizing h P with
  | ret a => exact (hf a h).mono' hc
  | raise => trivial
  | ask q k ih =>
      obtain ⟨P', hstable, hkeeps, hrest⟩ := hc
      exact ⟨P', hstable, hkeeps, fun r => ih r (hrest r)⟩

end

/-- Where the routines stand in a run that keeps the discipline. -/
structure Sound (w : World ι σ Q ρ α) : Prop where
  inv : D.inv w.store
  safe : ∀ i, ∃ P : σ → Prop, D.Stable i P ∧ P w.store ∧ D.Safe post i (w.routine i) (w.heard i) P

/-- The guard of a step of a world. -/
def Guarded (w : World ι σ Q ρ α) (a : ι × Fate) : Prop :=
  match w.routine a.1 with
  | .ret _ => True
  | .raise => True
  | .ask q _ => D.guard a.1 (w.heard a.1) q a.2 w.store

variable {D post}

theorem Sound.ret (h : D.Sound post w) {i : ι} {a : α}
    (hret : w.routine i = .ret a) : post i a w.store := by
  obtain ⟨P, _, hP, hsafe⟩ := h.safe i
  rw [hret] at hsafe
  exact hsafe w.store h.inv hP

/-- Safe routines at their beginning. -/
theorem sound_start {s : σ} {routine : ι → Routine Q ρ α} (hinv : D.inv s)
    (hsafe : ∀ i, ∃ P, D.Stable i P ∧ P s ∧ D.Safe post i (routine i) [] P) :
    D.Sound post (start s routine) := ⟨hinv, hsafe⟩

variable [DecidableEq ι]

/-- A guarded step keeps a world sound, and is one its routine may take. -/
theorem Sound.step (h : D.Sound post w)
    (hguard : D.Guarded w a) (hstep : Shared.step D.perform w a = some w') :
    D.Sound post w' ∧ D.may a.1 w.store w'.store := by
  obtain ⟨i, fate⟩ := a
  unfold Shared.step at hstep
  unfold Guarded at hguard
  dsimp only at hstep hguard ⊢
  obtain ⟨P, _, hP, hsafe⟩ := h.safe i
  cases hroutine : w.routine i with
  | ret a => rw [hroutine] at hstep; exact nomatch hstep
  | raise => rw [hroutine] at hstep; exact nomatch hstep
  | ask q k =>
      rw [hroutine] at hstep hguard hsafe
      obtain rfl := Option.some.inj hstep
      obtain ⟨P', hstable, hkeep, hrest⟩ := hsafe
      obtain ⟨hinv, hmay, hP'⟩ := hkeep fate w.store h.inv hP hguard
      refine ⟨⟨hinv, fun j => ?_⟩, hmay⟩
      by_cases hj : j = i
      · subst hj
        refine ⟨P' _, hstable _, hP', ?_⟩
        dsimp only
        rw [Function.update_self, Function.update_self]
        exact hrest _
      · obtain ⟨Pj, hstablej, hPj, hsafej⟩ := h.safe j
        refine ⟨Pj, hstablej, hstablej i (Ne.symm hj) _ _ h.inv hPj hmay, ?_⟩
        dsimp only
        rw [Function.update_of_ne hj, Function.update_of_ne hj]
        exact hsafej

theorem Sound.exec (h : D.Sound post w) {as : List (ι × Fate)}
    (hguard : Runs.Along (Shared.step D.perform) D.Guarded w as)
    (hrun : Runs.exec (Shared.step D.perform) w as = some w') : D.Sound post w' :=
  Runs.exec_invariant (fun _ _ _ hsound hguard hstep => (hsound.step hguard hstep).1) h hguard hrun

/-- Every step of a guarded run is one its routine may take. -/
theorem Sound.along (h : D.Sound post w) {as : List (ι × Fate)}
    (hguard : Runs.Along (Shared.step D.perform) D.Guarded w as) :
    Runs.Along (Shared.step D.perform) (fun w a => ∀ w', Shared.step D.perform w a = some w' →
      D.may a.1 w.store w'.store) w as := by
  induction as generalizing w with
  | nil => trivial
  | cons a as ih =>
      refine ⟨fun w' hstep => (h.step hguard.1 hstep).2, ?_⟩
      have hrest := hguard.2
      cases hstep : Shared.step D.perform w a with
      | none => trivial
      | some w' =>
          rw [hstep] at hrest
          exact ih (h.step hguard.1 hstep).1 hrest

end Discipline

end Runir.Shared
