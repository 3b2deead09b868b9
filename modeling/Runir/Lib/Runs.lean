import Mathlib.Data.List.Basic

/-!
# Library — Runs

Runs of a partial step function: `exec step s as` performs the actions `as` from `s` and is
`none` when one of them is refused.  `Along step P s as` says that every action of the run that
is performed satisfies `P` in the state it is performed in.  `exec_invariant` is the rule for
invariants, `always_iff_along` the one for properties with an exact guard, and `along_iff_along`
the one for properties of steps.
-/

namespace Runir.Runs
variable {σ α : Type*}

def exec (step : σ → α → Option σ) : σ → List α → Option σ
  | s, [] => some s
  | s, a :: as => (step s a).bind fun s' => exec step s' as

def Along (step : σ → α → Option σ) (P : σ → α → Prop) : σ → List α → Prop
  | _, [] => True
  | s, a :: as =>
      P s a ∧
        match step s a with
        | none => True
        | some s' => Along step P s' as

instance decidableAlong (step : σ → α → Option σ) (P : σ → α → Prop)
    [∀ s a, Decidable (P s a)] : (s : σ) → (as : List α) → Decidable (Along step P s as)
  | _, [] => isTrue trivial
  | s, a :: as =>
      haveI : Decidable (match step s a with
          | none => True
          | some s' => Along step P s' as) :=
        match step s a with
        | none => isTrue trivial
        | some s' => decidableAlong step P s' as
      inferInstanceAs (Decidable (_ ∧ _))

variable {step : σ → α → Option σ}

theorem exec_append (s : σ) (as bs : List α) :
    exec step s (as ++ bs) = (exec step s as).bind fun s' => exec step s' bs := by
  induction as generalizing s with
  | nil => rfl
  | cons a as ih =>
      simp only [List.cons_append, exec]
      cases step s a with
      | none => rfl
      | some s' => exact ih s'

variable {P : σ → α → Prop}

theorem Along.cons {s s' : σ} {a : α} {as : List α} (h : P s a)
    (hstep : step s a = some s') (hrest : Along step P s' as) : Along step P s (a :: as) := by
  refine ⟨h, ?_⟩
  rw [hstep]
  exact hrest

theorem Along.of_forall {s : σ} {as : List α} (h : ∀ s, ∀ a ∈ as, P s a) :
    Along step P s as := by
  induction as generalizing s with
  | nil => trivial
  | cons a as ih =>
      refine ⟨h s a List.mem_cons_self, ?_⟩
      cases step s a with
      | none => trivial
      | some s' => exact ih fun s a ha => h s a (List.mem_cons_of_mem _ ha)

/-- What the guard says of an action of the run. -/
theorem Along.at {s s' : σ} {as bs : List α} {a : α}
    (h : Along step P s (as ++ a :: bs)) (hexec : exec step s as = some s') : P s' a := by
  induction as generalizing s with
  | nil =>
      obtain rfl := Option.some.inj hexec
      exact h.1
  | cons b as ih =>
      obtain ⟨s₁, h₁, h₂⟩ := Option.bind_eq_some_iff.mp hexec
      have hrest := h.2
      rw [h₁] at hrest
      exact ih hrest h₂

variable {I : σ → Prop}

/-- **The invariant rule.**  A property the guarded steps preserve holds at the end of every run
whose actions meet the guard. -/
theorem exec_invariant
    (hstep : ∀ s a s', I s → P s a → step s a = some s' → I s') {s s' : σ} {as : List α}
    (h₀ : I s) (hP : Along step P s as) (h : exec step s as = some s') : I s' := by
  induction as generalizing s with
  | nil => cases h; exact h₀
  | cons a as ih =>
      obtain ⟨s₁, h₁, h₂⟩ := Option.bind_eq_some_iff.mp h
      refine ih (hstep s a s₁ h₀ hP.1 h₁) ?_ h₂
      have hP₂ := hP.2
      rwa [h₁] at hP₂

/-- As `exec_invariant`, for a property every step preserves. -/
theorem exec_preserves (hstep : ∀ s a s', I s → step s a = some s' → I s')
    {s s' : σ} {as : List α} (h₀ : I s) (h : exec step s as = some s') : I s' := by
  induction as generalizing s with
  | nil => cases h; exact h₀
  | cons a as ih =>
      obtain ⟨s₁, h₁, h₂⟩ := Option.bind_eq_some_iff.mp h
      exact ih (hstep s a s₁ h₀ h₁) h₂

variable {Q : σ → α → Prop}

/-- A guard that gives another wherever an invariant holds. -/
theorem Along.imp
    (hkeep : ∀ s a s', I s → step s a = some s' → I s') (himp : ∀ s a, I s → P s a → Q s a)
    {s : σ} {as : List α} (h₀ : I s) (h : Along step P s as) : Along step Q s as := by
  induction as generalizing s with
  | nil => trivial
  | cons a as ih =>
      refine ⟨himp s a h₀ h.1, ?_⟩
      have hrest := h.2
      cases hstep : step s a with
      | none => trivial
      | some s' =>
          rw [hstep] at hrest
          exact ih (hkeep s a s' h₀ hstep) hrest

/-- A guard that gives another for the actions of the run. -/
theorem Along.imp_of_mem {s : σ} {as : List α}
    (himp : ∀ s, ∀ a ∈ as, P s a → Q s a) (h : Along step P s as) : Along step Q s as := by
  induction as generalizing s with
  | nil => trivial
  | cons a as ih =>
      refine ⟨himp s a List.mem_cons_self h.1, ?_⟩
      have hrest := h.2
      cases hstep : step s a with
      | none => trivial
      | some s' =>
          rw [hstep] at hrest
          exact ih (fun s a ha => himp s a (List.mem_cons_of_mem _ ha)) hrest

/-- As `imp`, for an invariant that the guarded steps preserve. -/
theorem Along.imp_guarded (hkeep : ∀ s a s', I s → P s a → step s a = some s' → I s')
    (himp : ∀ s a, I s → P s a → Q s a) {s : σ} {as : List α} (h₀ : I s)
    (h : Along step P s as) : Along step Q s as := by
  induction as generalizing s with
  | nil => trivial
  | cons a as ih =>
      refine ⟨himp s a h₀ h.1, ?_⟩
      have hrest := h.2
      cases hstep : step s a with
      | none => trivial
      | some s' =>
          rw [hstep] at hrest
          exact ih (hkeep s a s' h₀ h.1 hstep) hrest

/-- Two guards that agree wherever an invariant holds. -/
theorem along_iff_along
    (hkeep : ∀ s a s', I s → step s a = some s' → I s') (hiff : ∀ s a, I s → (P s a ↔ Q s a))
    {s : σ} {as : List α} (h₀ : I s) : Along step P s as ↔ Along step Q s as :=
  ⟨Along.imp hkeep (fun s a h => (hiff s a h).mp) h₀,
    Along.imp hkeep (fun s a h => (hiff s a h).mpr) h₀⟩

theorem Along.take {s : σ} {as : List α} (h : Along step P s as) (n : Nat) :
    Along step P s (as.take n) := by
  induction as generalizing s n with
  | nil => rw [List.take_nil]; trivial
  | cons a as ih =>
      cases n with
      | zero => trivial
      | succ n =>
          refine ⟨h.1, ?_⟩
          have hrest := h.2
          cases hstep : step s a with
          | none => trivial
          | some s' =>
              rw [hstep] at hrest
              exact ih hrest n

/-- **The exact guard.**  When the guard keeps the invariant, the invariant gives the property, and a
step against the guard is performed and breaks the property, a run has the property in every state
it reaches if and only if it is guarded throughout. -/
theorem always_iff_along {I Q : σ → Prop}
    (hkeep : ∀ s a s', I s → P s a → step s a = some s' → I s') (hproperty : ∀ s, I s → Q s)
    (hbreak : ∀ s a, I s → ¬P s a → ∃ s', step s a = some s' ∧ ¬Q s') {s : σ} {as : List α}
    (h₀ : I s) :
    (∀ n s', exec step s (as.take n) = some s' → Q s') ↔ Along step P s as := by
  constructor
  · intro halways
    induction as generalizing s with
    | nil => trivial
    | cons a as ih =>
        have hguard : P s a := by
          by_contra hnot
          obtain ⟨s', hstep, hbroken⟩ := hbreak s a h₀ hnot
          refine hbroken (halways 1 s' ?_)
          simp [exec, hstep]
        refine ⟨hguard, ?_⟩
        cases hstep : step s a with
        | none => trivial
        | some s' =>
            refine ih (hkeep s a s' h₀ hguard hstep) fun n s'' hrun => halways (n + 1) s'' ?_
            rw [List.take_succ_cons]
            simp only [exec, hstep, Option.bind_some]
            exact hrun
  · intro halong n s' hrun
    exact hproperty s' (exec_invariant hkeep h₀ (halong.take n) hrun)

/-- As `exec_preserves`, for the actions of the run. -/
theorem exec_preserves_of_mem {s s' : σ} {as : List α}
    (hstep : ∀ s, ∀ a ∈ as, ∀ s', I s → step s a = some s' → I s') (h₀ : I s)
    (h : exec step s as = some s') : I s' := by
  induction as generalizing s with
  | nil => cases h; exact h₀
  | cons a as ih =>
      obtain ⟨s₁, h₁, h₂⟩ := Option.bind_eq_some_iff.mp h
      exact ih (fun s a ha => hstep s a (List.mem_cons_of_mem _ ha))
        (hstep s a List.mem_cons_self s₁ h₀ h₁) h₂

/-- **The exact guard of the end.**  As `always_iff_along`, for a property that no step gives back:
a run has it at its end if and only if it is guarded throughout. -/
theorem end_iff_along {Q : σ → Prop} {s s' : σ} {as : List α}
    (hkeep : ∀ s, ∀ a ∈ as, ∀ s', Q s → step s a = some s' → (Q s' ↔ P s a))
    (hlost : ∀ s, ∀ a ∈ as, ∀ s', ¬Q s → step s a = some s' → ¬Q s') (h₀ : Q s)
    (h : exec step s as = some s') : Q s' ↔ Along step P s as := by
  induction as generalizing s with
  | nil =>
      cases h
      exact ⟨fun _ => trivial, fun _ => h₀⟩
  | cons a as ih =>
      obtain ⟨s₁, h₁, h₂⟩ := Option.bind_eq_some_iff.mp h
      have hfirst := hkeep s a List.mem_cons_self s₁ h₀ h₁
      by_cases hQ₁ : Q s₁
      · have hrest := ih (fun s a ha => hkeep s a (List.mem_cons_of_mem _ ha))
          (fun s a ha => hlost s a (List.mem_cons_of_mem _ ha)) hQ₁ h₂
        rw [hrest]
        refine ⟨fun halong => Along.cons (hfirst.mp hQ₁) h₁ halong, fun halong => ?_⟩
        have hnext := halong.2
        rwa [h₁] at hnext
      · -- what is lost stays lost
        have hnever : ¬Q s' := exec_preserves_of_mem (I := fun s => ¬Q s)
          (fun s a ha => hlost s a (List.mem_cons_of_mem _ ha)) hQ₁ h₂
        exact ⟨fun hend => absurd hend hnever, fun halong => absurd (hfirst.mpr halong.1) hQ₁⟩

/-- The end of a run that is not refused, as a value. -/
theorem eq_some_getD {o : Option σ} (d : σ) (h : o.isSome = true) : o = some (o.getD d) := by
  obtain ⟨s, rfl⟩ := Option.isSome_iff_exists.mp h
  rfl

end Runir.Runs
