import Mathlib.Order.Nat

/-!
# Library — Observers

Programs that may throw, over a state in two parts: the one the program is about, and one that
only records.  A throw keeps the state it was thrown in.

* `first`, `second`: a program over one part, run on both.
* `Agree m m'`: the two programs cannot be told apart on the first part, whatever the second.
* `Silent`, `Observer`: programs that leave the first part alone, without or with a throw.
* `AgreeOrLate`, `FailsAfter`: `m` may, or does, throw where `m'` returns.
* `Observes`: `m` may also throw early, having left the first part alone.
-/

namespace Runir

/-- A program over the state `σ` that may throw `ε`. -/
abbrev Prog (ε σ α : Type) := EStateM ε σ α

namespace Prog
variable {ε σ τ α β : Type}

/-- `σ`'s share of a result. -/
def forget : EStateM.Result ε (σ × τ) α → EStateM.Result ε σ α
  | .ok a s => .ok a s.1
  | .error e s => .error e s.1

def first (m : Prog ε σ α) : Prog ε (σ × τ) α := fun s =>
  match m s.1 with
  | .ok a s₁ => .ok a (s₁, s.2)
  | .error e s₁ => .error e (s₁, s.2)

def second (m : Prog ε τ α) : Prog ε (σ × τ) α := fun s =>
  match m s.2 with
  | .ok a s₂ => .ok a (s.1, s₂)
  | .error e s₂ => .error e (s.1, s₂)

/-- The state a result leaves. -/
def state : EStateM.Result ε σ α → σ
  | .ok _ s => s
  | .error _ s => s

/-- The value of a pure computation, or its throw. -/
def ofExcept : Except ε α → Prog ε σ α
  | .ok a => pure a
  | .error e => throw e

theorem bind_apply (m : Prog ε σ α) (k : α → Prog ε σ β) (s : σ) :
    (m >>= k) s =
      match m s with
      | .ok a s₁ => k a s₁
      | .error e s₁ => .error e s₁ := rfl

/-! ### Agreement on the first part -/

def Agree (m m' : Prog ε (σ × τ) α) : Prop := ∀ s t t', forget (m (s, t)) = forget (m' (s, t'))

variable {m m' : Prog ε (σ × τ) α}

namespace Agree

theorem pure (a : α) : Agree (Pure.pure a : Prog ε (σ × τ) α) (Pure.pure a) := fun _ _ _ => rfl

theorem first (m : Prog ε σ α) :
    Agree (Prog.first m : Prog ε (σ × τ) α) (Prog.first m) := by
  intro s t t'
  unfold Prog.first
  cases m s with
  | ok a s₁ => rfl
  | error e s₁ => rfl

/-- Two programs that agree both return, the same, or both throw, the same. -/
theorem cases (h : Agree m m') (s : σ) (t t' : τ) :
    (∃ a s₁ t₁ t₁', m (s, t) = .ok a (s₁, t₁) ∧ m' (s, t') = .ok a (s₁, t₁')) ∨
      ∃ e s₁ t₁ t₁', m (s, t) = .error e (s₁, t₁) ∧ m' (s, t') = .error e (s₁, t₁') := by
  have hst := h s t t'
  rcases hm : m (s, t) with ⟨a, ⟨s₁, t₁⟩⟩ | ⟨e, ⟨s₁, t₁⟩⟩
  · rcases hm' : m' (s, t') with ⟨a', ⟨s₁', t₁'⟩⟩ | ⟨e', ⟨s₁', t₁'⟩⟩
    · rw [hm, hm'] at hst
      obtain ⟨rfl, rfl⟩ := EStateM.Result.ok.inj hst
      exact Or.inl ⟨a, s₁, t₁, t₁', rfl, rfl⟩
    · rw [hm, hm'] at hst
      cases hst
  · rcases hm' : m' (s, t') with ⟨a', ⟨s₁', t₁'⟩⟩ | ⟨e', ⟨s₁', t₁'⟩⟩
    · rw [hm, hm'] at hst
      cases hst
    · rw [hm, hm'] at hst
      obtain ⟨rfl, rfl⟩ := EStateM.Result.error.inj hst
      exact Or.inr ⟨e, s₁, t₁, t₁', rfl, rfl⟩

theorem bind {k k' : α → Prog ε (σ × τ) β} (hm : Agree m m')
    (hk : ∀ a, Agree (k a) (k' a)) : Agree (m >>= k) (m' >>= k') := by
  intro s t t'
  rw [bind_apply, bind_apply]
  rcases hm.cases s t t' with ⟨a, s₁, t₁, t₁', e, e'⟩ | ⟨x, s₁, t₁, t₁', e, e'⟩
  · rw [e, e']
    exact hk a s₁ t₁ t₁'
  · rw [e, e']
    rfl

end Agree

/-! ### Programs that leave the first part alone -/

/-- `m` returns, and leaves the first part as it was. -/
def Silent (m : Prog ε (σ × τ) α) : Prop := ∀ s t, ∃ a t', m (s, t) = .ok a (s, t')

/-- `m` leaves the first part as it was, whether it returns or throws. -/
def Observer (m : Prog ε (σ × τ) α) : Prop :=
  ∀ s t, (∃ a t', m (s, t) = .ok a (s, t')) ∨ ∃ e t', m (s, t) = .error e (s, t')

theorem observer_second (m : Prog ε τ α) : Observer (second m : Prog ε (σ × τ) α) := by
  intro s t
  unfold second
  cases m t with
  | ok a t₁ => exact Or.inl ⟨a, t₁, rfl⟩
  | error e t₁ => exact Or.inr ⟨e, t₁, rfl⟩

variable {m : Prog ε (σ × τ) α} {k : α → Prog ε (σ × τ) β}

namespace Silent

theorem observer (h : Silent m) : Observer m := fun s t => Or.inl (h s t)

theorem pure (a : α) : Silent (Pure.pure a : Prog ε (σ × τ) α) := fun _ t => ⟨a, t, rfl⟩

theorem second {m : Prog ε τ α} (h : ∀ t, ∃ a t', m t = .ok a t') :
    Silent (Prog.second m : Prog ε (σ × τ) α) := by
  intro s t
  obtain ⟨a, t', e⟩ := h t
  exact ⟨a, t', by unfold Prog.second; simp only [e]⟩

theorem bind (hm : Silent m) (hk : ∀ a, Silent (k a)) : Silent (m >>= k) := by
  intro s t
  obtain ⟨a, t₁, e⟩ := hm s t
  obtain ⟨b, t₂, e'⟩ := hk a s t₁
  exact ⟨b, t₂, by rw [bind_apply, e]; exact e'⟩

/-- What may throw is silent once its throw is caught. -/
theorem second_caught (m : Prog ε τ α) {handle : ε → Prog ε τ α}
    (hh : ∀ e t, ∃ a t', handle e t = .ok a t') :
    Silent (Prog.second (tryCatch m handle) : Prog ε (σ × τ) α) := by
  refine Silent.second fun t => ?_
  have hrun : (tryCatch m handle) t =
      match m t with
      | .ok a t₁ => .ok a t₁
      | .error e t₁ => handle e t₁ := by
    change EStateM.tryCatch m handle t = _
    unfold EStateM.tryCatch
    cases m t <;> rfl
  rw [hrun]
  cases m t with
  | ok a t₁ => exact ⟨a, t₁, rfl⟩
  | error e t₁ => exact hh e t₁

end Silent

/-- `m` throws, and leaves the first part as it was. -/
def Throws (m : Prog ε (σ × τ) α) : Prop := ∀ s t, ∃ e t', m (s, t) = .error e (s, t')

theorem Observer.bind (hm : Observer m) (hk : ∀ a, Observer (k a)) : Observer (m >>= k) := by
  intro s t
  rw [bind_apply]
  rcases hm s t with ⟨a, t₁, e⟩ | ⟨e, t₁, h⟩
  · rw [e]; exact hk a s t₁
  · rw [h]; exact Or.inr ⟨e, t₁, rfl⟩

/-! ### Late failures -/

/-- `m` agrees with `m'`, or throws where `m'` returns, which only `late` permits. -/
def AgreeOrLate (late : Prop) (m m' : Prog ε (σ × τ) α) : Prop :=
  ∀ s t t', forget (m (s, t)) = forget (m' (s, t')) ∨
    late ∧ ∃ r s₁ t₁ e t₂, m' (s, t') = .ok r (s₁, t₁) ∧ m (s, t) = .error e (s₁, t₂)

namespace AgreeOrLate
variable {late : Prop}

theorem of_agree (h : Agree m m') : AgreeOrLate late m m' :=
  fun s t t' => Or.inl (h s t t')

/-- A throw in the place of a return. -/
theorem throws (hlate : late) (hm : Throws m)
    (k : α → Prog ε (σ × τ) β) (b : β) : AgreeOrLate late (m >>= k) (Pure.pure b) := by
  intro s t t'
  obtain ⟨e, t₂, h⟩ := hm s t
  refine Or.inr ⟨hlate, b, s, t', e, t₂, rfl, ?_⟩
  rw [bind_apply, h]

theorem bind {k k' : α → Prog ε (σ × τ) β} (hm : Agree m m')
    (hk : ∀ a, AgreeOrLate late (k a) (k' a)) : AgreeOrLate late (m >>= k) (m' >>= k') := by
  intro s t t'
  rw [bind_apply, bind_apply]
  rcases hm.cases s t t' with ⟨a, s₁, t₁, t₁', e, e'⟩ | ⟨x, s₁, t₁, t₁', e, e'⟩
  · rw [e, e']
    exact hk a s₁ t₁ t₁'
  · rw [e, e']
    exact Or.inl rfl

theorem observe {m' : Prog ε (σ × τ) β}
    (hm : Silent m) (hk : ∀ a, AgreeOrLate late (k a) m') : AgreeOrLate late (m >>= k) m' := by
  intro s t t'
  obtain ⟨a, t₁, e⟩ := hm s t
  rw [bind_apply, e]
  exact hk a s t₁ t'

end AgreeOrLate

/-- Where `m'` returns, `m` throws, and leaves the first part as `m'` does. -/
def FailsAfter (m m' : Prog ε (σ × τ) α) : Prop :=
  ∀ s t t' r s₁ t₁, m' (s, t') = .ok r (s₁, t₁) → ∃ e t₂, m (s, t) = .error e (s₁, t₂)

namespace FailsAfter

/-- A throw in the place of a return. -/
theorem throws (hm : Throws m) (k : α → Prog ε (σ × τ) β) (b : β) :
    FailsAfter (m >>= k) (Pure.pure b) := by
  intro s t t' r s₁ t₁ h
  cases h
  obtain ⟨e, t₂, h⟩ := hm s t
  refine ⟨e, t₂, ?_⟩
  rw [bind_apply, h]

theorem bind {k k' : α → Prog ε (σ × τ) β} (hm : Agree m m')
    (hk : ∀ a, FailsAfter (k a) (k' a)) : FailsAfter (m >>= k) (m' >>= k') := by
  intro s t t' r s₁ t₁ h
  rw [bind_apply] at h ⊢
  rcases hm.cases s t t' with ⟨a, s₂, t₂, t₂', e, e'⟩ | ⟨x, s₂, t₂, t₂', e, e'⟩
  · rw [e'] at h
    rw [e]
    exact hk a s₂ t₂ t₂' r s₁ t₁ h
  · rw [e'] at h
    cases h

theorem observe {m' : Prog ε (σ × τ) β}
    (hm : Silent m) (hk : ∀ a, FailsAfter (k a) m') : FailsAfter (m >>= k) m' := by
  intro s t t' r s₁ t₁ h
  obtain ⟨a, t₂, e⟩ := hm s t
  rw [bind_apply, e]
  exact hk a s t₂ t' r s₁ t₁ h

end FailsAfter

/-! ### Early failures -/

/-- As `AgreeOrLate`, or `m` throws having left the first part alone. -/
def Observes (late : Prop) (m m' : Prog ε (σ × τ) α) : Prop :=
  ∀ s t t', (forget (m (s, t)) = forget (m' (s, t')) ∨
      late ∧ ∃ r s₁ t₁ e t₂, m' (s, t') = .ok r (s₁, t₁) ∧ m (s, t) = .error e (s₁, t₂)) ∨
    ∃ e t₁, m (s, t) = .error e (s, t₁)

namespace Observes
variable {late : Prop}

theorem of_agreeOrLate (h : AgreeOrLate late m m') :
    Observes late m m' := fun s t t' => Or.inl (h s t t')

theorem observe {m' : Prog ε (σ × τ) β}
    (hm : Observer m) (hk : ∀ a, Observes late (k a) m') : Observes late (m >>= k) m' := by
  intro s t t'
  rw [bind_apply]
  rcases hm s t with ⟨a, t₁, e⟩ | ⟨e, t₁, h⟩
  · rw [e]; exact hk a s t₁ t'
  · rw [h]; exact Or.inr ⟨e, t₁, rfl⟩

end Observes

/-! ### What a run does to the state -/

/-- Every run of `m` takes the state along `R`, whether it returns or throws. -/
def Steps (R : σ → σ → Prop) (m : Prog ε σ α) : Prop := ∀ s, R s (state (m s))

variable {m : Prog ε σ α} {k : α → Prog ε σ β}

theorem Steps.bind {R R₁ R₂ : σ → σ → Prop} (hm : Steps R₁ m) (hk : ∀ a, Steps R₂ (k a))
    (hseq : ∀ s₁ s₂ s₃, R₁ s₁ s₂ → R₂ s₂ s₃ → R s₁ s₃) (hstop : ∀ s₁ s₂, R₁ s₁ s₂ → R s₁ s₂) :
    Steps R (m >>= k) := by
  intro s
  have h := hm s
  rw [bind_apply]
  cases e : m s with
  | ok a s₁ => rw [e] at h; exact hseq s s₁ _ h (hk a s₁)
  | error x s₁ => rw [e] at h; exact hstop s s₁ h

theorem Steps.first {R : σ → σ → Prop} (hm : Steps R m) :
    Steps (fun s s' : σ × τ => R s.1 s'.1) (Prog.first m) := by
  intro s
  have h := hm s.1
  unfold Prog.first
  cases e : m s.1 with
  | ok a s₁ => rw [e] at h; exact h
  | error x s₁ => rw [e] at h; exact h

theorem Steps.second {R : σ → σ → Prop} (hR : ∀ s, R s s) (m : Prog ε τ α) :
    Steps (fun s s' : σ × τ => R s.1 s'.1) (Prog.second m) := by
  intro s
  unfold Prog.second
  cases m s.2 with
  | ok a s₁ => exact hR s.1
  | error x s₁ => exact hR s.1

section
variable {R : σ → σ → Prop} (hR : ∀ s, R s s)
include hR

theorem Steps.pure (a : α) : Steps R (Pure.pure a : Prog ε σ α) := hR

theorem Steps.throw (e : ε) : Steps R (throw e : Prog ε σ α) := hR

theorem Steps.get : Steps R (MonadState.get : Prog ε σ σ) := hR

theorem Steps.ofExcept (x : Except ε α) : Steps R (Prog.ofExcept x) := by
  cases x with
  | error e => exact Steps.throw hR e
  | ok a => exact Steps.pure hR a

end

/-- `m` never lowers `μ`. -/
abbrev Raises (μ : σ → Nat) (m : Prog ε σ α) : Prop := Steps (fun s s' => μ s ≤ μ s') m

namespace Raises
variable {μ : σ → Nat}

theorem pure (a : α) : Raises μ (Pure.pure a : Prog ε σ α) := Steps.pure (fun s => le_refl (μ s)) a

theorem throw (e : ε) : Raises μ (throw e : Prog ε σ α) := Steps.throw (fun s => le_refl (μ s)) e

theorem get : Raises μ (MonadState.get : Prog ε σ σ) := Steps.get fun s => le_refl (μ s)

theorem ofExcept (x : Except ε α) : Raises μ (Prog.ofExcept x) :=
  Steps.ofExcept (fun s => le_refl (μ s)) x

theorem modify {f : σ → σ} (hf : ∀ s, μ s ≤ μ (f s)) : Raises μ (modify f : Prog ε σ PUnit) := hf

theorem bind (hm : Raises μ m) (hk : ∀ a, Raises μ (k a)) :
    Raises μ (m >>= k) :=
  Steps.bind hm hk (fun _ _ _ => le_trans) fun _ _ => id

end Raises

section
variable {ρ : Type} (π : σ → ρ)

/-- `m` leaves the part `π` of the state as it was. -/
abbrev Keeps (m : Prog ε σ α) : Prop := Steps (fun s s' => π s' = π s) m

/-- `m` writes the part `π` at most once, along `W`. -/
abbrev WritesOnce (W : ρ → ρ → Prop) (m : Prog ε σ α) : Prop :=
  Steps (fun s s' => π s' = π s ∨ W (π s) (π s')) m

variable {π} {W : ρ → ρ → Prop}

theorem Keeps.pure (a : α) : Keeps π (Pure.pure a : Prog ε σ α) := fun _ => rfl

theorem Keeps.throw (e : ε) : Keeps π (throw e : Prog ε σ α) := fun _ => rfl

theorem Keeps.second {π : σ → ρ} (m : Prog ε τ α) :
    Keeps (fun w : σ × τ => π w.1) (Prog.second m) :=
  Steps.second (R := fun s s' => π s' = π s) (fun _ => rfl) m

theorem Keeps.first {π : σ → ρ} (hm : Keeps π m) :
    Keeps (fun w : σ × τ => π w.1) (Prog.first m) :=
  Steps.first hm

theorem WritesOnce.first {π : σ → ρ} (hm : WritesOnce π W m) :
    WritesOnce (fun w : σ × τ => π w.1) W (Prog.first m) :=
  Steps.first hm

theorem Keeps.bind (hm : Keeps π m) (hk : ∀ a, Keeps π (k a)) : Keeps π (m >>= k) :=
  Steps.bind hm hk (fun _ _ _ h₁ h₂ => h₂.trans h₁) fun _ _ => id

theorem Keeps.writesOnce (hm : Keeps π m) : WritesOnce π W m :=
  fun s => Or.inl (hm s)

theorem WritesOnce.after (hm : Keeps π m)
    (hk : ∀ a, WritesOnce π W (k a)) : WritesOnce π W (m >>= k) := by
  refine Steps.bind hm hk (fun s₁ s₂ s₃ h₁ h₂ => ?_) fun _ _ => Or.inl
  rw [h₁] at h₂
  exact h₂

theorem WritesOnce.before (hm : WritesOnce π W m)
    (hk : ∀ a, Keeps π (k a)) : WritesOnce π W (m >>= k) := by
  refine Steps.bind hm hk (fun s₁ s₂ s₃ h₁ h₂ => ?_) fun _ _ => id
  rw [h₂]
  exact h₁

end

end Prog

end Runir
