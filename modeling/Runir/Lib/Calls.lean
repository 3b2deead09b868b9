import Mathlib.Order.Basic

/-!
# Library — Calls

Programs that make one call after another.  A call that fails ends the program, and so does one
whose answer is lost, though it has taken effect.

* `Calling`: the state between two calls.
* `Calling.Commits`: the call of a number takes effect.  Those that do are the first ones
  (`Commits.of_le`).
* `Calling.At`: the program is before the call of a number, or has ended at an earlier one.
  `At.state_call`: the call has its effect exactly if it commits.
-/

namespace Runir

/-- What a supersede's transaction comes to: it is answered, it is rolled back or never begun, or
it commits and its answer is lost. -/
inductive TransactionFate where
  | answered | failed | lost
  deriving DecidableEq

/-- The state of a program between two calls. -/
structure Calling (σ : Type) where
  state : σ
  asked : Nat := 0
  /-- The program has ended at a call. -/
  thrown : Bool := false

variable {σ : Type} {fate : Nat → TransactionFate} {n m : Nat} {s : Calling σ} {f : σ → σ}

namespace Calling

def call (fate : Nat → TransactionFate) (effect : σ → σ) (s : Calling σ) : Calling σ :=
  if s.thrown then s
  else
    { state := if fate s.asked = .failed then s.state else effect s.state
      asked := s.asked + 1
      thrown := decide (fate s.asked ≠ .answered) }

/-- A step between two calls. -/
def onto (f : σ → σ) (s : Calling σ) : Calling σ :=
  if s.thrown then s else { s with state := f s.state }

def throw (s : Calling σ) : Calling σ := { s with thrown := true }

theorem call_of_thrown (h : s.thrown = true) : s.call fate f = s := if_pos h

theorem onto_of_thrown (h : s.thrown = true) : s.onto f = s := if_pos h

@[simp] theorem asked_onto : (s.onto f).asked = s.asked := by
  unfold onto
  split
  · rfl
  · rfl

@[simp] theorem thrown_onto : (s.onto f).thrown = s.thrown := by
  unfold onto
  split
  · rfl
  · rfl

/-- The call of the number takes effect. -/
def Commits (fate : Nat → TransactionFate) (n : Nat) : Prop :=
  (∀ i < n, fate i = .answered) ∧ fate n ≠ .failed

instance : Decidable (Commits fate n) := inferInstanceAs (Decidable (_ ∧ _))

theorem Commits.of_le (h : Commits fate m) (hle : n ≤ m) : Commits fate n := by
  rcases Nat.lt_or_eq_of_le hle with hlt | rfl
  · refine ⟨fun i hi => h.1 i (Nat.lt_trans hi hlt), fun hfailed => ?_⟩
    rw [h.1 n hlt] at hfailed
    cases hfailed
  · exact h

/-- The program is before the call of the number, or has ended at an earlier one. -/
structure At (fate : Nat → TransactionFate) (n : Nat) (s : Calling σ) : Prop where
  live : s.thrown = false → s.asked = n ∧ ∀ i < n, fate i = .answered
  dead : s.thrown = true → ∀ m, n ≤ m → ¬Commits fate m

theorem At.start (fate : Nat → TransactionFate) (x : σ) : At fate 0 { state := x } where
  live := fun _ => ⟨rfl, fun _ h => absurd h (Nat.not_lt_zero _)⟩
  dead := fun h => nomatch h

theorem At.onto (h : At fate n s) : At fate n (s.onto f) where
  live := fun ht => by
    rw [asked_onto]
    exact h.live (thrown_onto ▸ ht)
  dead := fun ht => h.dead (thrown_onto ▸ ht)

/-- A live program's call commits unless it fails. -/
theorem At.commits_iff (h : At fate n s) : Commits fate n ↔ s.thrown = false ∧ fate s.asked ≠ .failed := by
  cases hthrown : s.thrown with
  | true => exact iff_of_false (h.dead hthrown n (Nat.le_refl n)) fun hf => nomatch hf.1
  | false =>
      obtain ⟨hasked, hall⟩ := h.live hthrown
      rw [hasked]
      exact ⟨fun hc => ⟨rfl, hc.2⟩, fun hf => ⟨hall, hf.2⟩⟩

/-- **The effect of a call** is there exactly if it commits. -/
theorem At.state_call (h : At fate n s) :
    (s.call fate f).state = if Commits fate n then f s.state else s.state := by
  rw [if_congr h.commits_iff rfl rfl, call]
  cases s.thrown with
  | true => simp
  | false =>
      by_cases hfailed : fate s.asked = .failed
      · simp [hfailed]
      · simp [hfailed]

theorem At.call (h : At fate n s) : At fate (n + 1) (s.call fate f) := by
  unfold Calling.call
  cases hthrown : s.thrown with
  | true =>
      rw [if_pos rfl]
      refine ⟨fun hlive => ?_, fun _ m hm => h.dead hthrown m (Nat.le_of_succ_le hm)⟩
      rw [hthrown] at hlive
      cases hlive
  | false =>
      obtain ⟨hasked, hall⟩ := h.live hthrown
      rw [if_neg Bool.false_ne_true, hasked]
      constructor
      · intro hlive
        refine ⟨rfl, fun i hi => ?_⟩
        rcases Nat.lt_succ_iff_lt_or_eq.mp hi with hi | rfl
        · exact hall i hi
        · exact not_not.mp (of_decide_eq_false hlive)
      · intro hdead m hm hc
        exact of_decide_eq_true hdead (hc.1 n hm)

end Calling

end Runir
