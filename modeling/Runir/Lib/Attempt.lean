import Mathlib.Init

/-!
# Library — Attempts

Programs over a state that may leave early: `EStateM`, whose error is the way a program leaves.
`Ends pre x post exit` says where `x` ends when it starts in a state of `pre`: it comes to its end
in one of `post`, or leaves in one of `exit`.
-/

namespace Runir.Attempt
variable {ε σ α β : Type}

/-- A step that is taken under a condition. -/
def onlyIf (c : Bool) (x : EStateM ε σ Unit) : EStateM ε σ Unit := if c then x else pure ()

def throwIf (c : Bool) (e : ε) : EStateM ε σ Unit := onlyIf c (throw e)

def Ends (pre : σ → Prop) (x : EStateM ε σ α) (post : α → σ → Prop) (exit : ε → σ → Prop) : Prop :=
  ∀ s, pre s →
    match x.run s with
    | .ok a s' => post a s'
    | .error e s' => exit e s'

variable {pre pre' : σ → Prop} {x : EStateM ε σ α} {post post' : α → σ → Prop}
  {exit exit' : ε → σ → Prop}

theorem Ends.imp (h : Ends pre x post exit) (hpre : ∀ s, pre' s → pre s)
    (hpost : ∀ a s, post a s → post' a s) (hexit : ∀ e s, exit e s → exit' e s) :
    Ends pre' x post' exit' := by
  intro s hs
  have hx := h s (hpre s hs)
  cases hrun : x.run s with
  | ok a s' =>
      rw [hrun] at hx
      exact hpost a s' hx
  | error e s' =>
      rw [hrun] at hx
      exact hexit e s' hx

theorem Ends.pure {a : α} (h : ∀ s, pre s → post a s) :
    Ends pre (pure a : EStateM ε σ α) post exit := fun s hs => h s hs

theorem Ends.throw {e : ε} (h : ∀ s, pre s → exit e s) :
    Ends pre (throw e : EStateM ε σ α) post exit := fun s hs => h s hs

theorem Ends.modify {f : σ → σ} {post : Unit → σ → Prop} (h : ∀ s, pre s → post () (f s)) :
    Ends pre (modify f : EStateM ε σ Unit) post exit := fun s hs => h s hs

theorem Ends.bind {mid : α → σ → Prop} {f : α → EStateM ε σ β} {post : β → σ → Prop}
    (hx : Ends pre x mid exit) (hf : ∀ a, Ends (mid a) (f a) post exit) :
    Ends pre (x >>= f) post exit := by
  intro s hs
  have hmid := hx s hs
  rw [EStateM.run_bind]
  cases hrun : x.run s with
  | ok a s' =>
      rw [hrun] at hmid
      exact hf a s' hmid
  | error e s' =>
      rw [hrun] at hmid
      exact hmid

/-- What a program is given besides its state. -/
theorem Ends.given {p : Prop} (h : p → Ends pre x post exit) :
    Ends (fun s => pre s ∧ p) x post exit := fun s hs => h hs.2 s hs.1

/-- Two programs, each of which gives something. -/
theorem Ends.andThen {mid post : σ → Prop} {p q : Prop} {x y : EStateM ε σ Unit}
    (hx : Ends pre x (fun _ s => mid s ∧ p) exit)
    (hy : p → Ends mid y (fun _ s => post s ∧ q) exit) :
    Ends pre (x >>= fun _ => y) (fun _ s => post s ∧ p ∧ q) exit :=
  hx.bind fun _ => Ends.given fun hp =>
    (hy hp).imp (fun _ hs => hs) (fun _ _ hs => ⟨hs.1, hp, hs.2⟩) fun _ _ hs => hs

theorem Ends.onlyIf {c : Bool} {x : EStateM ε σ Unit} {post : Unit → σ → Prop}
    (hx : c = true → Ends pre x post exit) (hskip : c = false → ∀ s, pre s → post () s) :
    Ends pre (onlyIf c x) post exit := by
  cases c with
  | true => exact hx rfl
  | false => exact Ends.pure (hskip rfl)

theorem Ends.throwIf {c : Bool} {e : ε} {post : Unit → σ → Prop}
    (hthrow : c = true → ∀ s, pre s → exit e s) (hgo : c = false → ∀ s, pre s → post () s) :
    Ends pre (throwIf c e) post exit :=
  Ends.onlyIf (fun hc => Ends.throw (hthrow hc)) hgo

/-- A loop over a list: the invariant says what the rounds so far have left. -/
theorem Ends.forM {γ : Type} {inv : List γ → σ → Prop} {f : γ → EStateM ε σ PUnit}
    {xs done : List γ}
    (h : ∀ done, ∀ x ∈ xs, Ends (inv done) (f x) (fun _ => inv (done ++ [x])) exit) :
    Ends (inv done) (xs.forM f) (fun _ => inv (done ++ xs)) exit := by
  induction xs generalizing done with
  | nil => exact Ends.pure fun s hs => (List.append_nil done).symm ▸ hs
  | cons x xs ih =>
      change Ends (inv done) (f x >>= fun _ => xs.forM f) (fun _ => inv (done ++ x :: xs)) exit
      refine (h done x List.mem_cons_self).bind fun _ => ?_
      rw [List.append_cons done x xs]
      exact ih fun done y hy => h done y (List.mem_cons_of_mem x hy)

end Runir.Attempt
