import Mathlib.Logic.Function.Basic
import Mathlib.Logic.Relation

/-!
# Library — Pointers

Graphs in which every node has at most one pointer, `f : κ → Option κ`.

* `Acyclic`: no pointer path leads back to its start.
* `Acyclic.update`: redirecting one node keeps the graph acyclic when that node cannot be
  reached from its new target.
* `Acyclic.of_measure`: it is acyclic when a measure falls along every pointer.
* `hops`: where a number of pointers leads.
* `Acyclic.of_stops`: so do pointers that lead to nodes without one.
* `Ends`: the path from a node comes to an end.  `Ends.update` and `not_ends_of_cycle` say when
  a redirection keeps it so.
-/

namespace Runir.Pointers
variable {κ : Type*}

/-- `f` points from `a` to `b`. -/
def Edge (f : κ → Option κ) (a b : κ) : Prop := f a = some b

/-- `b` is reached from `a` by following pointers. -/
def Reach (f : κ → Option κ) : κ → κ → Prop := Relation.ReflTransGen (Edge f)

def Acyclic (f : κ → Option κ) : Prop := ∀ a, ¬Relation.TransGen (Edge f) a a

theorem acyclic_of_none {f : κ → Option κ} (h : ∀ a, f a = none) : Acyclic f := by
  intro a hcycle
  obtain ⟨b, hab, -⟩ := Relation.TransGen.head'_iff.mp hcycle
  exact absurd ((h a).symm.trans hab) (by simp)

/-- Pointers along which a measure falls. -/
theorem Acyclic.of_measure {f : κ → Option κ} (μ : κ → Nat) (h : ∀ a b, Edge f a b → μ b < μ a) :
    Acyclic f := by
  have hfalls : ∀ a b, Relation.TransGen (Edge f) a b → μ b < μ a := by
    intro a b hab
    induction hab with
    | single hab => exact h _ _ hab
    | tail _ hbc ih => exact Nat.lt_trans (h _ _ hbc) ih
  exact fun a hcycle => absurd (hfalls a a hcycle) (Nat.lt_irrefl _)

/-- Fewer pointers close no cycle. -/
theorem Acyclic.mono {f g : κ → Option κ} (hf : Acyclic f) (h : ∀ a b, Edge g a b → Edge f a b) :
    Acyclic g :=
  fun a hcycle => hf a (Relation.TransGen.mono h a a hcycle)

/-- The node that `n` pointers lead to. -/
def hops (f : κ → Option κ) : Nat → κ → Option κ
  | 0, a => some a
  | n + 1, a => (f a).bind (hops f n)

/-- Pointers that lead to nodes without one close no cycle. -/
theorem Acyclic.of_stops {f g : κ → Option κ} (hf : Acyclic f)
    (h : ∀ a b, Edge g a b → Edge f a b ∨ g b = none) : Acyclic g := by
  -- on the way to a node that has a pointer every pointer is one of `f`
  have hpath : ∀ a b, Relation.TransGen (Edge g) a b → g b ≠ none → Relation.TransGen (Edge f) a b := by
    intro a b hab hb
    induction hab using Relation.TransGen.head_induction_on with
    | single hab => exact .single ((h _ _ hab).resolve_right hb)
    | head hac hcb ih =>
        obtain ⟨d, hcd, -⟩ := Relation.TransGen.head'_iff.mp hcb
        refine .head ((h _ _ hac).resolve_right ?_) ih
        rw [hcd]
        exact Option.some_ne_none d
  intro a hcycle
  obtain ⟨b, hab, -⟩ := Relation.TransGen.head'_iff.mp hcycle
  refine hf a (hpath a a hcycle ?_)
  rw [hab]
  exact Option.some_ne_none b

/-- The path from `a` comes to an end. -/
def Ends (f : κ → Option κ) (a : κ) : Prop := ∃ e, Reach f a e ∧ f e = none

/-- From a cycle no end is reached, since every node has one pointer only. -/
theorem not_ends_of_cycle {f : κ → Option κ} {a : κ} (h : Relation.TransGen (Edge f) a a) :
    ¬Ends f a := by
  rintro ⟨e, hreach, hend⟩
  induction hreach using Relation.ReflTransGen.head_induction_on with
  | refl =>
      obtain ⟨b, hb, -⟩ := Relation.TransGen.head'_iff.mp h
      exact absurd (hend.symm.trans hb) (by simp)
  | @head a c hac _ ih =>
      obtain ⟨b, hab, hba⟩ := Relation.TransGen.head'_iff.mp h
      have hbc : b = c := Option.some.inj (hab.symm.trans hac)
      subst hbc
      exact ih (Relation.TransGen.tail' hba hac)

section update
variable [DecidableEq κ] {f : κ → Option κ} {p r : κ}

theorem edge_update {a b : κ} (h : Edge (Function.update f p (some r)) a b) :
    (a = p ∧ b = r) ∨ (a ≠ p ∧ Edge f a b) := by
  unfold Edge at h
  rw [Function.update_apply] at h
  split at h
  · next hap => exact Or.inl ⟨hap, (Option.some.inj h).symm⟩
  · next hap => exact Or.inr ⟨hap, h⟩

theorem edge_update_self : Edge (Function.update f p (some r)) p r := by
  unfold Edge
  rw [Function.update_self]

/-- A path after the redirection either avoids it, or first leads to the redirected node. -/
theorem reach_update {a b : κ} (h : Reach (Function.update f p (some r)) a b) :
    Reach f a b ∨ Reach f a p := by
  induction h using Relation.ReflTransGen.head_induction_on with
  | refl => exact Or.inl .refl
  | head hac _ ih =>
      rcases edge_update hac with ⟨rfl, -⟩ | ⟨-, hac'⟩
      · exact Or.inr .refl
      · exact ih.imp (.head hac') (.head hac')

/-- The redirected node is still reached from where it was. -/
theorem reach_update_self {a : κ} (h : Reach f a p) :
    Reach (Function.update f p (some r)) a p := by
  induction h using Relation.ReflTransGen.head_induction_on with
  | refl => exact .refl
  | @head a c hac _ ih =>
      by_cases hap : a = p
      · subst hap
        exact .refl
      · refine .head ?_ ih
        unfold Edge
        rw [Function.update_of_ne hap]
        exact hac

/-- A cycle after the redirection is a cycle before it, or passes through the redirected node. -/
theorem transGen_update {a b : κ} (h : Relation.TransGen (Edge (Function.update f p (some r))) a b) :
    Relation.TransGen (Edge f) a b ∨
      (Reach f a p ∧ Reach (Function.update f p (some r)) r b) := by
  induction h using Relation.TransGen.head_induction_on with
  | single hab =>
      rcases edge_update hab with ⟨rfl, rfl⟩ | ⟨-, hab'⟩
      · exact Or.inr ⟨.refl, .refl⟩
      · exact Or.inl (.single hab')
  | head hac hcb ih =>
      rcases edge_update hac with ⟨rfl, rfl⟩ | ⟨-, hac'⟩
      · exact Or.inr ⟨.refl, hcb.to_reflTransGen⟩
      · rcases ih with ih | ⟨hcp, hrb⟩
        · exact Or.inl (.head hac' ih)
        · exact Or.inr ⟨.head hac' hcp, hrb⟩

/-- **Redirecting a pointer.**  If the redirected node cannot be reached from its new target, the
graph stays acyclic. -/
theorem Acyclic.update (hf : Acyclic f) (h : ¬Reach f r p) :
    Acyclic (Function.update f p (some r)) := by
  intro a hcycle
  rcases transGen_update hcycle with hold | ⟨hap, hra⟩
  · exact hf a hold
  · -- the cycle leads from the new target back to the redirected node
    have hrp : Reach (Function.update f p (some r)) r p := hra.trans (reach_update_self hap)
    rcases reach_update hrp with h' | h'
    · exact h h'
    · exact h h'

/-- A path that avoids the redirected node is still there. -/
theorem reach_update_of_not {v : Option κ} {a b : κ} (h : Reach f a b) (hp : ¬Reach f a p) :
    Reach (Function.update f p v) a b := by
  induction h with
  | refl => exact .refl
  | @tail b c hab hbc ih =>
      have hne : b ≠ p := fun heq => hp (heq ▸ hab)
      refine ih.tail ?_
      unfold Edge
      rw [Function.update_of_ne hne]
      exact hbc

/-- **Redirecting to a node that ends.**  Paths that ended still end, if the redirected node cannot
be reached from its new target. -/
theorem Ends.update (hr : Ends f r) (h : ¬Reach f r p) {a : κ} (ha : Ends f a) :
    Ends (Function.update f p (some r)) a := by
  have hp : Ends (Function.update f p (some r)) p := by
    obtain ⟨e, hre, hend⟩ := hr
    refine ⟨e, .head edge_update_self (reach_update_of_not hre h), ?_⟩
    have hne : e ≠ p := fun heq => h (heq ▸ hre)
    rw [Function.update_of_ne hne, hend]
  obtain ⟨e, hae, hend⟩ := ha
  induction hae using Relation.ReflTransGen.head_induction_on with
  | refl =>
      by_cases hep : e = p
      · exact hep ▸ hp
      · refine ⟨e, .refl, ?_⟩
        rw [Function.update_of_ne hep, hend]
  | @head a c hac _ ih =>
      by_cases hap : a = p
      · exact hap ▸ hp
      · obtain ⟨e', hce', hend'⟩ := ih
        refine ⟨e', .head ?_ hce', hend'⟩
        unfold Edge
        rw [Function.update_of_ne hap]
        exact hac

/-- Redirecting a node to one that it is reached from closes a cycle. -/
theorem cycle_update (h : Reach f r p) :
    Relation.TransGen (Edge (Function.update f p (some r))) p p :=
  Relation.TransGen.head' edge_update_self (reach_update_self h)

end update

end Runir.Pointers
