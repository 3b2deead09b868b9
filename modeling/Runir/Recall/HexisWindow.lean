import Mathlib.Tactic.Positivity
import Runir.Lib.Sorted
import Runir.Recall.Hexis

/-!
# Recall — The Hexis window

`applyHexisByPolicy` rescores the hits of a window and sorts again.

* `window_split`: the window is a first part of the hits by score.
* `boost_nonneg`, `lifts_rescored`: what the window gains, and the rest does not.
* `sortHits_lifted`: hits so rescored are sorted within the window, and nowhere else.
* `applyHexisByPolicy_confined`: so the reordering does not leave the window.
* `rising_hits_kept`: where Hexis is not applied, hits are not even sorted.
-/

namespace Runir.Recall.Hexis
open List

variable {env : Env} {hits : List Hit} {hexis : Option HexisState} {policy : LanePolicy}

/-- What `resolveHexisReorderWindow` admits under a policy. -/
def LanePolicy.window (policy : LanePolicy) (hits : List Hit) : List String :=
  resolveHexisReorderWindow hits policy.windowOptions

/-- The ambiguity gate of a pool of hits. -/
def LanePolicy.ambiguity (env : Env) (policy : LanePolicy) (hits : List Hit) : ℚ :=
  computeAmbiguityGate env hits (rankWindow policy.options) defaultGateEpsilon

/-- There is a hexis, and the gate it is applied behind is enabled. -/
def Applied (env : Env) (hits : List Hit) (hexis : Option HexisState) (policy : LanePolicy) : Prop :=
  hexis.isSome = true ∧ (applyHexisByPolicy env hits hexis policy).gate.enabled = true

instance (env : Env) (hits : List Hit) (hexis : Option HexisState) (policy : LanePolicy) :
    Decidable (Applied env hits hexis policy) :=
  inferInstanceAs (Decidable (_ ∧ _))

/-- The curve keeps to the unit interval there. -/
def Env.CalibUnit (env : Env) : Prop :=
  ∀ x, 0 ≤ x → x ≤ 1 → 0 ≤ env.logistic x ∧ env.logistic x ≤ 1

/-- Hits rescored and sorted again, within a window only. -/
structure Confined (window : List String) (hits result : List Hit) : Prop where
  sameIds : (result.map Hit.id).Perm (hits.map Hit.id)
  /-- No hit loses score, and none outside gains any. -/
  scores : ∀ out ∈ result, ∃ hit ∈ hits, hit.id = out.id ∧ hit.score ≤ out.score ∧
    (out.id ∉ window → out.score = hit.score)
  outsideOrder : ((result.map Hit.id).filter fun id => id ∉ window) =
    ((sortHits hits).map Hit.id).filter fun id => id ∉ window
  inFront : (result.map Hit.id).Pairwise fun x y => y ∈ window → x ∈ window

/-- Hexis under a policy keeps to its window, and where it is not applied to what it is given. -/
structure ConfinedByPolicy (env : Env) (hits : List Hit) (hexis : Option HexisState)
    (policy : LanePolicy) (result : List Hit) : Prop where
  confined : Applied env hits hexis policy → Confined (policy.window hits) hits result
  level : Applied env hits hexis policy →
    policy.ambiguity env hits = 0 ∨ hexis.any hasHexisSignal = false →
      result.map Hit.id = (sortHits hits).map Hit.id
  given : ¬Applied env hits hexis policy →
    result.map (fun hit => (hit.id, hit.score)) = hits.map fun hit => (hit.id, hit.score)

/-! ### Hits by score -/

theorem pairwise_sortHits (hits : List Hit) :
    (sortHits hits).Pairwise fun a b => b.score ≤ a.score :=
  Sorted.pairwise_insertionSort_value Hit.score hits

theorem sortHits_of_pairwise (h : hits.Pairwise fun a b => b.score ≤ a.score) :
    sortHits hits = hits :=
  h.insertionSort_eq

@[simp] theorem sortHits_sortHits (hits : List Hit) : sortHits (sortHits hits) = sortHits hits :=
  sortHits_of_pairwise (pairwise_sortHits hits)

theorem perm_sortHits (hits : List Hit) : (sortHits hits).Perm hits := perm_insertionSort _ hits

@[simp] theorem length_sortHits (hits : List Hit) : (sortHits hits).length = hits.length :=
  (perm_sortHits hits).length_eq

@[simp] theorem window_sortHits (hits : List Hit) (options : RerankOptions) :
    resolveHexisReorderWindow (sortHits hits) options = resolveHexisReorderWindow hits options := by
  simp [resolveHexisReorderWindow]

theorem ambiguity_sortHits (hits : List Hit) (n : Nat) (epsilon : ℚ) :
    computeAmbiguityGate env (sortHits hits) n epsilon = computeAmbiguityGate env hits n epsilon := by
  have hnil : sortHits hits = [] ↔ hits = [] := by
    rw [← length_eq_zero_iff, ← length_eq_zero_iff, length_sortHits]
  simp only [computeAmbiguityGate, sortHits_sortHits, length_sortHits, hnil]

/-- **The window is a first part of the hits by score.** -/
theorem window_split (hits : List Hit) (options : RerankOptions) :
    ∃ front back, sortHits hits = front ++ back ∧
      resolveHexisReorderWindow hits options = front.map Hit.id := by
  let admits (e : Hit × Nat) : Bool := decide (e.2 < rankWindow options) ||
    decide (scoreAt (sortHits hits) (min (sortHits hits).length (rankWindow options) - 1) -
      max 0 (options.scoreEpsilon.getD defaultScoreEpsilon) ≤ e.1.score)
  have hfalls : (sortHits hits).zipIdx.Pairwise fun x y => admits y = true → admits x = true := by
    have hscores := pairwise_iff_getElem.mp (pairwise_sortHits hits)
    rw [pairwise_iff_getElem]
    intro i j hi hj hij hadmits
    rw [length_zipIdx] at hi hj
    have hle := hscores i j hi hj hij
    simp only [admits, getElem_zipIdx, Nat.zero_add, Bool.or_eq_true, decide_eq_true_eq] at hadmits ⊢
    -- the earlier hit has the lower rank, and at least the score
    rcases hadmits with hrank | hscore
    · exact .inl (hij.trans hrank)
    · exact .inr (hscore.trans hle)
  have hsplit := Sorted.filter_append_filter hfalls
  refine ⟨((sortHits hits).zipIdx.filter admits).map Prod.fst,
    ((sortHits hits).zipIdx.filter fun e => !admits e).map Prod.fst, ?_, ?_⟩
  · rw [← map_append, hsplit, zipIdx_map_fst]
  · rw [map_map]
    rfl

/-! ### Rescored hits -/

/-- A rescoring that lifts hits of a window only. -/
structure Lifts (window : List String) (f : Hit → Hit) : Prop where
  id_eq : ∀ hit, (f hit).id = hit.id
  le : ∀ hit, hit.score ≤ (f hit).score
  outside_eq : ∀ hit, hit.id ∉ window → (f hit).score = hit.score

section
variable {window : List String} {f : Hit → Hit}

theorem Lifts.map_id (h : Lifts window f) (hits : List Hit) :
    (hits.map f).map Hit.id = hits.map Hit.id := by
  rw [map_map]
  exact map_congr_left fun hit _ => h.id_eq hit

theorem pairwise_lifted {back : List Hit} (hsame : ∀ hit ∈ back, (f hit).score = hit.score)
    (h : back.Pairwise fun a b => b.score ≤ a.score) :
    (back.map f).Pairwise fun a b => b.score ≤ a.score := by
  refine pairwise_map.mpr (h.imp_of_mem fun ha hb hle => ?_)
  rw [hsame _ ha, hsame _ hb]
  exact hle

/-- **Hits lifted in a window are sorted within it.** -/
theorem sortHits_lifted {front back : List Hit} (hlifts : Lifts window f)
    (hback : ∀ hit ∈ back, hit.id ∉ window)
    (hsorted : (front ++ back).Pairwise fun a b => b.score ≤ a.score) :
    sortHits ((front ++ back).map f) = sortHits (front.map f) ++ back.map f := by
  obtain ⟨-, hsortedBack, hcross⟩ := pairwise_append.mp hsorted
  have hsame : ∀ hit ∈ back, (f hit).score = hit.score := fun hit hhit =>
    hlifts.outside_eq hit (hback hit hhit)
  have hahead : ∀ x ∈ front.map f, ∀ y ∈ back.map f, y.score ≤ x.score := by
    intro x hx y hy
    obtain ⟨a, ha, rfl⟩ := mem_map.mp hx
    obtain ⟨b, hb, rfl⟩ := mem_map.mp hy
    calc (f b).score = b.score := hsame b hb
      _ ≤ a.score := hcross a ha b hb
      _ ≤ (f a).score := hlifts.le a
  have hrest : sortHits (back.map f) = back.map f :=
    sortHits_of_pairwise (pairwise_lifted hsame hsortedBack)
  rw [map_append]
  unfold sortHits at hrest ⊢
  rw [Sorted.insertionSort_append hahead, hrest]

/-- **What is lifted in a first part of the hits by score stays in that part.** -/
theorem confined_of_lifts {front back : List Hit} (hids : (hits.map Hit.id).Nodup)
    (hsplit : sortHits hits = front ++ back) (hwindow : window = front.map Hit.id)
    (hlifts : Lifts window f) : Confined window hits (sortHits ((sortHits hits).map f)) := by
  have hnodup : (front.map Hit.id ++ back.map Hit.id).Nodup := by
    rw [← map_append, ← hsplit]
    exact ((perm_sortHits hits).map Hit.id).nodup_iff.mpr hids
  have hback : ∀ id ∈ back.map Hit.id, id ∉ window := by
    intro id hid hmem
    rw [hwindow] at hmem
    exact (nodup_append.mp hnodup).2.2 id hmem id hid rfl
  have hfront : ∀ id ∈ (sortHits (front.map f)).map Hit.id, id ∈ window := by
    intro id hid
    have hmem := ((perm_sortHits (front.map f)).map Hit.id).mem_iff.mp hid
    rwa [hlifts.map_id, ← hwindow] at hmem
  have hmapped : (sortHits ((sortHits hits).map f)).map Hit.id =
      (sortHits (front.map f)).map Hit.id ++ back.map Hit.id := by
    have hsorted := pairwise_sortHits hits
    rw [hsplit] at hsorted ⊢
    rw [sortHits_lifted hlifts (fun hit hhit => hback hit.id (mem_map_of_mem hhit)) hsorted,
      map_append, hlifts.map_id]
  refine ⟨?_, ?_, ?_, ?_⟩
  · have hperm := (perm_sortHits ((sortHits hits).map f)).map Hit.id
    rw [hlifts.map_id] at hperm
    exact hperm.trans ((perm_sortHits hits).map Hit.id)
  · intro out hout
    obtain ⟨hit, hhit, rfl⟩ := mem_map.mp ((perm_sortHits _).mem_iff.mp hout)
    refine ⟨hit, (perm_sortHits hits).mem_iff.mp hhit, (hlifts.id_eq hit).symm, hlifts.le hit, ?_⟩
    rw [hlifts.id_eq]
    exact hlifts.outside_eq hit
  · -- neither first part has ids outside the window
    have hnone : ((sortHits (front.map f)).map Hit.id).filter (fun id => id ∉ window) = [] :=
      filter_eq_nil_iff.mpr fun id hid => by simpa using hfront id hid
    have hnone' : (front.map Hit.id).filter (fun id => id ∉ window) = [] :=
      filter_eq_nil_iff.mpr fun id hid => by simpa [hwindow] using hid
    rw [hmapped, hsplit, map_append, filter_append, filter_append, hnone, hnone']
  · rw [hmapped]
    refine pairwise_append.mpr ⟨?_, ?_, fun x hx _ _ _ => hfront x hx⟩
    · exact pairwise_of_forall_mem_list fun x hx _ _ _ => hfront x hx
    · exact pairwise_of_forall_mem_list fun _ _ y hy hin => absurd hin (hback y hy)

end

/-! ### The boost -/

theorem clamp_nonneg (x : ℚ) : 0 ≤ Score.clamp x := le_max_left 0 _

theorem clamp_le_one (x : ℚ) : Score.clamp x ≤ 1 := max_le zero_le_one (min_le_left 1 x)

theorem ambiguityGate_nonneg (n : Nat) (epsilon : ℚ) : 0 ≤ computeAmbiguityGate env hits n epsilon := by
  unfold computeAmbiguityGate
  simp only
  split_ifs
  all_goals first | exact zero_le_one | exact le_rfl | exact clamp_nonneg _

theorem calibHexisFit_nonneg (hcalib : env.CalibUnit) (fit : ℚ) : 0 ≤ calibHexisFit env fit := by
  unfold calibHexisFit
  split
  · exact clamp_nonneg fit
  · exact (hcalib _ (clamp_nonneg fit) (clamp_le_one fit)).1

theorem boost_nonneg (hcalib : env.CalibUnit) {pass : Pass} (hgate : 0 ≤ pass.gate)
    (hlambda : 0 ≤ pass.lambda) (hexis : HexisState) (hit : Hit) :
    0 ≤ boost env hexis pass hit := by
  have hfit := calibHexisFit_nonneg hcalib (scoreHexisFit env hit hexis).1
  have hmatch := clamp_nonneg hexis.hexisMatch
  unfold boost
  split
  · exact le_rfl
  · positivity

theorem boost_of_gate_eq_zero {pass : Pass} (hgate : pass.gate = 0) (hexis : HexisState) (hit : Hit) :
    boost env hexis pass hit = 0 := by
  simp [boost, hgate]

theorem id_rescored (hexis : HexisState) (pass : Pass) (hit : Hit) :
    (rescored env hexis pass hit).id = hit.id := by
  unfold rescored
  split <;> rfl

theorem score_rescored (hexis : HexisState) (pass : Pass) (hit : Hit) :
    (rescored env hexis pass hit).score =
      hit.score + if hit.id ∈ pass.admissibleIds then boost env hexis pass hit else 0 := by
  by_cases hmem : hit.id ∈ pass.admissibleIds
  · simp [rescored, hmem, inside]
  · simp [rescored, hmem, outside]

theorem lifts_rescored (hcalib : env.CalibUnit) {pass : Pass} (hgate : 0 ≤ pass.gate)
    (hlambda : 0 ≤ pass.lambda) (hexis : HexisState) :
    Lifts pass.admissibleIds (rescored env hexis pass) where
  id_eq := id_rescored hexis pass
  le hit := by
    rw [score_rescored]
    have hboost := boost_nonneg hcalib hgate hlambda hexis hit
    split <;> linarith
  outside_eq hit hout := by rw [score_rescored, if_neg hout, add_zero]

theorem defaultGateEpsilon_nonneg : 0 ≤ defaultGateEpsilon := by
  norm_num [defaultGateEpsilon]

/-! ### Applied -/

/-- **Where Hexis is applied, the hits by score are lifted in the window, and sorted.** -/
theorem applied_cases (hcalib : env.CalibUnit) (hlambda : 0 ≤ policy.hexisLambda)
    (happlied : Applied env hits hexis policy) :
    ∃ f, (applyHexisByPolicy env hits hexis policy).hits = sortHits ((sortHits hits).map f) ∧
      Lifts (policy.window hits) f ∧
      (policy.ambiguity env hits = 0 ∨ hexis.any hasHexisSignal = false →
        ∀ hit, (f hit).score = hit.score) := by
  obtain ⟨hsome, hgate⟩ := happlied
  obtain ⟨state, rfl⟩ := Option.isSome_iff_exists.mp hsome
  by_cases hzero : policy.hexisLambda = 0
  · simp [applyHexisByPolicy, hzero] at hgate
  · have henabled : (evaluateHexisGate hits policy).enabled = true := by
      by_contra hoff
      rw [Bool.not_eq_true] at hoff
      simp [applyHexisByPolicy, hzero, hoff] at hgate
    have hresult : (applyHexisByPolicy env hits (some state) policy).hits =
        sortHits (applyHexisToHits env (sortHits hits) (some state) policy.options) := by
      simp [applyHexisByPolicy, hzero, henabled]
    rw [hresult]
    have hlane : policy.options.lambda.getD defaultLambda = policy.hexisLambda := rfl
    cases hsignal : hasHexisSignal state with
    | false =>
        refine ⟨unsignalled (sortHits hits) policy.hexisLambda, ?_, ⟨fun _ => rfl, fun _ => le_rfl,
          fun _ _ => rfl⟩, fun _ _ => rfl⟩
        have hlaneLambda : policy.options.laneLambda = none := rfl
        simp [applyHexisToHits, hlaneLambda, hlane, hzero, hsignal]
    | true =>
        let pass : Pass :=
          { sorted := sortHits hits
            boundaryGap := if rankWindow policy.options + 1 ≤ (sortHits hits).length then
              boundaryGapAt (sortHits hits) (rankWindow policy.options) else 0
            gate := policy.ambiguity env hits
            admissibleIds := policy.window hits
            lambda := policy.hexisLambda
            laneLambda := policy.hexisLambda }
        have hgate₀ : 0 ≤ pass.gate := ambiguityGate_nonneg _ _
        refine ⟨rescored env state pass, ?_, lifts_rescored hcalib hgate₀ hlambda state, ?_⟩
        · have hlaneLambda : policy.options.laneLambda = none := rfl
          have hgateEpsilon : max 0 (policy.options.gateEpsilon.getD defaultGateEpsilon) =
              defaultGateEpsilon := max_eq_right defaultGateEpsilon_nonneg
          have hwindow : resolveHexisReorderWindow hits policy.options = policy.window hits := rfl
          simp only [applyHexisToHits, hlaneLambda, hlane, Option.getD_none, if_neg hzero, hsignal,
            sortHits_sortHits, window_sortHits, ambiguity_sortHits, hgateEpsilon, hwindow]
          rfl
        · intro hlevel hit
          rcases hlevel with hlevel | hlevel
          · rw [score_rescored, boost_of_gate_eq_zero hlevel, ite_self, add_zero]
          · rw [Option.any_some, hsignal] at hlevel
            cases hlevel

/-- Where it is not, ids and scores are as they came. -/
theorem given_of_not_applied (h : ¬Applied env hits hexis policy) :
    (applyHexisByPolicy env hits hexis policy).hits.map (fun hit => (hit.id, hit.score)) =
      hits.map fun hit => (hit.id, hit.score) := by
  by_cases hzero : policy.hexisLambda = 0
  · simp [applyHexisByPolicy, hzero, bypassed, Function.comp_def]
  · cases hexis with
    | none => simp [applyHexisByPolicy, hzero]
    | some state =>
        cases henabled : (evaluateHexisGate hits policy).enabled with
        | false => simp [applyHexisByPolicy, hzero, henabled]
        | true =>
            refine absurd ⟨rfl, ?_⟩ h
            simp [applyHexisByPolicy, hzero, henabled]

/-- **Hexis reorders the hits of its window, and those only.** -/
theorem applyHexisByPolicy_confined (hcalib : env.CalibUnit) (hlambda : 0 ≤ policy.hexisLambda)
    (hids : (hits.map Hit.id).Nodup) :
    ConfinedByPolicy env hits hexis policy (applyHexisByPolicy env hits hexis policy).hits where
  confined happlied := by
    obtain ⟨f, hresult, hlifts, -⟩ := applied_cases hcalib hlambda happlied
    obtain ⟨front, back, hsplit, hwindow⟩ := window_split hits policy.windowOptions
    rw [hresult]
    exact confined_of_lifts hids hsplit hwindow hlifts
  level happlied hquiet := by
    obtain ⟨f, hresult, hlifts, hlevel⟩ := applied_cases hcalib hlambda happlied
    have hsame : ∀ hit ∈ sortHits hits, (f hit).score = hit.score := fun hit _ => hlevel hquiet hit
    rw [hresult, sortHits_of_pairwise (pairwise_lifted hsame (pairwise_sortHits hits)),
      hlifts.map_id]
  given := given_of_not_applied

/-- An environment that knows ASCII, and takes the curve for a line. -/
def plainEnv : Env where
  unicode := .ascii
  logistic x := x

/-- An agent that works on a deploy. -/
def deployHexis : HexisState where
  id := "h1"
  label := "deploy"
  goals := ["deploy"]

/-- An agent of which nothing but a label is known. -/
def idleHexis : HexisState where
  id := "h2"
  label := "idle"

/-- A policy that reorders the first three hits. -/
def topPolicy : LanePolicy where
  enabled := true
  reorderWindow := 3
  scoreEpsilon := 0
  ambiguityThreshold := 1 / 10
  hexisLambda := 1

/-- Three hits, of which the second and the third fit a deploy. -/
def deployHits : List Hit :=
  [{ id := "A", text := "billing", score := 9 / 10 }, { id := "B", text := "deploy", score := 8 / 10 },
    { id := "C", text := "deploy", score := 1 / 10 }]

theorem applyHexisByPolicy_confined_deploy : ConfinedByPolicy plainEnv deployHits (some deployHexis)
    topPolicy (applyHexisByPolicy plainEnv deployHits (some deployHexis) topPolicy).hits :=
  applyHexisByPolicy_confined (fun _ h₀ h₁ => ⟨h₀, h₁⟩) (by decide +kernel) (by decide +kernel)

/-- Two hits, the worse first. -/
def risingHits : List Hit :=
  [{ id := "A", text := "billing", score := 1 / 10 }, { id := "B", text := "deploy", score := 9 / 10 }]

/-- **Behind a gate that is not enabled, hits are returned in the order they came in.** -/
theorem rising_hits_kept : hasHexisSignal idleHexis = false ∧
    (applyHexisByPolicy plainEnv risingHits (some idleHexis) topPolicy).hits.map Hit.id = ["A", "B"] ∧
    (sortHits risingHits).map Hit.id = ["B", "A"] := by
  decide +kernel

end Runir.Recall.Hexis
