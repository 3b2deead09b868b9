import Runir.Recall.Selection
import Runir.Recall.SessionOpener

/-!
# Recall — What fits a budget

`fitCompactionProjectionToBudget` of `src/recall/continuity/compaction-projection.ts`, and what it
and `fitSelectionToBudget` keep.

* `longestFit`: the deepest rung that takes all of a selection, or else the longest front of it.
* `longestProjection`: the longest front whose projection fits.
* `budget_longest`: both.
-/

namespace Runir.Recall
open List

/-! ### The projection -/

/-- `CompactionProjectionFitParams`; a budget that is no finite number is absent. -/
structure CompactionProjectionFitParams where
  projectState : Option ProjectStateRecord := none
  hits : List SearchHit
  requestedPath : Option String := none
  usedPathFallback : Bool := false
  profile : CompactionProjectionProfile
  intentDepth : RecallDepth
  budgetTokens : Option ℚ := none

structure CompactionProjectionFitResult where
  payload : Option SessionOpenerPayload
  keptHits : List SearchHit
  prependContext : Option (List Char)
  budgetFit : Option RecallBudgetFitAudit

namespace CompactionProjectionFitParams
variable (params : CompactionProjectionFitParams) (host : Host)

/-- The payload of some hits, in `buildAndRender`. -/
def payloadOf (hits : List SearchHit) : Option SessionOpenerPayload :=
  buildSessionOpenerPayload params.projectState hits [] params.requestedPath params.usedPathFallback

/-- The injection of some hits, in `buildAndRender`. -/
def injectionOf (hits : List SearchHit) : Option (List Char) :=
  (params.payloadOf hits).map fun payload =>
    formatCompactionProjectionInjection host payload params.profile

def tokensOf (hits : List SearchHit) : Nat :=
  ((params.injectionOf host hits).map approximateTokens).getD 0

/-- What is returned with the first `n` hits kept. -/
def keeping (budget n : Nat) : CompactionProjectionFitResult :=
  let kept := params.hits.take n
  let droppedIds := (params.hits.drop n).map SearchHit.id
  { payload := params.payloadOf kept
    keptHits := kept
    prependContext := params.injectionOf host kept
    budgetFit := some ⟨budget, params.tokensOf host kept, params.intentDepth,
      !droppedIds.isEmpty, droppedIds⟩ }

/-- What is returned where even nothing kept is over the budget. -/
def emptied (budget : Nat) : CompactionProjectionFitResult where
  payload := none
  keptHits := []
  prependContext := none
  budgetFit := some ⟨budget, 0, params.intentDepth, true, params.hits.map SearchHit.id⟩

/-- The rounds of the loop, with so many hits left. -/
def fitFrom (budget : Nat) : Nat → CompactionProjectionFitResult
  | 0 =>
      if params.tokensOf host [] ≤ budget then params.keeping host budget 0
      else params.emptied budget
  | n + 1 =>
      if params.tokensOf host (params.hits.take (n + 1)) ≤ budget then
        params.keeping host budget (n + 1)
      else fitFrom budget n

end CompactionProjectionFitParams

def fitCompactionProjectionToBudget (host : Host) (params : CompactionProjectionFitParams) :
    CompactionProjectionFitResult :=
  match resolveBudgetTokens params.budgetTokens with
  | none =>
      { payload := params.payloadOf params.hits
        keptHits := params.hits
        prependContext := params.injectionOf host params.hits
        budgetFit := none }
  | some budget => params.fitFrom host budget params.hits.length

/-! ### The selection fits -/

/-- What a front of a selection costs at a depth. -/
def costAt (depth : RecallDepth) (hits : List SearchHit) : Nat :=
  wrappedInjectionTokens (hits.map (renderHit depth))

/-- What holds of a selection that was fitted to a budget. -/
structure LongestFit (selected : List SearchHit) (intentDepth : RecallDepth) (budgetTokens : Nat)
    (fit : BudgetFit) : Prop where
  front : fit.selected <+: selected
  dropped : fit.selected.map SearchHit.id ++ fit.budgetFit.droppedIds = selected.map SearchHit.id
  rendered : fit.renderedText = fit.selected.map (renderHit fit.budgetFit.depth)
  ceiling : ∀ wrapped, formatRecallInjectionFromRendered (fit.renderedText.map String.toList) =
    some wrapped → approximateTokens wrapped ≤ budgetTokens
  /-- Where a rung takes all hits, the deepest one does. -/
  deepest : (∃ depth ∈ budgetDepthLadder intentDepth, costAt depth selected ≤ budgetTokens) →
    fit.selected = selected ∧ ∃ deeper shallower,
      budgetDepthLadder intentDepth = deeper ++ fit.budgetFit.depth :: shallower ∧
        costAt fit.budgetFit.depth selected ≤ budgetTokens ∧
          ∀ depth ∈ deeper, budgetTokens < costAt depth selected
  /-- Where none does, the shallowest rung takes as many as it can. -/
  longest : (∀ depth ∈ budgetDepthLadder intentDepth, budgetTokens < costAt depth selected) →
    (budgetDepthLadder intentDepth).getLast? = some fit.budgetFit.depth ∧
      ∀ front, front <+: selected → costAt fit.budgetFit.depth front ≤ budgetTokens →
        front <+: fit.selected

theorem tokens_le_of_wrapped {renderedLines : List String} {budgetTokens : Nat}
    (h : wrappedInjectionTokens renderedLines ≤ budgetTokens) (wrapped : List Char)
    (hwrapped : formatRecallInjectionFromRendered (renderedLines.map String.toList) = some wrapped) :
    approximateTokens wrapped ≤ budgetTokens := by
  rw [wrappedInjectionTokens, hwrapped] at h
  exact h

theorem costAt_nil (depth : RecallDepth) : costAt depth [] = 0 := rfl

/-- The tail is dropped up to the longest front that fits. -/
theorem fittingLength_spec (depth : RecallDepth) (budgetTokens : Nat) (hits : List SearchHit)
    (n : Nat) :
    costAt depth (hits.take (fittingLength depth budgetTokens hits n)) ≤ budgetTokens ∧
      ∀ m ≤ n, costAt depth (hits.take m) ≤ budgetTokens →
        m ≤ fittingLength depth budgetTokens hits n := by
  induction n with
  | zero =>
      refine ⟨?_, fun m hm _ => hm⟩
      rw [fittingLength, take_zero, costAt_nil]
      exact Nat.zero_le _
  | succ n ih =>
      rw [fittingLength]
      split
      · next hover =>
          refine ⟨ih.1, fun m hm hfits => ?_⟩
          rcases Nat.lt_or_eq_of_le hm with hlt | rfl
          · exact ih.2 m (Nat.le_of_lt_succ hlt) hfits
          · exact absurd hfits (Nat.not_le_of_lt hover)
      · next hfits => exact ⟨Nat.le_of_not_lt hfits, fun m hm _ => hm⟩

theorem getLast_ladder (depth : RecallDepth) : (budgetDepthLadder depth).getLast? = some .l0 := by
  cases depth with
  | l0 => rfl
  | l1 => rfl
  | full => rfl

theorem longestFit (selected : List SearchHit) (intentDepth : RecallDepth) (budgetTokens : Nat) :
    LongestFit selected intentDepth budgetTokens
      (fitSelectionToBudget selected intentDepth budgetTokens) := by
  unfold fitSelectionToBudget
  dsimp only
  split
  · next depth hfind =>
      obtain ⟨hfits, deeper, shallower, hladder, hover⟩ := find?_eq_some_iff_append.mp hfind
      rw [decide_eq_true_eq] at hfits
      have hdeeper : ∀ d ∈ deeper, budgetTokens < costAt d selected := by
        intro d hd
        have hd' := hover d hd
        rw [Bool.not_eq_true', decide_eq_false_iff_not] at hd'
        exact Nat.lt_of_not_le hd'
      exact
        { front := prefix_rfl
          dropped := append_nil _
          rendered := rfl
          ceiling := tokens_le_of_wrapped hfits
          deepest := fun _ => ⟨rfl, deeper, shallower, hladder, hfits, hdeeper⟩
          longest := fun hnone => by
            have hmem : depth ∈ budgetDepthLadder intentDepth :=
              hladder ▸ mem_append_right _ mem_cons_self
            exact absurd hfits (Nat.not_le_of_lt (hnone depth hmem)) }
  · next hfind =>
      obtain ⟨hkept, hmost⟩ := fittingLength_spec .l0 budgetTokens selected selected.length
      refine
        { front := take_prefix _ _
          dropped := ?_
          rendered := rfl
          ceiling := tokens_le_of_wrapped hkept
          deepest := ?_
          longest := fun _ => ⟨getLast_ladder intentDepth, ?_⟩ }
      · rw [← map_append]
        congr 1
        exact prefix_iff_eq_append.mp <| take_prefix _ _
      · rintro ⟨depth, hmem, hfits⟩
        have hover := find?_eq_none.mp hfind depth hmem
        rw [decide_eq_true_eq] at hover
        exact absurd hfits hover
      · intro front hfront hfits
        have hfront' := prefix_iff_eq_take.mp hfront
        rw [hfront'] at hfits ⊢
        exact take_prefix_take_left (hmost _ hfront.length_le hfits)

/-! ### The projection fits -/

/-- What holds of a projection that was fitted to a budget. -/
structure LongestProjection (host : Host) (params : CompactionProjectionFitParams) (budget : Nat)
    (result : CompactionProjectionFitResult) : Prop where
  front : result.keptHits <+: params.hits
  dropped : ∃ fit, result.budgetFit = some fit ∧
    result.keptHits.map SearchHit.id ++ fit.droppedIds = params.hits.map SearchHit.id
  /-- What is shown is the projection of what is kept, and fits. -/
  shown : ∀ payload ∈ result.payload, params.payloadOf result.keptHits = some payload ∧
    result.prependContext = some (formatCompactionProjectionInjection host payload params.profile)
  ceiling : ∀ injection ∈ result.prependContext, approximateTokens injection ≤ budget
  /-- A front whose projection fits is kept, and a payload shown. -/
  longest : ∀ front, front <+: params.hits → ∀ injection ∈ params.injectionOf host front,
    approximateTokens injection ≤ budget → front <+: result.keptHits ∧ result.payload.isSome = true

section
variable {host : Host} {params : CompactionProjectionFitParams} {budget : Nat}

theorem tokensOf_of_injection {hits : List SearchHit} {injection : List Char}
    (h : params.injectionOf host hits = some injection) :
    params.tokensOf host hits = approximateTokens injection := by
  rw [CompactionProjectionFitParams.tokensOf, h]
  rfl

/-- There is a projection where there is something to say. -/
theorem isSome_payloadOf (hits : List SearchHit) :
    (params.payloadOf hits).isSome = (params.projectState.isSome || !hits.isEmpty) :=
  isSome_buildSessionOpenerPayload _ _ _ _

theorem isSome_payloadOf_of_injection {hits : List SearchHit} {injection : List Char}
    (h : params.injectionOf host hits = some injection) : (params.payloadOf hits).isSome = true := by
  obtain ⟨payload, hpayload, -⟩ := Option.map_eq_some_iff.mp h
  rw [hpayload]
  rfl

/-- What has a projection still has one with more hits. -/
theorem isSome_payloadOf_mono {front hits : List SearchHit} (hfront : front <+: hits)
    (h : (params.payloadOf front).isSome = true) : (params.payloadOf hits).isSome = true := by
  rw [isSome_payloadOf] at h ⊢
  cases hstate : params.projectState.isSome with
  | true => rfl
  | false =>
      rw [hstate, Bool.false_or, Bool.not_eq_true', isEmpty_eq_false_iff] at h
      rw [Bool.false_or, Bool.not_eq_true', isEmpty_eq_false_iff]
      rintro rfl
      exact h (prefix_nil.mp hfront)

/-- The hits kept so far fit, and no longer front does. -/
theorem longest_keeping {n : Nat} (hfits : params.tokensOf host (params.hits.take n) ≤ budget)
    (hover : ∀ m, n < m → m ≤ params.hits.length →
      budget < params.tokensOf host (params.hits.take m)) :
    LongestProjection host params budget (params.keeping host budget n) := by
  refine
    { front := take_prefix _ _
      dropped := ⟨_, rfl, ?_⟩
      shown := fun payload hpayload => ⟨hpayload, ?_⟩
      ceiling := ?_
      longest := ?_ }
  · simp only [CompactionProjectionFitParams.keeping]
    rw [← map_append, take_append_drop]
  · have hkept : params.payloadOf (params.hits.take n) = some payload := hpayload
    simp only [CompactionProjectionFitParams.keeping, CompactionProjectionFitParams.injectionOf,
      hkept, Option.map_some]
  · intro injection hinjection
    rw [← tokensOf_of_injection hinjection]
    exact hfits
  · intro front hfront injection hinjection hle
    have htake := prefix_iff_eq_take.mp hfront
    have hkept : front <+: params.hits.take n := by
      rw [htake]
      refine take_prefix_take_left (Nat.le_of_not_lt fun hlonger => ?_)
      have hcosts := hover front.length hlonger hfront.length_le
      rw [← htake, tokensOf_of_injection hinjection] at hcosts
      exact absurd hle (Nat.not_le_of_lt hcosts)
    exact ⟨hkept, isSome_payloadOf_mono hkept (isSome_payloadOf_of_injection hinjection)⟩

/-- No front fits, not even the empty one. -/
theorem longest_emptied
    (hover : ∀ m, m ≤ params.hits.length → budget < params.tokensOf host (params.hits.take m)) :
    LongestProjection host params budget (params.emptied budget) where
  front := nil_prefix
  dropped := ⟨_, rfl, rfl⟩
  shown := by
    intro payload h
    cases h
  ceiling := by
    intro injection h
    cases h
  longest := by
    intro front hfront injection hinjection hle
    have hcosts := hover front.length hfront.length_le
    rw [← prefix_iff_eq_take.mp hfront, tokensOf_of_injection hinjection] at hcosts
    exact absurd hle (Nat.not_le_of_lt hcosts)

/-- The rounds of the loop: what has been tried was over the budget. -/
theorem longest_fitFrom (n : Nat) (hover : ∀ m, n < m → m ≤ params.hits.length →
      budget < params.tokensOf host (params.hits.take m)) :
    LongestProjection host params budget (params.fitFrom host budget n) := by
  induction n with
  | zero =>
      rw [CompactionProjectionFitParams.fitFrom]
      split
      · next hfits => exact longest_keeping hfits hover
      · next hcosts =>
          refine longest_emptied fun m hm => ?_
          rcases Nat.eq_zero_or_pos m with rfl | hpos
          · exact Nat.lt_of_not_le hcosts
          · exact hover m hpos hm
  | succ n ih =>
      rw [CompactionProjectionFitParams.fitFrom]
      split
      · next hfits => exact longest_keeping hfits hover
      · next hcosts =>
          refine ih fun m hlt hm => ?_
          rcases Nat.eq_or_lt_of_le (Nat.succ_le_of_lt hlt) with rfl | hlt'
          · exact Nat.lt_of_not_le hcosts
          · exact hover m hlt' hm

theorem longestProjection (hbudget : resolveBudgetTokens params.budgetTokens = some budget) :
    LongestProjection host params budget (fitCompactionProjectionToBudget host params) := by
  rw [fitCompactionProjectionToBudget, hbudget]
  exact longest_fitFrom _ fun m hlt hle => absurd hle (Nat.not_le_of_lt hlt)

end

/-! ### Both -/

/-- **A budget is a ceiling, and what fits under it is kept.** -/
theorem budget_longest (selected : List SearchHit) (intentDepth : RecallDepth) (budgetTokens : Nat)
    (host : Host) (params : CompactionProjectionFitParams) (budget : Nat)
    (hbudget : resolveBudgetTokens params.budgetTokens = some budget) :
    LongestFit selected intentDepth budgetTokens
        (fitSelectionToBudget selected intentDepth budgetTokens) ∧
      LongestProjection host params budget (fitCompactionProjectionToBudget host params) :=
  ⟨longestFit selected intentDepth budgetTokens, longestProjection hbudget⟩

/-- A handoff, before a compaction. -/
def handoffProjection (budgetTokens : ℚ) : CompactionProjectionFitParams where
  hits := [{ id := "handoff", text := "resume here", score := some 1 }]
  profile := .pre
  intentDepth := .full
  budgetTokens := some budgetTokens

theorem budget_longest_handoff :
    resolveBudgetTokens (handoffProjection 60).budgetTokens = some 60 ∧
      LongestFit (handoffProjection 60).hits .full 60
          (fitSelectionToBudget (handoffProjection 60).hits .full 60) ∧
        LongestProjection .ascii (handoffProjection 60) 60
          (fitCompactionProjectionToBudget .ascii (handoffProjection 60)) :=
  ⟨by decide +kernel, budget_longest _ .full 60 .ascii _ 60 (by decide +kernel)⟩

end Runir.Recall
