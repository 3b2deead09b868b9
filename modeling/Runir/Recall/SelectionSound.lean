import Mathlib.Data.List.Perm.Subperm
import Runir.Recall.Selection

/-!
# Recall — What is selected

Every stage hands on hits it was handed, with another score or a role written in at most: `Drawn`.
What a hit says, its path and its client can so be followed back to what was retrieved.

* `drawn_candidatePool`, `drawn_rankedSelection`: the stages, one after the other.
* `postProcess_sound`: what holds of every result.
* `budget_cuts_primary`: the budget may cut the only hit of a primary kind.
-/

namespace Runir.Recall
open List

/-! ### Drawing hits -/

/-- A hit without its score and its role. -/
def SearchHit.core (hit : SearchHit) : SearchHit := { hit with score := none, memoryRole := none }

theorem core_rescored (c : Prop) [Decidable c] (hit : SearchHit) (score : Score) :
    (if c then { hit with score := score } else hit).core = hit.core := by
  split
  · rfl
  · rfl

/-- Each of these hits is one of those, no two the same one. -/
def Drawn (drawn hits : List SearchHit) : Prop :=
  drawn.map SearchHit.core <+~ hits.map SearchHit.core

namespace Drawn
variable {hits hits' hits'' : List SearchHit}

theorem refl (hits : List SearchHit) : Drawn hits hits := Subperm.refl _

theorem trans (h : Drawn hits hits') (h' : Drawn hits' hits'') : Drawn hits hits'' :=
  Subperm.trans h h'

theorem of_perm (h : hits ~ hits') : Drawn hits hits' := (h.map _).subperm

theorem of_sublist (h : hits <+ hits') : Drawn hits hits' := (h.map _).subperm

theorem of_subperm (h : hits <+~ hits') : Drawn hits hits' := by
  obtain ⟨l, hperm, hsub⟩ := h
  exact (of_perm hperm.symm).trans (of_sublist hsub)

theorem of_map {rescore : SearchHit → SearchHit} (h : ∀ hit, (rescore hit).core = hit.core)
    (hits : List SearchHit) : Drawn (hits.map rescore) hits := by
  have hcore : (hits.map rescore).map SearchHit.core = hits.map SearchHit.core := by
    rw [map_map]
    exact map_congr_left fun hit _ => h hit
  rw [Drawn, hcore]

theorem sortByScore (hits : List SearchHit) : Drawn (sortByScore hits) hits :=
  of_perm (perm_insertionSort _ hits)

/-- A drawn hit is one of those it was drawn from. -/
theorem exists_core (h : Drawn hits hits') {hit : SearchHit} (hmem : hit ∈ hits) :
    ∃ hit' ∈ hits', hit'.core = hit.core :=
  mem_map.mp (h.subset (mem_map_of_mem hmem))

/-- What a hit keeps through the stages holds of the drawn ones too. -/
theorem forall_of_core {p : SearchHit → Prop} (hp : ∀ hit hit', hit.core = hit'.core → p hit → p hit')
    (h : Drawn hits hits') (hall : ∀ hit ∈ hits', p hit) : ∀ hit ∈ hits, p hit := by
  intro hit hmem
  obtain ⟨hit', hmem', hcore⟩ := h.exists_core hmem
  exact hp hit' hit hcore (hall hit' hmem')

theorem ids_nodup (h : Drawn hits hits') (hnodup : (hits'.map SearchHit.id).Nodup) :
    (hits.map SearchHit.id).Nodup := by
  obtain ⟨l, hperm, hsub⟩ := h
  have hids : ∀ hits : List SearchHit,
      (hits.map SearchHit.core).map SearchHit.id = hits.map SearchHit.id := by
    intro hits
    rw [map_map]
    rfl
  rw [← hids] at hnodup ⊢
  rw [← (hperm.map SearchHit.id).nodup_iff]
  exact hnodup.sublist (hsub.map SearchHit.id)

end Drawn

/-! ### Stages -/

variable {requestedPath : Option String}

section
variable {host : Host} {pow : ℚ → ℚ → ℚ} {now : Int} {hits : List SearchHit}

theorem drawn_demotion (label : QueryIntent) (profile : RankingProfile)
    (learnedNoiseIds : List String) :
    Drawn (applyStaleSignalDemotion hits label profile learnedNoiseIds).demoted hits := by
  unfold applyStaleSignalDemotion
  dsimp only
  split
  · exact .refl hits
  · exact (Drawn.sortByScore _).trans (.of_map (fun hit => core_rescored _ hit _) hits)

theorem drawn_recency (label : QueryIntent) :
    Drawn (applyRecencyPenaltyForStatus host now hits label) hits := by
  unfold applyRecencyPenaltyForStatus
  split
  · exact .refl hits
  · exact (Drawn.sortByScore _).trans (.of_map (fun hit => core_rescored _ hit _) hits)

theorem drawn_withoutIds (ids : List String) : Drawn (withoutIds ids hits) hits :=
  .of_sublist filter_sublist

theorem drawn_softScope (preferredClient : Option String) (mode : ClientScopeMode) :
    Drawn (applyPreferredClientSoftScope hits preferredClient mode) hits := by
  unfold applyPreferredClientSoftScope
  split
  · exact .refl hits
  · exact .refl hits
  · exact .of_sublist filter_sublist
  · refine (Drawn.sortByScore _).trans (.of_map (fun hit => ?_) hits)
    split
    · rfl
    · split
      · rfl
      · rfl

theorem drawn_status (requestedPath : Option String) :
    Drawn (rerankCurrentStatusHits host pow now
      (filterCurrentStatusCandidates hits requestedPath).selectedPool requestedPath) hits := by
  have hfilter : Drawn (filterCurrentStatusCandidates hits requestedPath).selectedPool hits := by
    unfold filterCurrentStatusCandidates
    dsimp only
    split
    · exact .of_sublist filter_sublist
    · exact .of_sublist filter_sublist
  refine Drawn.trans ((Drawn.of_perm (perm_insertionSort _ _)).trans (.of_map ?_ _)) hfilter
  exact fun _ => rfl

theorem underCaps_sublist (contract : AdmissibilityContractDefinition)
    (counts : RecallMemoryKind → Nat) (hits : List SearchHit) :
    underCaps contract counts hits <+ hits := by
  induction hits generalizing counts with
  | nil => exact Sublist.refl _
  | cons hit hits ih =>
      rw [underCaps]
      split
      · exact (ih counts).cons hit
      · exact (ih _).cons_cons hit

theorem drawn_shape_scoped (requestedPath : Option String)
    (contract : AdmissibilityContractDefinition) :
    Drawn (shapePolicyDrivenHits host pow now hits requestedPath contract)
      (hits.filter (isOnPath requestedPath)) := by
  unfold shapePolicyDrivenHits
  refine (Drawn.of_sublist (underCaps_sublist _ _ _)).trans ?_
  refine (Drawn.sortByScore _).trans (Drawn.trans (Drawn.of_map ?_ _) (.of_sublist filter_sublist))
  exact fun _ => rfl

theorem drawn_buildPool (selectorProfile : SelectorProfile)
    (requestedPath preferredClient : Option String) (mode : ClientScopeMode)
    (contract : Option AdmissibilityContractDefinition) :
    Drawn (buildCandidatePoolForSelectorProfile host pow now hits selectorProfile requestedPath
      preferredClient mode contract) (applyPreferredClientSoftScope hits preferredClient mode) := by
  have hshape : ∀ contract' : AdmissibilityContractDefinition,
      Drawn (shapePolicyDrivenHits host pow now
        (applyPreferredClientSoftScope hits preferredClient mode) requestedPath contract')
        (applyPreferredClientSoftScope hits preferredClient mode) := fun contract' =>
    (drawn_shape_scoped requestedPath contract').trans (.of_sublist filter_sublist)
  unfold buildCandidatePoolForSelectorProfile
  cases selectorProfile with
  | statusContinuity => exact drawn_status requestedPath
  | guidanceReference | workflowPosture | recentWork =>
      simp only
      split
      · exact hshape _
      · exact .refl _
  | mixedDefault => exact .refl _

/-! ### Paths and clients -/

theorem isOnPath_of_core (hit hit' : SearchHit)
    (hcore : hit.core = hit'.core) (h : isOnPath requestedPath hit = true) :
    isOnPath requestedPath hit' = true := by
  have hpath : hit'.path = hit.path := (congrArg SearchHit.path hcore).symm
  unfold isOnPath SearchHit.path? at *
  rw [hpath]
  exact h

/-- A profile whose contract wants a primary representative has a pool that keeps to the path. -/
theorem pool_onPath {selectorProfile : SelectorProfile} {requestedPath preferredClient : Option String}
    {mode : ClientScopeMode} {contract : Option AdmissibilityContractDefinition}
    (hprimary : primaryKindsForContract selectorProfile contract ≠ [])
    (hown : ∀ c, contract = some c →
      resolveAdmissibilityContractForSelectorProfile selectorProfile = some c) :
    ∀ hit ∈ buildCandidatePoolForSelectorProfile host pow now hits selectorProfile requestedPath
      preferredClient mode contract, isOnPath requestedPath hit = true := by
  have hshape : ∀ contract' : AdmissibilityContractDefinition,
      ∀ hit ∈ shapePolicyDrivenHits host pow now
        (applyPreferredClientSoftScope hits preferredClient mode) requestedPath contract',
        isOnPath requestedPath hit = true := fun contract' =>
    (drawn_shape_scoped requestedPath contract').forall_of_core isOnPath_of_core fun hit hmem =>
      (mem_filter.mp hmem).2
  have hresolved : contract.or (resolveAdmissibilityContractForSelectorProfile selectorProfile) =
      resolveAdmissibilityContractForSelectorProfile selectorProfile := by
    cases contract with
    | none => rfl
    | some c => exact (hown c rfl).symm
  unfold primaryKindsForContract at hprimary
  unfold buildCandidatePoolForSelectorProfile
  dsimp only at hprimary ⊢
  rw [hresolved] at hprimary ⊢
  cases selectorProfile with
  | statusContinuity => exact absurd (by simp [resolveAdmissibilityContractForSelectorProfile,
      statusContinuityContract]) hprimary
  | guidanceReference => exact hshape _
  | workflowPosture => exact hshape _
  | recentWork => exact hshape _
  | mixedDefault => exact absurd (by simp [resolveAdmissibilityContractForSelectorProfile]) hprimary

theorem client_of_core {preferred : String} (hit hit' : SearchHit) (hcore : hit.core = hit'.core)
    (h : hit.client = some preferred) : hit'.client = some preferred :=
  (congrArg SearchHit.client hcore).symm.trans h

theorem softScope_strict {preferredClient : Option String} {preferred : String}
    (hpreferred : preferredClient.filter Text.truthy = some preferred) :
    ∀ hit ∈ applyPreferredClientSoftScope hits preferredClient .strict,
      hit.client = some preferred := by
  intro hit hmem
  unfold applyPreferredClientSoftScope at hmem
  simp only [hpreferred] at hmem
  exact of_decide_eq_true (mem_filter.mp hmem).2

end

/-! ### The quota -/

theorem isOnPath_iff {requested : String}
    (hrequested : requestedPath.filter Text.truthy = some requested) (hit : SearchHit) :
    isOnPath requestedPath hit = true ↔ hit.path = some requested ∨ hit.path? = none := by
  unfold isOnPath
  simp only [hrequested, Bool.or_eq_true, decide_eq_true_iff, Option.isNone_iff_eq_none]

theorem path_of_truthy {requested : String}
    (hrequested : requestedPath.filter Text.truthy = some requested) {hit : SearchHit}
    (hpath : hit.path = some requested) : hit.path?.isNone = false := by
  have htruthy : Text.truthy requested = true := (Option.filter_eq_some_iff.mp hrequested).2
  rw [SearchHit.path?, hpath, Option.filter_some, if_pos htruthy]
  rfl

/-- What a quota takes out of the two buckets of a pool. -/
theorem selectPathScoped_subperm (pool : List SearchHit) (requestedPath : Option String)
    (topK : Nat) : selectPathScopedTopK pool requestedPath topK <+~ pool := by
  unfold selectPathScopedTopK
  split
  · exact (take_sublist topK pool).subperm
  · next requested hrequested =>
      dsimp only
      have hexact : ∀ n, (sortByScore (pool.filter fun hit => hit.path = some requested)).take n <+~
          pool.filter fun hit => hit.path = some requested := fun n =>
        (take_sublist n _).subperm.trans (perm_insertionSort _ _).subperm
      have hnull : ∀ n, (sortByScore (pool.filter fun hit => hit.path?.isNone)).take n <+~
          pool.filter fun hit => !decide (hit.path = some requested) := by
        intro n
        refine ((take_sublist n _).subperm.trans (perm_insertionSort _ _).subperm).trans ?_
        refine (monotone_filter_right pool fun hit hpath => ?_).subperm
        rw [Bool.not_eq_true', decide_eq_false_iff_not]
        intro hrequests
        rw [path_of_truthy hrequested hrequests] at hpath
        cases hpath
      exact (Subperm.append (hexact _) (hnull _)).trans (filter_append_perm _ pool).subperm

theorem selectPathScoped_length (pool : List SearchHit) (requestedPath : Option String)
    (topK : Nat) : (selectPathScopedTopK pool requestedPath topK).length ≤ topK := by
  unfold selectPathScopedTopK
  split
  · exact length_take_le topK pool
  · dsimp only
    rw [length_append, length_take, length_take]
    omega

theorem selectPathScoped_onPath (pool : List SearchHit) (requestedPath : Option String)
    (topK : Nat) :
    ∀ hit ∈ selectPathScopedTopK pool requestedPath topK, isOnPath requestedPath hit = true := by
  intro hit hmem
  unfold selectPathScopedTopK at hmem
  split at hmem
  · next hnone =>
      unfold isOnPath
      rw [hnone]
  · next requested hrequested =>
      rw [isOnPath_iff hrequested]
      dsimp only at hmem
      rcases mem_append.mp hmem with hmem | hmem
      · have hbucket := (mem_insertionSort _).mp (mem_of_mem_take hmem)
        exact Or.inl (of_decide_eq_true (mem_filter.mp hbucket).2)
      · have hbucket := (mem_insertionSort _).mp (mem_of_mem_take hmem)
        exact Or.inr (Option.isNone_iff_eq_none.mp (mem_filter.mp hbucket).2)

/-! ### The representative -/

section
variable (selected pool : List SearchHit) (selectorProfile : SelectorProfile)
  (contract : Option AdmissibilityContractDefinition) (topK : Nat)

/-- What `enforcePrimaryRepresentativeOnSelection` can do: leave the selection as it is, or put a
hit of the pool in front of the others. -/
theorem enforce_cases :
    enforcePrimaryRepresentativeOnSelection selected pool selectorProfile contract topK = selected ∧
        (primaryKindsForContract selectorProfile contract = [] ∨
          selected.any (isOfKind (primaryKindsForContract selectorProfile contract)) = true ∨
          ∀ hit ∈ pool,
            isOfKind (primaryKindsForContract selectorProfile contract) hit = false) ∨
      ∃ fallbackPrimary ∈ pool,
        primaryKindsForContract selectorProfile contract ≠ [] ∧
          isOfKind (primaryKindsForContract selectorProfile contract) fallbackPrimary = true ∧
          enforcePrimaryRepresentativeOnSelection selected pool selectorProfile contract topK =
            fallbackPrimary ::
              (selected.filter fun hit => hit.id ≠ fallbackPrimary.id).take (topK - 1) := by
  unfold enforcePrimaryRepresentativeOnSelection
  dsimp only
  split
  · next hnil => exact Or.inl ⟨rfl, Or.inl hnil⟩
  · next hne =>
      split
      · next hany => exact Or.inl ⟨rfl, Or.inr (Or.inl hany)⟩
      · split
        · next hnone =>
            refine Or.inl ⟨rfl, Or.inr (Or.inr fun hit hmem => ?_)⟩
            exact Bool.eq_false_of_not_eq_true (find?_eq_none.mp hnone hit hmem)
        · next fallbackPrimary hfound =>
            exact Or.inr ⟨fallbackPrimary, mem_of_find?_eq_some hfound, hne,
              find?_some hfound, rfl⟩

variable {selected pool}

theorem enforce_subperm (h : selected <+~ pool) :
    enforcePrimaryRepresentativeOnSelection selected pool selectorProfile contract topK <+~ pool := by
  rcases enforce_cases selected pool selectorProfile contract topK with
    ⟨heq, -⟩ | ⟨fallbackPrimary, hmem, -, -, heq⟩
  · rw [heq]
    exact h
  · rw [heq]
    have hfront : [fallbackPrimary] <+~ pool.filter fun hit => !decide (hit.id ≠ fallbackPrimary.id) := by
      rw [singleton_subperm_iff, mem_filter]
      exact ⟨hmem, by simp⟩
    have hrest : (selected.filter fun hit => hit.id ≠ fallbackPrimary.id).take (topK - 1) <+~
        pool.filter fun hit => hit.id ≠ fallbackPrimary.id :=
      (take_sublist _ _).subperm.trans (h.filter _)
    exact ((Subperm.append hfront hrest).trans perm_append_comm.subperm).trans
      (filter_append_perm _ pool).subperm

theorem enforce_length (hpos : 0 < topK) (h : selected.length ≤ topK) :
    (enforcePrimaryRepresentativeOnSelection selected pool selectorProfile contract topK).length ≤
      topK := by
  rcases enforce_cases selected pool selectorProfile contract topK with
    ⟨heq, -⟩ | ⟨fallbackPrimary, -, -, -, heq⟩
  · rw [heq]
    exact h
  · rw [heq, length_cons, length_take]
    omega

/-- What holds of the selection holds of the new one, where it holds of the pool a representative
comes from. -/
theorem enforce_forall {p : SearchHit → Prop} (h : ∀ hit ∈ selected, p hit)
    (hpool : primaryKindsForContract selectorProfile contract ≠ [] → ∀ hit ∈ pool, p hit) :
    ∀ hit ∈ enforcePrimaryRepresentativeOnSelection selected pool selectorProfile contract topK,
      p hit := by
  rcases enforce_cases selected pool selectorProfile contract topK with
    ⟨heq, -⟩ | ⟨fallbackPrimary, hmem, hne, -, heq⟩
  · rw [heq]
    exact h
  · rw [heq, forall_mem_cons]
    exact ⟨hpool hne _ hmem, fun hit hhit => h hit (mem_of_mem_filter (mem_of_mem_take hhit))⟩

theorem exists_primary_enforce
    (hpool : ∃ hit ∈ pool, isOfKind (primaryKindsForContract selectorProfile contract) hit = true) :
    ∃ hit ∈ enforcePrimaryRepresentativeOnSelection selected pool selectorProfile contract topK,
      isOfKind (primaryKindsForContract selectorProfile contract) hit = true := by
  obtain ⟨primary, hprimary, hkind⟩ := hpool
  rcases enforce_cases selected pool selectorProfile contract topK with
    ⟨heq, hnil | hany | hnone⟩ | ⟨fallbackPrimary, -, -, hfallback, heq⟩
  · rw [hnil] at hkind
    cases hkind
  · rw [heq]
    exact any_eq_true.mp hany
  · rw [hnone primary hprimary] at hkind
    cases hkind
  · rw [heq]
    exact ⟨fallbackPrimary, mem_cons_self, hfallback⟩

end

/-! ### The budget -/

theorem fit_front (selected : List SearchHit) (depth : RecallDepth) (budgetTokens : Nat) :
    (fitSelectionToBudget selected depth budgetTokens).selected <+: selected := by
  unfold fitSelectionToBudget
  dsimp only
  split
  · exact prefix_rfl
  · exact take_prefix _ _

/-- One depth for every line. -/
theorem fit_rendered (selected : List SearchHit) (depth : RecallDepth) (budgetTokens : Nat) :
    ∃ depth', (fitSelectionToBudget selected depth budgetTokens).renderedText =
      (fitSelectionToBudget selected depth budgetTokens).selected.map (renderHit depth') := by
  unfold fitSelectionToBudget
  dsimp only
  split
  · exact ⟨_, rfl⟩
  · exact ⟨_, rfl⟩

theorem fit_selected_of_droppedIds {selected : List SearchHit} {depth : RecallDepth}
    {budgetTokens : Nat}
    (h : (fitSelectionToBudget selected depth budgetTokens).budgetFit.droppedIds = []) :
    (fitSelectionToBudget selected depth budgetTokens).selected = selected := by
  unfold fitSelectionToBudget at h ⊢
  dsimp only at h ⊢
  split
  · rfl
  · next hnone =>
      simp only [hnone, map_eq_nil_iff, drop_eq_nil_iff] at h
      refine IsPrefix.eq_of_length_le ?_ h
      exact take_prefix _ _

/-! ### All stages -/

section
variable (host : Host) (pow : ℚ → ℚ → ℚ) (clock : Int) (hits : List SearchHit)
  (opts : PostProcessOpts)

theorem drawn_candidatePool : Drawn (opts.candidatePool host pow clock hits) hits :=
  (drawn_buildPool _ _ _ _ _).trans ((drawn_softScope _ _).trans
    ((drawn_withoutIds _).trans ((drawn_recency _).trans (drawn_demotion _ _ _))))

theorem drawn_rankedSelection : Drawn (opts.rankedSelection host pow clock hits) hits :=
  (Drawn.of_subperm (enforce_subperm _ _ _ (selectPathScoped_subperm _ _ _))).trans
    (drawn_candidatePool host pow clock hits opts)

theorem fittedSelection_spec :
    (opts.fittedSelection host pow clock hits).1 <+: opts.rankedSelection host pow clock hits ∧
      (∃ depth, (opts.fittedSelection host pow clock hits).2.1 =
        (opts.fittedSelection host pow clock hits).1.map (renderHit depth)) ∧
      ((∀ fit ∈ (opts.fittedSelection host pow clock hits).2.2, fit.droppedIds = []) →
        (opts.fittedSelection host pow clock hits).1 =
          opts.rankedSelection host pow clock hits) := by
  unfold PostProcessOpts.fittedSelection
  dsimp only
  split
  · split
    · exact ⟨prefix_rfl, ⟨_, rfl⟩, fun _ => rfl⟩
    · exact ⟨fit_front _ _ _, fit_rendered _ _ _,
        fun h => fit_selected_of_droppedIds (h _ rfl)⟩
  · exact ⟨prefix_rfl, ⟨_, rfl⟩, fun _ => rfl⟩

theorem isStale_of_notMem {id : String} {label : QueryIntent} {profile : RankingProfile}
    {learnedNoiseIds : List String}
    (h : id ∉ (applyStaleSignalDemotion hits label profile learnedNoiseIds).staleDemotedIds) :
    ∀ hit ∈ hits, hit.id = id → isStale label profile learnedNoiseIds hit = false := by
  intro hit hmem hid
  unfold applyStaleSignalDemotion at h
  dsimp only at h
  split at h
  · next hquiet =>
      rw [Bool.and_eq_true, Option.isNone_iff_eq_none, Bool.not_eq_true'] at hquiet
      unfold isStale
      rw [hquiet.1]
      cases learnedNoiseIds with
      | nil => simp
      | cons learned rest =>
          have hlabel : isStatusClassIntent label = false := hquiet.2
          rw [hlabel]
          rfl
  · refine Bool.eq_false_of_not_eq_true fun hstale => h ?_
    exact mem_map.mpr ⟨hit, mem_filter.mpr ⟨hmem, hstale⟩, hid⟩

theorem primaryKinds_of_own {selectorProfile : SelectorProfile}
    {contract : Option AdmissibilityContractDefinition}
    (hown : ∀ c, contract = some c →
      resolveAdmissibilityContractForSelectorProfile selectorProfile = some c)
    {c : AdmissibilityContractDefinition}
    (hc : resolveAdmissibilityContractForSelectorProfile selectorProfile = some c)
    (hrequire : c.requirePrimaryRepresentative = true) :
    primaryKindsForContract selectorProfile contract = c.primaryGroups := by
  unfold primaryKindsForContract
  cases contract with
  | none => simp [hc, hrequire]
  | some own =>
      cases hc.symm.trans (hown own rfl)
      simp [hc, hrequire]

/-- What holds of the result of a recall's selection. -/
structure SelectionSound (result : PostProcessResult) : Prop where
  /-- A selected hit is one of the hits, but for its score and its role. -/
  drawn : ∀ hit ∈ result.selected, ∃ hit' ∈ hits, hit'.core = hit.core
  distinct : (result.selected.map SearchHit.id).Nodup
  few : result.selected.length ≤ opts.topK
  onPath : ∀ requested, opts.requestedPath.filter Text.truthy = some requested →
    ∀ hit ∈ result.selected, hit.path = some requested ∨ hit.path? = none
  ofClient : ∀ preferred, opts.preferredClient.filter Text.truthy = some preferred →
    opts.clientScopeMode = some .strict → ∀ hit ∈ result.selected, hit.client = some preferred
  rendered : ∃ depth, result.renderedText = result.selected.map (renderHit depth)
  tracked : ∀ id ∈ result.accessTrackedIds, ∃ hit ∈ result.selected, hit.id = id ∧
    hit.sourceKind ≠ some .noema ∧ ¬(opts.requestedPath.any Text.truthy = true ∧ hit.path? = none) ∧
      ∀ hit' ∈ hits, hit'.id = id →
        isStale opts.intent.label opts.ranking opts.learnedNoiseIds hit' = false
  /-- The selection is the front of one with a primary hit, and all of it where the budget dropped
  nothing. -/
  primary : ∀ c, resolveAdmissibilityContractForSelectorProfile opts.profile = some c →
    c.requirePrimaryRepresentative = true →
      (∃ hit ∈ opts.candidatePool host pow clock hits, isOfKind c.primaryGroups hit = true) →
        ∃ ranked, result.selected <+: ranked ∧
          (∃ hit ∈ ranked, isOfKind c.primaryGroups hit = true) ∧
            ((∀ fit ∈ result.budgetFit, fit.droppedIds = []) → result.selected = ranked)

/-- **A recall's selection is sound.** -/
theorem postProcess_sound (hnodup : (hits.map SearchHit.id).Nodup) (hpos : 0 < opts.topK)
    (hown : ∀ c, opts.admissibilityContract = some c →
      resolveAdmissibilityContractForSelectorProfile opts.profile = some c) :
    SelectionSound host pow clock hits opts (postProcessRecallResults host pow clock hits opts) := by
  obtain ⟨hpre, hrendered, hwhole⟩ := fittedSelection_spec host pow clock hits opts
  have hdrawn : Drawn (opts.fittedSelection host pow clock hits).1 hits :=
    (Drawn.of_sublist hpre.sublist).trans (drawn_rankedSelection host pow clock hits opts)
  have hpath : ∀ hit ∈ opts.rankedSelection host pow clock hits,
      isOnPath opts.requestedPath hit = true :=
    enforce_forall _ _ _ (selectPathScoped_onPath _ _ _) fun hne => pool_onPath hne hown
  have hlength : (opts.rankedSelection host pow clock hits).length ≤ opts.topK :=
    enforce_length _ _ _ hpos (selectPathScoped_length _ _ _)
  refine ⟨fun hit hmem => hdrawn.exists_core hmem, hdrawn.ids_nodup hnodup,
    hpre.length_le.trans hlength, ?_, ?_, hrendered, ?_, ?_⟩
  · intro requested hrequested hit hmem
    exact (isOnPath_iff hrequested hit).mp (hpath hit (hpre.subset hmem))
  · intro preferred hpreferred hstrict
    have hpool : Drawn (opts.fittedSelection host pow clock hits).1
        (opts.candidatePool host pow clock hits) :=
      (Drawn.of_sublist hpre.sublist).trans
        (.of_subperm (enforce_subperm _ _ _ (selectPathScoped_subperm _ _ _)))
    refine (hpool.trans (drawn_buildPool _ _ _ _ _)).forall_of_core client_of_core ?_
    rw [hstrict]
    exact softScope_strict hpreferred
  · intro id hid
    obtain ⟨hit, hhit, rfl⟩ := mem_map.mp (mem_of_mem_filter hid)
    obtain ⟨hmem, hguard⟩ := mem_filter.mp hhit
    simp only [Bool.and_eq_true, decide_eq_true_iff, Bool.not_eq_true', contains_eq_mem,
      decide_eq_false_iff_not] at hguard
    obtain ⟨⟨hkind, hnull⟩, hfresh⟩ := hguard
    refine ⟨hit, hmem, rfl, hkind, ?_, isStale_of_notMem hits hfresh⟩
    rintro ⟨hrequested, hpathless⟩
    refine hnull (mem_map.mpr ⟨hit, mem_filter.mpr ⟨hmem, ?_⟩, rfl⟩)
    rw [hrequested, hpathless]
    rfl
  · intro c hc hrequire hexists
    refine ⟨opts.rankedSelection host pow clock hits, hpre, ?_, hwhole⟩
    have hkinds := primaryKinds_of_own hown hc hrequire
    rw [← hkinds] at hexists ⊢
    exact exists_primary_enforce _ _ _ hexists

/-- A handoff that scores high, and the work it is about. -/
def handoffHits : List SearchHit :=
  [ { id := "handoff", text := "resume here", score := some 1, memoryRole := some .sessionHandoff },
    { id := "work", text := "ports the parser", score := some 0, memoryRole := some .recentWork } ]

/-- A recall of recent work, under a budget of so many tokens. -/
def recentWorkOpts (budgetTokens : ℚ) : PostProcessOpts where
  intent := ⟨.recentWork, .full⟩
  topK := 2
  selectorProfile := some .recentWork
  budgetTokens := some budgetTokens

theorem postProcess_sound_recentWork :
    SelectionSound .ascii (fun _ _ => 1) 0 handoffHits (recentWorkOpts 60)
      (postProcessRecallResults .ascii (fun _ _ => 1) 0 handoffHits (recentWorkOpts 60)) :=
  postProcess_sound _ _ _ _ _ (by decide) (by decide) (fun _ h => by cases h)

end

/-- **The budget drops the primary hit.**  What is left of the selection is not empty and holds
none, although the contract wants one and the pool has it. -/
theorem budget_cuts_primary :
    ¬∀ (host : Host) (pow : ℚ → ℚ → ℚ) (clock : Int) (hits : List SearchHit)
        (opts : PostProcessOpts), (hits.map SearchHit.id).Nodup → 0 < opts.topK →
          opts.admissibilityContract = none →
            ∀ c, resolveAdmissibilityContractForSelectorProfile opts.profile = some c →
              c.requirePrimaryRepresentative = true →
                (∃ hit ∈ opts.candidatePool host pow clock hits,
                  isOfKind c.primaryGroups hit = true) →
                  (postProcessRecallResults host pow clock hits opts).selected ≠ [] →
                    ∃ hit ∈ (postProcessRecallResults host pow clock hits opts).selected,
                      isOfKind c.primaryGroups hit = true := by
  intro hall
  obtain ⟨hit, hmem, hkind⟩ := hall .ascii (fun _ _ => 1) 0 handoffHits (recentWorkOpts 56)
    (by decide) (by decide) rfl recentWorkContract rfl rfl
    (any_eq_true.mp (by decide +kernel)) (by decide +kernel)
  have hnone : ((postProcessRecallResults .ascii (fun _ _ => 1) 0 handoffHits
      (recentWorkOpts 56)).selected.all
        fun hit => !isOfKind recentWorkContract.primaryGroups hit) = true := by
    decide +kernel
  have hfalse := all_eq_true.mp hnone hit hmem
  rw [hkind] at hfalse
  cases hfalse

end Runir.Recall
