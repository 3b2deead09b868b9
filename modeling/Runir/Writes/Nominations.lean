import Runir.Writes.AtomicShadow
import Runir.Writes.ResolveFacts

/-!
# Writes — The nominations of the isolated lane

`computeAtomicIsolatedEvaluation` derives what was eligible, and what became of it, a second time
outside `findSupersedeTarget`.  The two agree.

* `resolveDecision_guarded`, `resolveDecision_retired`: how a decision with a guard on record, and
  one that retires, came about.
* `mem_nominations`: the nominated ids are those of the nominable candidates.
* `isolated_frame`: each label says what the isolated decision did with the candidate.
-/

namespace Runir

variable {host : Host} {wall : WallClock} {input : ResolveInput}

/-! ### What a target was nominated for -/

/-- A text value change on a proven referent is retired by its text, whatever the tags say. -/
theorem nominate_proven {candidate : SimilarCandidate} {proof : ReferentProof}
    (hchange : wouldSupersedeTexts host candidate.l2 input.text = true)
    (hproven : referentOf host input candidate = .proven proof) :
    nominate host input candidate = .retire .deterministicText (some proof) := by
  unfold nominate
  simp only [hchange, hproven]

variable {t : SupersedeTarget}

/-- A step of the loop keeps its target or takes the candidate, as that was nominated. -/
theorem correctionStep_target {pass : CorrectionPass} {entry : SimilarCandidate × Nat}
    (h : (correctionStep host wall input pass entry).target = some t) :
    pass.target = some t ∨
      nominate host input t.candidate = .retire t.signal t.referentProof := by
  unfold correctionStep at h
  simp only at h
  split at h
  · exact Or.inl h
  · split at h
    · exact Or.inl h
    · split at h
      · exact Or.inl h
      · split at h
        · next signal proof hn =>
            obtain rfl := Option.some.inj h
            unfold betterTarget
            split
            · exact Or.inr hn
            · next b hb =>
                split
                · exact Or.inr hn
                · exact Or.inl hb
        · exact Or.inl h
        · exact Or.inl h

theorem findSupersedeTarget_nominated (h : (findSupersedeTarget host wall input).target = some t) :
    nominate host input t.candidate = .retire t.signal t.referentProof := by
  have hinv : ∀ t, (findSupersedeTarget host wall input).target = some t →
      nominate host input t.candidate = .retire t.signal t.referentProof := by
    unfold findSupersedeTarget
    refine List.foldlRecOn (motive := fun pass : CorrectionPass =>
      ∀ t, pass.target = some t →
        nominate host input t.candidate = .retire t.signal t.referentProof) _ _ ?_ ?_
    · intro t ht
      cases ht
    · intro pass hpass entry _ t ht
      rcases correctionStep_target ht with hold | hnew
      · exact hpass t hold
      · exact hnew
  exact hinv t h

/-! ### Decisions with a guard on record, and retirements -/

variable {d : ArbitrationDecision}

theorem exactDup_guardKept
    (h : (exactDupRecent host input).or (exactDupStore host wall input) = some d) :
    d.guardKeepBoth = none := by
  rcases Option.or_eq_some_iff.mp h with h | ⟨-, h⟩
  · unfold exactDupRecent at h
    split at h
    · obtain rfl := Option.some.inj h
      rfl
    · cases h
  · obtain ⟨e, -, rfl⟩ := Option.map_eq_some_iff.mp h
    rfl

/-- The guard unit speaks of targets the atomic fact proves, and names them. -/
theorem atomicGuardUnit_eq (h : atomicGuardUnit host input t = some d) :
    t.referentProof = some .atomicFactIdentity ∧ d.outcome = .create ∧
      d.candidate = some t.candidate ∧ d.guardKeepBoth.isSome = true := by
  unfold atomicGuardUnit at h
  split at h
  · cases h
  · next hproof =>
      refine ⟨not_not.mp hproof, ?_⟩
      split at h
      · obtain rfl := Option.some.inj h
        exact ⟨rfl, rfl, rfl⟩
      · split at h
        · obtain rfl := Option.some.inj h
          exact ⟨rfl, rfl, rfl⟩
        · split at h
          · obtain rfl := Option.some.inj h
            exact ⟨rfl, rfl, rfl⟩
          · cases h

theorem temporalGuards_guardKept
    (h : temporalGuards host input t = some d) : d.guardKeepBoth = none := by
  unfold temporalGuards at h
  split at h
  · cases h
  · split at h
    · obtain rfl := Option.some.inj h
      rfl
    · split at h
      · cases h
      · obtain ⟨reason, -, rfl⟩ := Option.map_eq_some_iff.mp h
        rfl

/-- Only the atomic guard unit puts a guard on record. -/
theorem resolveCorrected_guarded (h : (resolveCorrected host input t).guardKeepBoth.isSome = true) :
    atomicGuardUnit host input t = some (resolveCorrected host input t) := by
  unfold resolveCorrected at h ⊢
  split at h
  · cases h
  · next hchange =>
      split at h
      · cases h
      · next hconfirm =>
          rw [if_neg hchange, if_neg hconfirm]
          split at h
          · next d hd => rw [hd]
          · next hd =>
              cases hg : temporalGuards host input t with
              | some d =>
                  rw [hg, Option.getD_some, temporalGuards_guardKept hg] at h
                  cases h
              | none =>
                  rw [hg, Option.getD_none] at h
                  cases h

/-- **A guard on record** is one of the guard unit's, on the target of the correction pass. -/
theorem resolveDecision_guarded
    (h : (resolveDecision host wall input).guardKeepBoth.isSome = true) :
    ∃ t, (findSupersedeTarget host wall input).target = some t ∧
      atomicGuardUnit host input t = some (resolveDecision host wall input) := by
  have hd := rfl (a := resolveDecision host wall input)
  conv at hd => rhs; unfold resolveDecision
  split at hd
  · next d hdup =>
      rw [hd, exactDup_guardKept hdup] at h
      cases h
  · simp only at hd
    split at hd
    · next t ht =>
        rw [hd] at h ⊢
        exact ⟨t, ht, resolveCorrected_guarded h⟩
    · have hnone : (resolveDecision host wall input).guardKeepBoth = none := by
        rw [hd]
        exact (resolveRemainingBands_decision host wall input).guardKept
      rw [hnone] at h
      cases h

/-- **A retirement** is that of the target of the correction pass. -/
theorem resolveDecision_retired (h : (resolveDecision host wall input).outcome = .supersede) :
    ∃ t, (findSupersedeTarget host wall input).target = some t ∧
      resolveDecision host wall input = retire t := by
  rcases resolveDecision_cases host wall input with ⟨hskip, -⟩ | ⟨t, ht, hd⟩ | ⟨-, hd⟩
  · rw [hskip] at h
    cases h
  · rw [hd] at h
    rcases resolveCorrected_cases host input t with hcreate | hjudge | ⟨hretire, -⟩
    · rw [hcreate] at h
      cases h
    · rw [hjudge] at h
      cases h
    · exact ⟨t, ht, hd.trans hretire⟩
  · rw [hd] at h
    exact absurd h (resolveRemainingBands_decision host wall input).harmless.1

/-! ### Nominable candidates -/

/-- A candidate the lane has to nominate. -/
structure Nominable (host : Host) (applied : ResolveInput) (c : SimilarCandidate) : Prop where
  aboveFloor : applied.config.supersedeFloor ≤ c.similarity
  inWindow : withinHours host c applied.config.mergeWindowHours applied.laneClockMs = true
  notDistinct : areAnswerDistinctTexts host c.l2 applied.text = false
  valueChange : wouldSupersedeTexts host c.l2 applied.text = true

/-- An id names one candidate, as the ids of the rows of a table do. -/
def OnePerId (candidates : List SimilarCandidate) : Prop :=
  ∀ a ∈ candidates, ∀ b ∈ candidates, a.id = b.id → a = b

variable {applied : ResolveInput} {isolated : ArbitrationDecision}

theorem nominable_iff {c : SimilarCandidate} :
    Nominable host applied c ↔
      isEligible host applied c = true ∧ wouldSupersedeTexts host c.l2 applied.text = true := by
  unfold isEligible
  constructor
  · rintro ⟨hfloor, hwindow, hdistinct, hchange⟩
    simp [not_lt.mpr hfloor, hwindow, hdistinct, hchange]
  · rintro ⟨heligible, hchange⟩
    split at heligible
    · cases heligible
    · next hfloor =>
        split at heligible
        · cases heligible
        · next hwindow =>
            exact ⟨not_lt.mp hfloor, by simpa using hwindow, by simpa using heligible, hchange⟩

variable {candidates : List SimilarCandidate}

theorem exists_of_mem_nominations {seenIds : List String}
    {n : AtomicNominationRecord} (h : n ∈ nominations host applied isolated seenIds candidates) :
    ∃ c ∈ candidates, Nominable host applied c ∧ n = nominationOf host applied isolated c := by
  induction candidates generalizing seenIds with
  | nil => cases h
  | cons candidate rest ih =>
      have hrest : ∀ {seenIds}, n ∈ nominations host applied isolated seenIds rest →
          ∃ c ∈ candidate :: rest, Nominable host applied c ∧
            n = nominationOf host applied isolated c := by
        intro seenIds h
        obtain ⟨c, hc, hn⟩ := ih h
        exact ⟨c, List.mem_cons_of_mem candidate hc, hn⟩
      rw [nominations] at h
      split at h
      · exact hrest h
      · next hskip =>
          rcases List.mem_cons.mp h with hn | h
          · refine ⟨candidate, List.mem_cons_self, nominable_iff.mpr ?_, hn⟩
            simp only [Bool.or_eq_true, not_or, Bool.not_eq_true', Bool.not_eq_false] at hskip
            exact hskip.1
          · exact hrest h

variable {id : String}

/-- **The nominated ids** are those of the nominable candidates. -/
theorem mem_nominations {seenIds : List String} :
    id ∈ (nominations host applied isolated seenIds candidates).map (·.nominationCandidateId) ↔
      id ∉ seenIds ∧ ∃ c ∈ candidates, c.id = id ∧ Nominable host applied c := by
  constructor
  · intro h
    refine ⟨nominations_fresh h, ?_⟩
    obtain ⟨n, hn, hid⟩ := List.mem_map.mp h
    obtain ⟨c, hc, hnominable, heq⟩ := exists_of_mem_nominations hn
    rw [heq, nominationOf_id] at hid
    exact ⟨c, hc, hid, hnominable⟩
  · rintro ⟨hfresh, c, hc, rfl, hnominable⟩
    induction candidates generalizing seenIds with
    | nil => cases hc
    | cons candidate rest ih =>
        rw [nominations]
        split
        · next hskip =>
            -- the skipped candidate is not `c`, which is nominable and fresh
            rcases List.mem_cons.mp hc with rfl | hrest
            · obtain ⟨heligible, hchange⟩ := nominable_iff.mp hnominable
              simp [heligible, hchange, hfresh] at hskip
            · exact ih hrest hfresh
        · rw [List.map_cons, nominationOf_id]
          by_cases hid : candidate.id = c.id
          · rw [hid]
            exact List.mem_cons_self
          · rcases List.mem_cons.mp hc with rfl | hrest
            · exact absurd rfl hid
            · refine List.mem_cons_of_mem _ (ih hrest ?_)
              intro hseen
              rcases List.mem_cons.mp hseen with heq | hseen
              · exact hid heq.symm
              · exact hfresh hseen

/-! ### Labels -/

/-- The manifest holds `id` under a label. -/
def Labelled (noms : List AtomicNominationRecord) (id : String)
    (disposition : AtomicNominationDisposition) : Prop :=
  ∃ n ∈ noms, n.nominationCandidateId = id ∧ n.disposition = disposition

theorem labelled_iff (hids : OnePerId applied.similarCandidates)
    {disposition : AtomicNominationDisposition} :
    Labelled (nominations host applied isolated [] applied.similarCandidates) id disposition ↔
      ∃ c ∈ applied.similarCandidates, c.id = id ∧ Nominable host applied c ∧
        (nominationOf host applied isolated c).disposition = disposition := by
  constructor
  · rintro ⟨n, hn, hid, hlabel⟩
    obtain ⟨c, hc, hnominable, heq⟩ := exists_of_mem_nominations hn
    rw [heq, nominationOf_id] at hid
    rw [heq] at hlabel
    exact ⟨c, hc, hid, hnominable, hlabel⟩
  · rintro ⟨c, hc, rfl, hnominable, hlabel⟩
    have hnamed : c.id ∈ (nominations host applied isolated [] applied.similarCandidates).map
        (·.nominationCandidateId) :=
      mem_nominations.mpr ⟨List.not_mem_nil, c, hc, rfl, hnominable⟩
    obtain ⟨n, hn, hid⟩ := List.mem_map.mp hnamed
    obtain ⟨c', hc', -, heq⟩ := exists_of_mem_nominations hn
    rw [heq, nominationOf_id] at hid
    rw [hids c' hc' c hc hid] at heq
    rw [heq] at hn
    exact ⟨_, hn, nominationOf_id applied isolated c, hlabel⟩

/-- What a label says of a candidate and of the isolated decision. -/
theorem nominationOf_disposition (c : SimilarCandidate) :
    (nominationOf host applied isolated c).disposition =
      match referentOf host (isolatedInput applied) c with
      | .conflict => .anchorVetoed
      | .unproven => .unprovenBlocked
      | .proven _ =>
          if selectedId isolated = some c.id then
            if isolated.guardKeepBoth.isSome then .guardKeptBoth else .provenRetired
          else .provenNotSelected := by
  unfold nominationOf referentOf isolatedInput
  generalize proveReferentIdentity host c.l2 applied.text (candidateReferentKeys host c)
    applied.incomingKeys true = referent
  cases referent with
  | conflict => rfl
  | unproven => rfl
  | proven proof =>
      cases hselected : selectedId isolated with
      | none => simp
      | some selected =>
          by_cases hid : selected = c.id
          · simp [hid]
          · simp [hid]

theorem vetoed_iff (c : SimilarCandidate) :
    (nominationOf host applied isolated c).disposition = .anchorVetoed ↔
      referentOf host (isolatedInput applied) c = .conflict := by
  rw [nominationOf_disposition]
  cases referentOf host (isolatedInput applied) c with
  | conflict => simp
  | unproven => simp
  | proven proof =>
      simp only
      split
      · split <;> simp
      · simp

theorem retired_iff (c : SimilarCandidate) :
    (nominationOf host applied isolated c).disposition = .provenRetired ↔
      (∃ proof, referentOf host (isolatedInput applied) c = .proven proof) ∧
        selectedId isolated = some c.id ∧ isolated.guardKeepBoth = none := by
  rw [nominationOf_disposition]
  cases referentOf host (isolatedInput applied) c with
  | conflict => simp
  | unproven => simp
  | proven proof =>
      simp only
      split
      · next hselected => cases isolated.guardKeepBoth <;> simp [hselected]
      · next hselected => simp [hselected]

theorem guardKept_iff (c : SimilarCandidate) :
    (nominationOf host applied isolated c).disposition = .guardKeptBoth ↔
      (∃ proof, referentOf host (isolatedInput applied) c = .proven proof) ∧
        selectedId isolated = some c.id ∧ isolated.guardKeepBoth.isSome = true := by
  rw [nominationOf_disposition]
  cases referentOf host (isolatedInput applied) c with
  | conflict => simp
  | unproven => simp
  | proven proof =>
      simp only
      split
      · next hselected => cases isolated.guardKeepBoth <;> simp [hselected]
      · next hselected => simp [hselected]

/-! ### The frame -/

/-- A target with a proof is nominable, and proven. -/
theorem nominable_of_target
    (ht : (findSupersedeTarget host wall (isolatedInput applied)).target = some t)
    (hsignal : t.signal = .deterministicText ∨ t.referentProof.isSome = true) :
    t.candidate ∈ applied.similarCandidates ∧ Nominable host applied t.candidate ∧
      ∃ proof, referentOf host (isolatedInput applied) t.candidate = .proven proof := by
  have hret := findSupersedeTarget_retirable ht
  obtain ⟨i, hmem, hwithin⟩ := hret.inWindow
  rcases hret.authority with ⟨-, hchange, proof, -, hproof⟩ | ⟨hF2, hnone, -⟩
  · exact ⟨List.mem_of_getElem? hmem, ⟨hret.aboveFloor, hwithin, hret.notDistinct, hchange⟩,
      proof, hproof⟩
  · rcases hsignal with hdet | hproof
    · rw [hdet] at hF2
      cases hF2
    · rw [hnone] at hproof
      cases hproof

/-- A candidate with a proof that the lane selects is the target of its correction pass. -/
theorem target_of_selected (hids : OnePerId applied.similarCandidates)
    (ht : (findSupersedeTarget host wall (isolatedInput applied)).target = some t)
    {c : SimilarCandidate} (hc : c ∈ applied.similarCandidates) (hid : t.candidate.id = c.id) :
    t.candidate = c := by
  obtain ⟨i, hmem, -⟩ := (findSupersedeTarget_retirable ht).inWindow
  exact hids _ (List.mem_of_getElem? hmem) c hc hid

/-- The atomic guard unit kept the candidate `id`, in the isolated lane. -/
def KeptByGuardUnit (host : Host) (wall : WallClock) (applied : ResolveInput) (id : String) : Prop :=
  ∃ t, (findSupersedeTarget host wall (isolatedInput applied)).target = some t ∧
    t.candidate.id = id ∧
      atomicGuardUnit host (isolatedInput applied) t =
        some (resolveDecision host wall (isolatedInput applied))

section
variable (hids : OnePerId applied.similarCandidates)
  (hisolated : resolveDecision host wall (isolatedInput applied) = isolated)
include hids hisolated

theorem labelled_retired :
    Labelled (nominations host applied isolated [] applied.similarCandidates) id .provenRetired ↔
      isolated.outcome = .supersede ∧ isolated.supersedeSignal = some .deterministicText ∧
        isolated.candidate.map (·.id) = some id := by
  have hretired : isolated.outcome = .supersede → ∃ t,
      (findSupersedeTarget host wall (isolatedInput applied)).target = some t ∧
        isolated = retire t := by
    intro hsup
    rw [← hisolated] at hsup ⊢
    exact resolveDecision_retired hsup
  rw [labelled_iff hids]
  constructor
  · rintro ⟨c, hc, rfl, hnominable, hlabel⟩
    obtain ⟨⟨proof, hproven⟩, hselected, hguard⟩ := (retired_iff c).mp hlabel
    have hsup : isolated.outcome = .supersede := by
      by_contra hne
      simp [selectedId, hne, hguard] at hselected
    obtain ⟨t, ht, hretire⟩ := hretired hsup
    have hid : t.candidate.id = c.id := by
      rw [selectedId, if_pos (Or.inl hsup), hretire] at hselected
      exact Option.some.inj hselected
    have hcand := target_of_selected hids ht hc hid
    -- its proven text value change is what it was nominated for
    have hchange : wouldSupersedeTexts host c.l2 (isolatedInput applied).text = true :=
      hnominable.valueChange
    have hnominated := findSupersedeTarget_nominated ht
    rw [hcand, nominate_proven hchange hproven] at hnominated
    obtain ⟨hsignal, -⟩ := Nomination.retire.inj hnominated
    refine ⟨hsup, ?_, ?_⟩
    · rw [hretire, hsignal]
      rfl
    · rw [hretire, ← hcand]
      rfl
  · rintro ⟨hsup, hsignal, hid⟩
    obtain ⟨t, ht, hretire⟩ := hretired hsup
    have hdet : t.signal = .deterministicText := by
      rw [hretire] at hsignal
      exact Option.some.inj hsignal
    have hidt : t.candidate.id = id := by
      rw [hretire] at hid
      exact Option.some.inj hid
    obtain ⟨hmem, hnominable, hproven⟩ := nominable_of_target ht (Or.inl hdet)
    refine ⟨t.candidate, hmem, hidt, hnominable, ?_⟩
    rw [retired_iff]
    refine ⟨hproven, ?_, ?_⟩
    · rw [selectedId, if_pos (Or.inl hsup), hretire]
      rfl
    · rw [hretire]
      rfl

theorem labelled_guardKept :
    Labelled (nominations host applied isolated [] applied.similarCandidates) id .guardKeptBoth ↔
      KeptByGuardUnit host wall applied id := by
  unfold KeptByGuardUnit
  rw [labelled_iff hids, hisolated]
  constructor
  · rintro ⟨c, hc, rfl, hnominable, hlabel⟩
    obtain ⟨-, hselected, hguard⟩ := (guardKept_iff c).mp hlabel
    obtain ⟨t, ht, hunit⟩ := resolveDecision_guarded (hisolated.symm ▸ hguard)
    rw [hisolated] at hunit
    obtain ⟨-, -, hcandidate, -⟩ := atomicGuardUnit_eq hunit
    refine ⟨t, ht, ?_, hunit⟩
    rw [selectedId, if_pos (Or.inr hguard), hcandidate] at hselected
    exact Option.some.inj hselected
  · rintro ⟨t, ht, rfl, hunit⟩
    obtain ⟨hproof, -, hcandidate, hguard⟩ := atomicGuardUnit_eq hunit
    obtain ⟨hmem, hnominable, hproven⟩ := nominable_of_target ht (Or.inr (by rw [hproof]; rfl))
    refine ⟨t.candidate, hmem, rfl, hnominable, ?_⟩
    rw [guardKept_iff]
    refine ⟨hproven, ?_, hguard⟩
    rw [selectedId, if_pos (Or.inr hguard), hcandidate]
    rfl

end

/-- Nominations with one id are few: there is at most one of a label that names the id. -/
theorem length_retired_le (hisolated : resolveDecision host wall (isolatedInput applied) = isolated)
    (hids : OnePerId applied.similarCandidates) :
    ((nominations host applied isolated [] applied.similarCandidates).filter
      (·.disposition = .provenRetired)).length ≤ 1 := by
  have hnodup : ((nominations host applied isolated [] applied.similarCandidates).map
      (·.nominationCandidateId)).Nodup :=
    nominations_nodup applied isolated [] applied.similarCandidates
  have hsame : ∀ n ∈ nominations host applied isolated [] applied.similarCandidates,
      n.disposition = .provenRetired →
        isolated.candidate.map (·.id) = some n.nominationCandidateId := fun n hn hlabel =>
    ((labelled_retired hids hisolated).mp ⟨n, hn, rfl, hlabel⟩).2.2
  generalize nominations host applied isolated [] applied.similarCandidates = noms at hnodup hsame
  have hfiltered := hnodup.sublist
    ((List.filter_sublist (p := fun n => n.disposition = .provenRetired)).map _)
  have hmem : ∀ n ∈ noms.filter (·.disposition = .provenRetired),
      isolated.candidate.map (·.id) = some n.nominationCandidateId := by
    intro n hn
    obtain ⟨hn, hlabel⟩ := List.mem_filter.mp hn
    exact hsame n hn (by simpa using hlabel)
  generalize noms.filter (·.disposition = .provenRetired) = retired at hfiltered hmem
  match retired with
  | [] => simp
  | [_] => simp
  | a :: b :: rest =>
      have hab : a.nominationCandidateId = b.nominationCandidateId :=
        Option.some.inj ((hmem a (by simp)).symm.trans (hmem b (by simp)))
      simp [hab] at hfiltered

/-- A retirement names its candidate, so that the two lanes can be compared by id. -/
theorem safetyActivation_iff (hisolated : resolveDecision host wall (isolatedInput applied) = isolated)
    {appliedDecision : ArbitrationDecision} {incomingAtomicFact : Option Value} :
    (computeAtomicIsolatedEvaluation host wall applied appliedDecision
        incomingAtomicFact).activationClass = some .safetyActivation ↔
      isolated.outcome = .supersede ∧ ¬(appliedDecision.outcome = .supersede ∧
        appliedDecision.candidate.map (·.id) = isolated.candidate.map (·.id)) := by
  have hclass : (computeAtomicIsolatedEvaluation host wall applied appliedDecision
      incomingAtomicFact).activationClass = some .safetyActivation ↔
        (retiredCandidate isolated appliedDecision).isSome = true := by
    unfold computeAtomicIsolatedEvaluation
    rw [hisolated]
    simp only
    split
    · next hretired => simp [hretired]
    · next hretired => split <;> simp [hretired]
  rw [hclass, retiredCandidate]
  by_cases hsup : isolated.outcome = .supersede
  · obtain ⟨t, -, hretire⟩ := resolveDecision_retired (hisolated.symm ▸ hsup)
    rw [hisolated] at hretire
    rw [if_neg (not_not.mpr hsup), hretire]
    by_cases happlied : appliedDecision.outcome = .supersede
    · simp [happlied, retire, Option.filter]
    · simp [happlied, retire, Option.filter]
  · rw [if_pos hsup]
    simp [hsup]

end Runir
