import Runir.Recall.StatusPolicy

/-!
# Recall — What the fallback drops

`filterCurrentStatusCandidates` keeps the strict candidates where there are two, and falls back to a
filter of its own where there are not.

* `isFallback_of_isStrict`: a strict candidate passes that filter unless it is noise.
* `pool_keepsStrict_iff`: when the pool has every strict candidate.
* `mem_pool_insert`: a hit with strong evidence stays in the pool when another hit comes in.
-/

namespace Runir.Recall

variable {requestedPath : Option String} {hits : List SearchHit} {hit : SearchHit}

/-- The pool has every hit the strict filter lets through. -/
def KeepsStrict (requestedPath : Option String) (hits : List SearchHit) : Prop :=
  ∀ hit ∈ hits, isStrictCandidate requestedPath hit = true →
    hit ∈ (filterCurrentStatusCandidates hits requestedPath).selectedPool

/-- A hit that comes in, at whatever place, takes none with strong evidence out of the pool. -/
def KeepsStrong (requestedPath : Option String) (hits : List SearchHit) : Prop :=
  ∀ front back added, hits = front ++ back →
    ∀ hit ∈ (filterCurrentStatusCandidates hits requestedPath).selectedPool,
      hasStrongStatusEvidence hit requestedPath = true →
        hit ∈ (filterCurrentStatusCandidates (front ++ added :: back) requestedPath).selectedPool

/-- The number of hits that pass the strict filter. -/
def strictCount (requestedPath : Option String) (hits : List SearchHit) : Nat :=
  (hits.filter (isStrictCandidate requestedPath)).length

/-! ### The two filters -/

theorem mem_pool_iff :
    hit ∈ (filterCurrentStatusCandidates hits requestedPath).selectedPool ↔
      hit ∈ hits ∧ (if 2 ≤ strictCount requestedPath hits then isStrictCandidate requestedPath hit
        else isFallbackCandidate requestedPath hit) = true := by
  unfold filterCurrentStatusCandidates strictCount
  simp only
  split
  · exact List.mem_filter
  · exact List.mem_filter

theorem scope_of_isStrict (h : isStrictCandidate requestedPath hit = true) :
    0 < scoreScopeMatch hit requestedPath := by
  simp only [isStrictCandidate, Bool.and_eq_true, decide_eq_true_eq] at h
  exact h.1.1

theorem isFallback_iff :
    isFallbackCandidate requestedPath hit = true ↔
      0 < scoreScopeMatch hit requestedPath ∧
        classifyRecallMemoryKind hit ≠ .operationalNoise := by
  simp only [isFallbackCandidate, Bool.and_eq_true, decide_eq_true_eq]

/-- A strict candidate passes the filter of the fallback unless it is noise. -/
theorem isFallback_of_isStrict (h : isStrictCandidate requestedPath hit = true) :
    isFallbackCandidate requestedPath hit = true ↔
      classifyRecallMemoryKind hit ≠ .operationalNoise :=
  isFallback_iff.trans (and_iff_right (scope_of_isStrict h))

/-- Strong evidence opens the gate, and lets a hit through whatever its kind. -/
theorem isStrict_of_strong (hstrong : hasStrongStatusEvidence hit requestedPath = true)
    (hscope : 0 < scoreScopeMatch hit requestedPath) :
    isStrictCandidate requestedPath hit = true := by
  have hgate : (decide (hit.memoryRole = some .projectState) || hasStoredStatusRole hit ||
      decide (0 < scoreStatusSignals hit) || hasTicketSignal hit.text) = true := by
    simp only [hasStrongStatusEvidence, Bool.or_eq_true, Bool.and_eq_true, decide_eq_true_eq]
      at hstrong ⊢
    rcases hstrong with ((hstate | hrole) | hsignals) | ⟨hticket, -⟩
    · exact .inl (.inl (.inl hstate))
    · exact .inl (.inl (.inr hrole))
    · exact .inl (.inr (lt_of_lt_of_le (by norm_num) hsignals))
    · exact .inr hticket
  simp only [isStrictCandidate, hgate, hstrong, hscope, decide_true, Bool.true_or, Bool.true_and,
    Bool.not_true, Bool.and_false, Bool.not_false]

theorem scope_of_mem_pool
    (h : hit ∈ (filterCurrentStatusCandidates hits requestedPath).selectedPool) :
    0 < scoreScopeMatch hit requestedPath := by
  obtain ⟨-, hpasses⟩ := mem_pool_iff.mp h
  split at hpasses
  · exact scope_of_isStrict hpasses
  · exact (isFallback_iff.mp hpasses).1

/-! ### A hit that comes in -/

theorem strictCount_insert (front back : List SearchHit) (added : SearchHit) :
    strictCount requestedPath (front ++ back) ≤
      strictCount requestedPath (front ++ added :: back) := by
  refine List.Sublist.length_le (List.Sublist.filter _ ?_)
  exact List.Sublist.append_left (List.sublist_cons_self added back) front

/-- **Strong evidence stays**: a hit that comes in may end the fallback, but the strict filter lets
strong evidence through. -/
theorem keepsStrong (requestedPath : Option String) (hits : List SearchHit) :
    KeepsStrong requestedPath hits := by
  rintro front back added rfl hit hpool hstrong
  have hmem : hit ∈ front ++ added :: back := by
    rcases List.mem_append.mp (mem_pool_iff.mp hpool).1 with hfront | hback
    · exact List.mem_append_left _ hfront
    · exact List.mem_append_right _ (List.mem_cons_of_mem _ hback)
  refine mem_pool_iff.mpr ⟨hmem, ?_⟩
  by_cases hmode : 2 ≤ strictCount requestedPath (front ++ added :: back)
  · rw [if_pos hmode]
    exact isStrict_of_strong hstrong (scope_of_mem_pool hpool)
  · have hbefore : ¬2 ≤ strictCount requestedPath (front ++ back) := fun h =>
      hmode (h.trans (strictCount_insert front back added))
    have hpasses := (mem_pool_iff.mp hpool).2
    rw [if_neg hbefore] at hpasses
    rw [if_neg hmode]
    exact hpasses

/-! ### When the fallback only relaxes -/

/-- **The pool has the strict candidates**, and keeps strong evidence, exactly where there are two of
them or none of them is noise. -/
theorem pool_keepsStrict_iff (requestedPath : Option String) (hits : List SearchHit) :
    (KeepsStrict requestedPath hits ∧ KeepsStrong requestedPath hits) ↔
      2 ≤ strictCount requestedPath hits ∨
        ∀ hit ∈ hits, isStrictCandidate requestedPath hit = true →
          classifyRecallMemoryKind hit ≠ .operationalNoise := by
  rw [and_iff_left (keepsStrong requestedPath hits)]
  by_cases hmode : 2 ≤ strictCount requestedPath hits
  · refine iff_of_true (fun hit hmem hstrict => mem_pool_iff.mpr ⟨hmem, ?_⟩) (.inl hmode)
    rw [if_pos hmode]
    exact hstrict
  · rw [or_iff_right hmode]
    refine forall₃_congr fun hit hmem hstrict => ?_
    rw [mem_pool_iff, if_neg hmode, and_iff_right hmem]
    exact isFallback_of_isStrict hstrict

/-- A memory stored as noise that says what is being worked on. -/
def workingNoise : SearchHit where
  id := "semiote:1"
  text := "currently fixing the deploy script, blocked on the tests"
  score := some 1
  memoryRole := some .operationalNoise

/-- **Alone, it is dropped.** -/
theorem fallback_drops_strict : ¬KeepsStrict none [workingNoise] := by
  intro h
  have hstrict : isStrictCandidate none workingNoise = true := by decide +kernel
  have hpool := h workingNoise (List.mem_singleton_self _) hstrict
  rw [mem_pool_iff] at hpool
  revert hpool
  decide +kernel

end Runir.Recall
