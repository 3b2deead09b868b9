import Runir.Lib.Sorted
import Runir.Recall.Hits

/-!
# Recall — The noema merge

`src/recall/policy/noema-retrieval-policy.ts`: the noemata found for a query are put among the
memory hits, in place of the evidence they stand for.

* `length_mergeNoemaRetrievalLeg`, `mem_mergeNoemaRetrievalLeg`: what the merged list is of.
* `mergeNoemaRetrievalLeg_sound_iff`: evidence left out has its noema in the list exactly if one
  of its noemata ranks above the cut.
* `noema_cut_with_evidence`: a full pool that loses both.
-/

namespace Runir.Recall.Noema
open List

/-- The fields of `SearchHit` that are read or written here. -/
structure Hit where
  id : String
  score : ℚ
  sourceKind : Option SourceKind := none
  active : Option Bool := none
  noemaStatus : Option String := none
  noemaClaimKey : Option String := none
  noemaSupportSemioteIds : Option (List String) := none
  rankingExplanation : Option (List String) := none
  deriving DecidableEq

inductive NoemaRetrievalMode where
  | primary | annotationMode | disabled
  deriving DecidableEq

/-- `id.replace(/^semiote:/, "")`. -/
def bareId (id : String) : String :=
  if Text.startsWith id "semiote:" then Text.sliceFrom id 8 else id

def isActiveNoema (hit : Hit) : Bool :=
  decide (hit.sourceKind = some .noema) && hit.active.getD true &&
    decide (hit.noemaStatus.getD "active" = "active")

def supportIdsFor (hit : Hit) : List String := (hit.noemaSupportSemioteIds.getD []).map bareId

/-- `hit.noemaClaimKey`, where it is truthy. -/
def claimKey (hit : Hit) : Option String := hit.noemaClaimKey.filter Text.truthy

/-- A noema stands for a memory hit: it is supported by it, or says the same claim. -/
def standsFor (noema hit : Hit) : Bool :=
  (supportIdsFor noema).contains (bareId hit.id) ||
    (claimKey hit).any fun key => decide (claimKey noema = some key)

def safeLimit (limit : ℚ) : Nat := (max 1 ⌊limit⌋).toNat

/-- A noema where there is no fresher evidence. -/
def fallback (hit : Hit) : Hit :=
  { hit with
    score := hit.score * (6 / 10)
    rankingExplanation := some (hit.rankingExplanation.getD [] ++ ["noema:fallback_only"]) }

/-- What is left of the memory hits beside the noemata that stand for them. -/
def unblocked (activeNoema semioteHits : List Hit) : List Hit :=
  let blockedSemioteIds := activeNoema.flatMap supportIdsFor
  let noemaClaimKeys := activeNoema.filterMap claimKey
  semioteHits.filter fun hit => !blockedSemioteIds.contains (bareId hit.id) &&
    !(claimKey hit).any fun key => noemaClaimKeys.contains key

/-- What the union of both legs is cut from, in its order before it is sorted. -/
def mergedPool (semioteHits noemaCandidates : List Hit) : List Hit :=
  let activeNoema := noemaCandidates.filter isActiveNoema
  activeNoema ++ unblocked activeNoema semioteHits

def mergeNoemaRetrievalLeg (semioteHits noemaCandidates : List Hit) (mode : NoemaRetrievalMode)
    (limit : ℚ) : List Hit :=
  let activeNoema := noemaCandidates.filter isActiveNoema
  if mode = .disabled ∨ activeNoema = [] then semioteHits.take (safeLimit limit)
  else if mode = .annotationMode then
    if semioteHits ≠ [] then semioteHits.take (safeLimit limit)
    else (activeNoema.take (safeLimit limit)).map fallback
  else
    ((mergedPool semioteHits noemaCandidates).insertionSort fun a b => b.score ≤ a.score).take
      (safeLimit limit)

variable {semioteHits noemaCandidates : List Hit} {mode : NoemaRetrievalMode} {limit : ℚ}

/-! ### What is left out -/

theorem mem_unblocked {activeNoema : List Hit} {hit : Hit} :
    hit ∈ unblocked activeNoema semioteHits ↔
      hit ∈ semioteHits ∧ ∀ noema ∈ activeNoema, standsFor noema hit = false := by
  have hkey : ∀ key, key ∈ activeNoema.filterMap claimKey ↔
      ∃ noema ∈ activeNoema, claimKey noema = some key := fun _ => mem_filterMap
  simp only [unblocked, mem_filter, Bool.and_eq_true, Bool.not_eq_true', contains_eq_mem,
    decide_eq_false_iff_not, mem_flatMap, Option.any_eq_false, hkey, standsFor, Bool.or_eq_false_iff]
  constructor
  · rintro ⟨hmem, hids, hkeys⟩
    refine ⟨hmem, fun noema hnoema => ⟨fun hid => hids ⟨noema, hnoema, hid⟩, fun key hkey' hsame => ?_⟩⟩
    exact hkeys key hkey' ⟨noema, hnoema, hsame⟩
  · rintro ⟨hmem, hnone⟩
    refine ⟨hmem, ?_, ?_⟩
    · rintro ⟨noema, hnoema, hid⟩
      exact (hnone noema hnoema).1 hid
    · rintro key hkey' ⟨noema, hnoema, hsame⟩
      exact (hnone noema hnoema).2 key hkey' hsame

theorem mem_mergedPool {hit : Hit} : hit ∈ mergedPool semioteHits noemaCandidates ↔
    (hit ∈ noemaCandidates ∧ isActiveNoema hit = true) ∨
      hit ∈ semioteHits ∧ ∀ noema ∈ noemaCandidates.filter isActiveNoema,
        standsFor noema hit = false := by
  rw [mergedPool, mem_append, mem_filter, mem_unblocked]

/-! ### What is returned -/

theorem mergeNoemaRetrievalLeg_primary :
    mergeNoemaRetrievalLeg semioteHits noemaCandidates .primary limit =
      if noemaCandidates.filter isActiveNoema = [] then semioteHits.take (safeLimit limit)
      else ((mergedPool semioteHits noemaCandidates).insertionSort fun a b =>
        b.score ≤ a.score).take (safeLimit limit) := by
  simp [mergeNoemaRetrievalLeg]

theorem safeLimit_le (limit : ℚ) : (safeLimit limit : ℚ) ≤ max 1 limit := by
  have hpos : (0 : Int) ≤ max 1 ⌊limit⌋ := le_max_of_le_left zero_le_one
  have hcast : (safeLimit limit : ℚ) = ((max 1 ⌊limit⌋ : Int) : ℚ) := by
    rw [safeLimit, ← Int.cast_natCast, Int.toNat_of_nonneg hpos]
  rw [hcast, Int.cast_max, Int.cast_one]
  exact max_le_max le_rfl (Int.floor_le limit)

theorem length_mergeNoemaRetrievalLeg :
    (mergeNoemaRetrievalLeg semioteHits noemaCandidates mode limit).length ≤ safeLimit limit := by
  unfold mergeNoemaRetrievalLeg
  simp only
  split_ifs
  · exact length_take_le _ _
  · exact length_take_le _ _
  · rw [length_map]
    exact length_take_le _ _
  · exact length_take_le _ _

theorem isActiveNoema_fallback (hit : Hit) : isActiveNoema (fallback hit) = isActiveNoema hit := rfl

/-- What is returned is a memory hit, or an active noema. -/
theorem mem_mergeNoemaRetrievalLeg {hit : Hit}
    (h : hit ∈ mergeNoemaRetrievalLeg semioteHits noemaCandidates mode limit) :
    hit ∈ semioteHits ∨ isActiveNoema hit = true := by
  unfold mergeNoemaRetrievalLeg at h
  simp only at h
  split_ifs at h
  · exact .inl (mem_of_mem_take h)
  · exact .inl (mem_of_mem_take h)
  · obtain ⟨noema, hnoema, rfl⟩ := mem_map.mp h
    rw [isActiveNoema_fallback]
    exact .inr (mem_filter.mp (mem_of_mem_take hnoema)).2
  · rcases mem_mergedPool.mp ((mem_insertionSort _).mp (mem_of_mem_take h)) with hnoema | hsemiote
    · exact .inr hnoema.2
    · exact .inl hsemiote.1

/-- Noemata that annotate do so where there is no memory hit. -/
theorem mergeNoemaRetrievalLeg_annotating (hne : semioteHits ≠ []) :
    mergeNoemaRetrievalLeg semioteHits noemaCandidates .annotationMode limit =
      semioteHits.take (safeLimit limit) := by
  simp [mergeNoemaRetrievalLeg, hne]

/-- **An active noema is returned exactly if it ranks above the cut.** -/
theorem noema_returned_iff {noema : Hit} (hnoema : noema ∈ noemaCandidates)
    (hactive : isActiveNoema noema = true) :
    noema ∈ mergeNoemaRetrievalLeg semioteHits noemaCandidates .primary limit ↔
      Sorted.rank Hit.score (mergedPool semioteHits noemaCandidates) noema < safeLimit limit := by
  have hne : noemaCandidates.filter isActiveNoema ≠ [] :=
    ne_nil_of_mem (mem_filter.mpr ⟨hnoema, hactive⟩)
  rw [mergeNoemaRetrievalLeg_primary, if_neg hne]
  exact Sorted.mem_take_insertionSort (mem_mergedPool.mpr (.inl ⟨hnoema, hactive⟩))

/-! ### Evidence and what stands for it -/

/-- A noema of the candidates is active, and stands for a memory hit. -/
structure Replacement (noemaCandidates : List Hit) (hit noema : Hit) : Prop where
  candidate : noema ∈ noemaCandidates
  active : isActiveNoema noema = true
  stands : standsFor noema hit = true

/-- What a merged list is to be. -/
structure MergeSound (semioteHits noemaCandidates : List Hit) (mode : NoemaRetrievalMode)
    (limit : ℚ) (result : List Hit) : Prop where
  /-- Evidence left out for a noema has one such noema in the list. -/
  replaced : mode = .primary → ∀ hit ∈ semioteHits, (∃ noema, Replacement noemaCandidates hit noema) →
    ∃ noema ∈ result, Replacement noemaCandidates hit noema
  size : (result.length : ℚ) ≤ max 1 limit
  noInactive : ∀ hit ∈ result, hit ∉ semioteHits → isActiveNoema hit = true
  annotated : mode = .annotationMode → semioteHits ≠ [] → ∀ hit ∈ result, hit ∈ semioteHits

/-- Evidence that is left out has a noema that fewer hits come before than are returned. -/
def RankedAbove (semioteHits noemaCandidates : List Hit) (mode : NoemaRetrievalMode) (limit : ℚ) :
    Prop :=
  mode = .primary → ∀ hit ∈ semioteHits, (∃ noema, Replacement noemaCandidates hit noema) →
    ∃ noema, Replacement noemaCandidates hit noema ∧
      Sorted.rank Hit.score (mergedPool semioteHits noemaCandidates) noema < safeLimit limit

/-- **A merge is sound exactly if what is left out has a noema above the cut.** -/
theorem mergeNoemaRetrievalLeg_sound_iff (semioteHits noemaCandidates : List Hit)
    (mode : NoemaRetrievalMode) (limit : ℚ) :
    MergeSound semioteHits noemaCandidates mode limit
        (mergeNoemaRetrievalLeg semioteHits noemaCandidates mode limit) ↔
      RankedAbove semioteHits noemaCandidates mode limit := by
  constructor
  · rintro hsound rfl hit hhit hexists
    obtain ⟨noema, hmem, hreplaces⟩ := hsound.replaced rfl hit hhit hexists
    exact ⟨noema, hreplaces, (noema_returned_iff hreplaces.candidate hreplaces.active).mp hmem⟩
  · intro hranked
    refine ⟨?_, ?_, ?_, ?_⟩
    · rintro rfl hit hhit hexists
      obtain ⟨noema, hreplaces, hrank⟩ := hranked rfl hit hhit hexists
      exact ⟨noema, (noema_returned_iff hreplaces.candidate hreplaces.active).mpr hrank, hreplaces⟩
    · calc ((mergeNoemaRetrievalLeg semioteHits noemaCandidates mode limit).length : ℚ)
          ≤ safeLimit limit := Nat.cast_le.mpr length_mergeNoemaRetrievalLeg
        _ ≤ max 1 limit := safeLimit_le limit
    · intro hit hhit hnot
      exact (mem_mergeNoemaRetrievalLeg hhit).resolve_left hnot
    · rintro rfl hne hit hhit
      rw [mergeNoemaRetrievalLeg_annotating hne] at hhit
      exact mem_of_mem_take hhit

/-- Two memories, the first of which a noema of a lower score is supported by. -/
def fullPool : List Hit := [{ id := "m1", score := 9 / 10 }, { id := "m2", score := 8 / 10 }]

/-- The noema. -/
def lowNoema : Hit where
  id := "n1"
  score := 1 / 10
  sourceKind := some .noema
  noemaSupportSemioteIds := some ["semiote:m1"]

/-- **A full pool loses the evidence and the noema that stands for it.** -/
theorem noema_cut_with_evidence : ¬MergeSound fullPool [lowNoema] .primary 1
    (mergeNoemaRetrievalLeg fullPool [lowNoema] .primary 1) := by
  intro h
  have hresult : mergeNoemaRetrievalLeg fullPool [lowNoema] .primary 1 =
      [{ id := "m2", score := 8 / 10 }] := by decide +kernel
  rw [hresult] at h
  obtain ⟨noema, hmem, hreplaces⟩ := h.replaced rfl { id := "m1", score := 9 / 10 } mem_cons_self
    ⟨lowNoema, mem_cons_self, by decide +kernel, by decide +kernel⟩
  have hactive := hreplaces.active
  rw [mem_singleton.mp hmem] at hactive
  exact absurd hactive (by decide)

end Runir.Recall.Noema
