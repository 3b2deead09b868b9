import Runir.Lib.OrdMap
import Runir.Lib.Host
import Runir.Lib.Sorted

/-!
# Recall — The latest state

`src/recall/latest-state/collapse-latest-state-candidates.ts` and
`resolve-latest-state-representatives.ts`: hits are grouped by the state they are about, rows of
the same state are fetched, and one row of each group is recalled.
-/

namespace Runir.Recall.LatestState

/-- The fields of `SearchHit` that are read or written here. -/
structure Hit where
  id : String
  score : ℚ
  continuitySubjectKey : Option String := none
  lineageRootId : Option String := none
  active : Option Bool := none
  validAt : Option String := none
  updatedAt : Option String := none
  createdAt : Option String := none
  rankingExplanation : Option (List String) := none
  deriving DecidableEq

/-- `LatestStateCandidateGroup`. -/
structure CandidateGroup where
  identityKey : String
  continuitySubjectKey : Option String
  lineageRootId : Option String
  bestScore : ℚ
  hits : List Hit

def getLatestStateIdentityKey (hit : Hit) : String :=
  hit.continuitySubjectKey.getD (hit.lineageRootId.getD hit.id)

def CandidateGroup.new (hit : Hit) : CandidateGroup where
  identityKey := getLatestStateIdentityKey hit
  continuitySubjectKey := hit.continuitySubjectKey
  lineageRootId := hit.lineageRootId
  bestScore := hit.score
  hits := [hit]

/-- The text a group has, or else that of a hit, where it is not empty. -/
def orTruthy (current given : Option String) : Option String :=
  if current.any Text.truthy then current else if given.any Text.truthy then given else current

def CandidateGroup.add (group : CandidateGroup) (hit : Hit) : CandidateGroup :=
  { group with
    hits := group.hits ++ [hit]
    bestScore := max group.bestScore hit.score
    continuitySubjectKey := orTruthy group.continuitySubjectKey hit.continuitySubjectKey
    lineageRootId := orTruthy group.lineageRootId hit.lineageRootId }

section
variable (host : Host)

/-- The groups of hits, by the key of each. -/
def candidateGroups (hits : List Hit) : OrdMap String CandidateGroup :=
  hits.foldl (fun (groups : OrdMap String CandidateGroup) hit =>
    groups.set (getLatestStateIdentityKey hit)
      (((groups.get? (getLatestStateIdentityKey hit)).map (CandidateGroup.add · hit)).getD
        (.new hit))) .empty

def collapseLatestStateCandidates (hits : List Hit) : List CandidateGroup :=
  (candidateGroups hits).values.insertionSort (Sorted.falling CandidateGroup.bestScore fun a b =>
    host.localeCompare a.identityKey b.identityKey ≠ .gt)

def isActiveLineageBacked (hit : Hit) : Bool :=
  decide (hit.active ≠ some false) &&
    (hit.continuitySubjectKey.any Text.truthy || hit.lineageRootId.any Text.truthy)

def parseDate (value : Option String) : Int :=
  ((value.filter Text.truthy).bind host.dateParse).getD 0

/-- `parseDate(validAt) || parseDate(updatedAt) || parseDate(createdAt)`. -/
def currentSince (hit : Hit) : Int :=
  if parseDate host hit.validAt ≠ 0 then parseDate host hit.validAt
  else if parseDate host hit.updatedAt ≠ 0 then parseDate host hit.updatedAt
  else parseDate host hit.createdAt

/-- `compareLatestStateRepresentatives(a, b)` is not positive. -/
def compareLatestStateRepresentatives : Hit → Hit → Prop :=
  Sorted.falling isActiveLineageBacked (Sorted.falling Hit.score (Sorted.falling (currentSince host)
    fun a b => host.localeCompare a.id b.id ≠ .gt))

instance : DecidableRel (compareLatestStateRepresentatives host) :=
  inferInstanceAs (DecidableRel (Sorted.falling _ _))

def mergeRepresentativeScore (bestScore : ℚ) (hit : Hit) : Hit :=
  { hit with
    score := max hit.score bestScore
    rankingExplanation := some ((hit.rankingExplanation.getD [] ++
      [if isActiveLineageBacked hit then "latest_state:active_lineage_representative"
        else "latest_state:seed_candidate"]).take 8) }

/-- `LatestStateResolution`. -/
structure Resolution where
  representatives : List Hit
  hydratedIds : List String
  droppedSeedIds : List String

/-- The hydrated hits of a group. -/
def hydratedOf (hydratedHits : List Hit) (group : CandidateGroup) : List Hit :=
  ((groupOn (fun hit => some (getLatestStateIdentityKey hit)) hydratedHits).get?
    group.identityKey).getD []

def candidatesOf (hydratedHits : List Hit) (group : CandidateGroup) : List Hit :=
  (group.hits ++ hydratedOf hydratedHits group).map (mergeRepresentativeScore group.bestScore)

def representativeOf (hydratedHits : List Hit) (group : CandidateGroup) : Option Hit :=
  ((candidatesOf hydratedHits group).insertionSort (compareLatestStateRepresentatives host)).head?

def resolveLatestStateRepresentatives (groups : List CandidateGroup) (hydratedHits : List Hit) :
    Resolution where
  representatives := (groups.filterMap (representativeOf host hydratedHits)).insertionSort
    (compareLatestStateRepresentatives host)
  hydratedIds := distinct (groups.flatMap fun group =>
    (hydratedOf hydratedHits group).map Hit.id)
  droppedSeedIds := distinct (groups.flatMap fun group =>
    (representativeOf host hydratedHits group).toList.flatMap fun representative =>
      (group.hits.filter fun seed => seed.id ≠ representative.id).map Hit.id)

end

/-! ### What a group holds -/

/-- The hits of a key. -/
def ofKey (hits : List Hit) (key : String) : List Hit :=
  hits.filter fun hit => getLatestStateIdentityKey hit = key

variable {key : String} {hits : List Hit}

theorem mem_ofKey {hit : Hit} :
    hit ∈ ofKey hits key ↔ hit ∈ hits ∧ getLatestStateIdentityKey hit = key := by
  simp [ofKey]

/-- The best score of some hits. -/
def bestOf : List Hit → ℚ
  | [] => 0
  | hit :: hits => hits.foldl (fun best hit => max best hit.score) hit.score

theorem bestOf_concat (hne : hits ≠ []) (hit : Hit) :
    bestOf (hits ++ [hit]) = max (bestOf hits) hit.score := by
  cases hits with
  | nil => exact absurd rfl hne
  | cons first rest => simp [bestOf, List.foldl_append]

/-- A group of the hits of a key. -/
structure GroupOf (hits : List Hit) (key : String) (group : CandidateGroup) : Prop where
  key_eq : group.identityKey = key
  hits_eq : group.hits = ofKey hits key
  ne_nil : ofKey hits key ≠ []
  best_eq : group.bestScore = bestOf (ofKey hits key)

/-- The groups are those of the keys of the hits. -/
def GroupsOf (hits : List Hit) (groups : OrdMap String CandidateGroup) : Prop :=
  ∀ key, (groups.get? key = none ∧ ofKey hits key = []) ∨
    ∃ group, groups.get? key = some group ∧ GroupOf hits key group

variable {group : CandidateGroup}

theorem GroupOf.add
    (h : GroupOf hits key group) {hit : Hit} (hkey : getLatestStateIdentityKey hit = key) :
    GroupOf (hits ++ [hit]) key (group.add hit) := by
  have hof : ofKey (hits ++ [hit]) key = ofKey hits key ++ [hit] := by
    simp [ofKey, List.filter_append, hkey]
  refine ⟨h.key_eq, ?_, ?_, ?_⟩
  · rw [hof, ← h.hits_eq]
    rfl
  · simp [hof]
  · rw [hof, bestOf_concat h.ne_nil, ← h.best_eq]
    rfl

theorem groupsOf_candidateGroups (hits : List Hit) : GroupsOf hits (candidateGroups hits) := by
  refine foldl_from_nil (P := GroupsOf) ?_ hits fun key => .inl ⟨rfl, rfl⟩
  intro seen groups hit h key
  rw [OrdMap.get?_set]
  by_cases hkey : key = getLatestStateIdentityKey hit
  · subst hkey
    rw [if_pos rfl]
    rcases h (getLatestStateIdentityKey hit) with ⟨hnone, hnil⟩ | ⟨group, hget, hgroup⟩
    · have hof : ofKey (seen ++ [hit]) (getLatestStateIdentityKey hit) = [hit] := by
        have happend : ofKey (seen ++ [hit]) (getLatestStateIdentityKey hit) =
            ofKey seen (getLatestStateIdentityKey hit) ++ [hit] := by
          simp [ofKey, List.filter_append]
        rw [happend, hnil, List.nil_append]
      refine .inr ⟨_, rfl, ?_⟩
      rw [hnone]
      exact ⟨rfl, hof.symm, by simp [hof], by rw [hof]; rfl⟩
    · refine .inr ⟨_, rfl, ?_⟩
      rw [hget]
      exact hgroup.add rfl
  · have hof : ofKey (seen ++ [hit]) key = ofKey seen key := by
      simp [ofKey, List.filter_append, Ne.symm hkey]
    rw [if_neg hkey, hof]
    rcases h key with hnone | ⟨group, hget, hgroup⟩
    · exact .inl hnone
    · exact .inr ⟨group, hget, ⟨hgroup.key_eq, by rw [hof]; exact hgroup.hits_eq,
        by rw [hof]; exact hgroup.ne_nil, by rw [hof]; exact hgroup.best_eq⟩⟩

theorem groupOf_of_get?
    (h : (candidateGroups pool).get? key = some group) : GroupOf pool key group := by
  rcases groupsOf_candidateGroups pool key with ⟨hnone, -⟩ | ⟨group', hget, hgroup⟩
  · rw [h] at hnone
    cases hnone
  · rw [h] at hget
    cases hget
    exact hgroup

theorem groupOf_of_mem_collapse (h : group ∈ collapseLatestStateCandidates host pool) :
    GroupOf pool group.identityKey group := by
  rw [collapseLatestStateCandidates, List.mem_insertionSort, OrdMap.mem_values] at h
  obtain ⟨key, hget⟩ := h
  have hgroup := groupOf_of_get? hget
  rw [hgroup.key_eq]
  exact hgroup

/-- **There is a group of each key of the pool.** -/
theorem exists_group (host : Host) (hne : ofKey pool key ≠ []) :
    ∃ group ∈ collapseLatestStateCandidates host pool, GroupOf pool key group := by
  rcases groupsOf_candidateGroups pool key with ⟨-, hnil⟩ | ⟨group, hget, hgroup⟩
  · exact absurd hnil hne
  · refine ⟨group, ?_, hgroup⟩
    rw [collapseLatestStateCandidates, List.mem_insertionSort, OrdMap.mem_values]
    exact ⟨key, hget⟩

/-- **No two groups have a key in common.** -/
theorem nodup_collapse (host : Host) (pool : List Hit) :
    ((collapseLatestStateCandidates host pool).map CandidateGroup.identityKey).Nodup := by
  have hkeys : (candidateGroups pool).values.map CandidateGroup.identityKey =
      (candidateGroups pool).keys := by
    rw [OrdMap.values, OrdMap.keys, List.map_map]
    refine List.map_congr_left fun e he => ?_
    exact (groupOf_of_get? (OrdMap.get?_eq_some.mpr he)).key_eq
  have hperm := List.perm_insertionSort (Sorted.falling CandidateGroup.bestScore fun a b =>
    host.localeCompare a.identityKey b.identityKey ≠ .gt) (candidateGroups pool).values
  refine (hperm.map CandidateGroup.identityKey).nodup_iff.mpr ?_
  rw [hkeys]
  exact OrdMap.keys_nodup _

end Runir.Recall.LatestState
