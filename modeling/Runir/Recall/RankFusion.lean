import Runir.Lib.ReciprocalRanks
import Runir.Lib.Sorted
import Runir.Overlay.Merge

/-!
# Recall — Rank fusion

`rrfFuse` of `src/recall/query/memory-query.ts`: the four legs of a recall are made one list.

* `VectorRow`, `Bm25Row`, `RecencyRow`, `EntityRow`: the rows of the legs, with ranks from 1.
* `fuseLeg`: the loop over a leg, with what it does to an entry.
* `Tallied`: what an entry has been given, by the legs gone over.
* `rrfFuse_fuses`: each id of a leg is returned once, with the sum of its weighted reciprocal ranks,
  and what is ranked at least as well in every leg does not come after.

Scores are rational numbers; the overloaded arguments are sums, with the absence of an argument.
-/

namespace Runir.Recall

structure VectorRow where
  id : Option Value
  rank : ℕ+

structure Bm25Row where
  id : Option Value
  score : ℚ
  rank : ℕ+

structure RecencyRow where
  id : Option Value
  createdAt : String
  rank : ℕ+

structure EntityRow where
  id : Option Value
  rank : ℕ+
  score : ℚ

structure FusedRow where
  id : Option Value
  score : ℚ
  vectorRank : Option ℕ+ := none
  bm25Rank : Option ℕ+ := none
  bm25Score : Option ℚ := none
  recencyRank : Option ℕ+ := none
  recencyCreatedAt : Option String := none
  entityRank : Option ℕ+ := none
  entityScore : Option ℚ := none

/-- `rrfWeights`. -/
structure FusionWeights where
  vector : ℚ
  bm25 : ℚ
  recency : ℚ
  entity : Option ℚ := none

/-- `DEFAULT_RRF_ENTITY_WEIGHT`. -/
def defaultEntityWeight : ℚ := 45 / 100

/-- `defaultRrfEntityWeight`, of `RUNIR_RRF_ENTITY_WEIGHT` and `Number`, where that is finite. -/
def defaultRrfEntityWeight (number : String → Option ℚ) (raw : Option String) : ℚ :=
  match raw with
  | none => defaultEntityWeight
  | some raw =>
      if Text.trim raw = "" then defaultEntityWeight
      else
        match number raw with
        | none => defaultEntityWeight
        | some n => if n < 0 then defaultEntityWeight else n

theorem defaultRrfEntityWeight_nonneg (number : String → Option ℚ) (raw : Option String) :
    0 ≤ defaultRrfEntityWeight number raw := by
  have hdefault : 0 ≤ defaultEntityWeight := by
    rw [defaultEntityWeight]
    positivity
  unfold defaultRrfEntityWeight
  split
  · exact hdefault
  split
  · exact hdefault
  split
  · exact hdefault
  split
  · exact hdefault
  · next hn => exact not_lt.mp hn

/-! ### The arguments -/

def entityHitsOf : Option (List EntityRow ⊕ ℚ) → List EntityRow
  | some (.inl hits) => hits
  | _ => []

/-- `rrfK`: the fourth argument where it is a number, or else the fifth. -/
def rrfKOf (entityHitsOrRrfK : Option (List EntityRow ⊕ ℚ))
    (rrfKOrWeights : Option (ℚ ⊕ FusionWeights)) : ℚ :=
  match entityHitsOrRrfK, rrfKOrWeights with
  | some (.inr k), _ => k
  | _, some (.inl k) => k
  | _, _ => 60

def weightsOf (entityDefault : ℚ) (rrfKOrWeights : Option (ℚ ⊕ FusionWeights))
    (weightsArg : Option FusionWeights) : FusionWeights :=
  let weights := match rrfKOrWeights with
    | some (.inr weights) => some weights
    | _ => weightsArg
  weights.getD ⟨1, 12 / 10, 8 / 10, some entityDefault⟩

/-! ### The loops -/

section
variable (host : Host)

/-- A loop over a leg: the entry of each hit is made, or changed in its place. -/
def fuseLeg {ρ : Type*} (idOf : ρ → Option Value) (fuse : ρ → FusedRow → FusedRow)
    (hits : List ρ) (candidates : OrdMap String FusedRow) : OrdMap String FusedRow :=
  hits.foldl (fun m h =>
    let id := extractId host (idOf h)
    m.set id (fuse h ((m.get? id).getD { id := idOf h, score := 0 }))) candidates

variable (rrfK : ℚ)

def fuseVector (weight : ℚ) (h : VectorRow) (entry : FusedRow) : FusedRow :=
  { entry with
    id := h.id
    vectorRank := some h.rank
    score := entry.score + weight / (rrfK + (h.rank : ℕ)) }

def fuseBm25 (weight : ℚ) (h : Bm25Row) (entry : FusedRow) : FusedRow :=
  { entry with
    id := if entry.vectorRank.isNone then h.id else entry.id
    bm25Rank := some h.rank
    bm25Score := some h.score
    score := entry.score + weight / (rrfK + (h.rank : ℕ)) }

def fuseRecency (weight : ℚ) (h : RecencyRow) (entry : FusedRow) : FusedRow :=
  { entry with
    id := if entry.vectorRank.isNone && entry.bm25Rank.isNone then h.id else entry.id
    recencyRank := some h.rank
    recencyCreatedAt := some h.createdAt
    score := entry.score + weight / (rrfK + (h.rank : ℕ)) }

def fuseEntity (weight : ℚ) (h : EntityRow) (entry : FusedRow) : FusedRow :=
  { entry with
    id := if entry.vectorRank.isNone && entry.bm25Rank.isNone && entry.recencyRank.isNone then h.id
      else entry.id
    entityRank := some h.rank
    entityScore := some h.score
    score := entry.score + weight / (rrfK + (h.rank : ℕ)) }

end

/-- `rrfFuse`, with what `defaultRrfEntityWeight` gives. -/
def rrfFuse (host : Host) (entityDefault : ℚ) (vectorHits : List VectorRow)
    (bm25Hits : List Bm25Row) (recencyHits : List RecencyRow)
    (entityHitsOrRrfK : Option (List EntityRow ⊕ ℚ))
    (rrfKOrWeights : Option (ℚ ⊕ FusionWeights)) (weightsArg : Option FusionWeights) :
    List FusedRow :=
  let rrfK := rrfKOf entityHitsOrRrfK rrfKOrWeights
  let weights := weightsOf entityDefault rrfKOrWeights weightsArg
  let candidates := fuseLeg host VectorRow.id (fuseVector rrfK weights.vector) vectorHits .empty
  let candidates := fuseLeg host Bm25Row.id (fuseBm25 rrfK weights.bm25) bm25Hits candidates
  let candidates :=
    fuseLeg host RecencyRow.id (fuseRecency rrfK weights.recency) recencyHits candidates
  let candidates := fuseLeg host EntityRow.id
    (fuseEntity rrfK (weights.entity.getD entityDefault)) (entityHitsOf entityHitsOrRrfK) candidates
  candidates.values.insertionSort fun a b => b.score ≤ a.score

/-! ### One leg -/

section
variable (host : Host) {ρ : Type*} (idOf : ρ → Option Value) (rankOf : ρ → ℕ+)

/-- The ranking a list of hits makes. -/
def legOf (weight : ℚ) (hits : List ρ) : Leg String where
  weight := weight
  rank id := (hits.find? fun h => extractId host (idOf h) == id).map rankOf

/-- What an entry is to an id, where the legs gone over give it `score`, or do not rank it. -/
def Tallied (id : String) (score : ℚ) (ranked : Prop) : Option FusedRow → Prop
  | none => ¬ranked ∧ score = 0
  | some entry => ranked ∧ extractId host entry.id = id ∧ entry.score = score

/-- What a loop does to an entry: it stays of its id, and the score grows by the share. -/
def Shares (k weight : ℚ) (fuse : ρ → FusedRow → FusedRow) : Prop :=
  ∀ h entry, extractId host entry.id = extractId host (idOf h) →
    extractId host (fuse h entry).id = extractId host (idOf h) ∧
      (fuse h entry).score = entry.score + weight / (k + (rankOf h : ℕ))

variable {host idOf rankOf} {k weight : ℚ} {fuse : ρ → FusedRow → FusedRow} {hits : List ρ}
  {m : OrdMap String FusedRow} {id : String}

theorem legOf_rank_ne_none_iff :
    (legOf host idOf rankOf weight hits).rank id ≠ none ↔
      id ∈ hits.map fun h => extractId host (idOf h) := by
  rw [legOf, Ne, Option.map_eq_none_iff, List.find?_eq_none]
  simp

theorem get?_fuseLeg_of_not_mem (h : id ∉ hits.map fun h => extractId host (idOf h)) :
    (fuseLeg host idOf fuse hits m).get? id = m.get? id := by
  induction hits generalizing m with
  | nil => rfl
  | cons x hits ih =>
      rw [List.map_cons, List.mem_cons, not_or] at h
      rw [fuseLeg, List.foldl_cons, ← fuseLeg, ih h.2, OrdMap.get?_set_ne _ _ h.1]

theorem get?_fuseLeg_of_mem (hnodup : (hits.map fun h => extractId host (idOf h)).Nodup) {x : ρ}
    (hx : x ∈ hits) : (fuseLeg host idOf fuse hits m).get? (extractId host (idOf x)) =
      some (fuse x ((m.get? (extractId host (idOf x))).getD { id := idOf x, score := 0 })) := by
  induction hits generalizing m with
  | nil => cases hx
  | cons y hits ih =>
      rw [List.map_cons, List.nodup_cons] at hnodup
      rw [fuseLeg, List.foldl_cons, ← fuseLeg]
      rcases List.mem_cons.mp hx with rfl | hx
      · rw [get?_fuseLeg_of_not_mem hnodup.1, OrdMap.get?_set_self]
      · have hne : extractId host (idOf x) ≠ extractId host (idOf y) := by
          intro heq
          exact hnodup.1 (heq ▸ List.mem_map_of_mem hx)
        rw [ih hnodup.2 hx, OrdMap.get?_set_ne _ _ hne]

/-- **A leg gives its share.** -/
theorem Tallied.fuseLeg {score : ℚ} {ranked : Prop} (h : Tallied host id score ranked (m.get? id))
    (hnodup : (hits.map fun h => extractId host (idOf h)).Nodup)
    (hfuse : Shares host idOf rankOf k weight fuse) :
    Tallied host id (score + (legOf host idOf rankOf weight hits).share k id)
      (ranked ∨ (legOf host idOf rankOf weight hits).rank id ≠ none)
      ((fuseLeg host idOf fuse hits m).get? id) := by
  have hleg : (legOf host idOf rankOf weight hits).rank id =
      (hits.find? fun h => extractId host (idOf h) == id).map rankOf := rfl
  cases hfind : hits.find? fun h => extractId host (idOf h) == id with
  | none =>
      have hrank : (legOf host idOf rankOf weight hits).rank id = none := by
        rw [hleg, hfind]
        rfl
      have hnot : id ∉ hits.map fun h => extractId host (idOf h) := by
        rw [← legOf_rank_ne_none_iff, hrank]
        exact fun hne => hne rfl
      rw [get?_fuseLeg_of_not_mem hnot, Leg.share, hrank]
      simpa using h
  | some x =>
      have hx := List.mem_of_find?_eq_some hfind
      have hid : extractId host (idOf x) = id := by simpa using List.find?_some hfind
      have hrank : (legOf host idOf rankOf weight hits).rank id = some (rankOf x) := by
        rw [hleg, hfind]
        rfl
      subst hid
      rw [get?_fuseLeg_of_mem hnodup hx, Leg.share, hrank]
      cases hentry : m.get? (extractId host (idOf x)) with
      | none =>
          rw [hentry] at h
          obtain ⟨hid, hscore⟩ := hfuse x { id := idOf x, score := 0 } rfl
          refine ⟨Or.inr (Option.some_ne_none _), hid, hscore.trans ?_⟩
          rw [h.2]
          rfl
      | some entry =>
          rw [hentry] at h
          obtain ⟨hid, hscore⟩ := hfuse x entry h.2.1
          refine ⟨Or.inr (Option.some_ne_none _), hid, hscore.trans ?_⟩
          rw [h.2.2]
          rfl

end

section
variable (host : Host) (rrfK weight : ℚ)

theorem fuseVector_shares : Shares host VectorRow.id VectorRow.rank rrfK weight
    (fuseVector rrfK weight) :=
  fun _ _ _ => ⟨rfl, rfl⟩

theorem fuseBm25_shares : Shares host Bm25Row.id Bm25Row.rank rrfK weight
    (fuseBm25 rrfK weight) := by
  intro h entry hid
  refine ⟨?_, rfl⟩
  rw [fuseBm25]
  split
  · rfl
  · exact hid

theorem fuseRecency_shares : Shares host RecencyRow.id RecencyRow.rank rrfK weight
    (fuseRecency rrfK weight) := by
  intro h entry hid
  refine ⟨?_, rfl⟩
  rw [fuseRecency]
  split
  · rfl
  · exact hid

theorem fuseEntity_shares : Shares host EntityRow.id EntityRow.rank rrfK weight
    (fuseEntity rrfK weight) := by
  intro h entry hid
  refine ⟨?_, rfl⟩
  rw [fuseEntity]
  split
  · rfl
  · exact hid

end

/-! ### The four legs -/

/-- No weight is negative. -/
structure FusionWeights.Nonneg (weights : FusionWeights) : Prop where
  vector : 0 ≤ weights.vector
  bm25 : 0 ≤ weights.bm25
  recency : 0 ≤ weights.recency
  entity : ∀ w, weights.entity = some w → 0 ≤ w

/-- The legs of a fusion, with their weights. -/
def fusionLegs (host : Host) (entityDefault : ℚ) (weights : FusionWeights)
    (vectorHits : List VectorRow) (bm25Hits : List Bm25Row) (recencyHits : List RecencyRow)
    (entityHits : List EntityRow) : List (Leg String) :=
  [legOf host VectorRow.id VectorRow.rank weights.vector vectorHits,
    legOf host Bm25Row.id Bm25Row.rank weights.bm25 bm25Hits,
    legOf host RecencyRow.id RecencyRow.rank weights.recency recencyHits,
    legOf host EntityRow.id EntityRow.rank (weights.entity.getD entityDefault) entityHits]

/-- The rows are the fusion of the legs. -/
structure Fuses (host : Host) (rrfK : ℚ) (legs : List (Leg String)) (rows : List FusedRow) :
    Prop where
  once : (rows.map fun row => extractId host row.id).Nodup
  all : ∀ id, id ∈ rows.map (fun row => extractId host row.id) ↔ ∃ leg ∈ legs, leg.rank id ≠ none
  score : ∀ row ∈ rows, row.score = Leg.fusedScore rrfK legs (extractId host row.id)
  falling : rows.Pairwise fun x y => y.score ≤ x.score
  dominant : rows.Pairwise fun x y =>
    Leg.Dominates legs (extractId host y.id) (extractId host x.id) → x.score = y.score

/-- The candidates are the ids of the legs, each with its score. -/
theorem fuses_of_tallied {host : Host} {rrfK : ℚ} {legs : List (Leg String)}
    {m : OrdMap String FusedRow} (hk : 0 ≤ rrfK) (hweights : ∀ leg ∈ legs, 0 ≤ leg.weight)
    (h : ∀ id, Tallied host id (Leg.fusedScore rrfK legs id) (∃ leg ∈ legs, leg.rank id ≠ none)
      (m.get? id)) :
    Fuses host rrfK legs (m.values.insertionSort fun a b => b.score ≤ a.score) := by
  have hentry : ∀ {id row}, m.get? id = some row → (∃ leg ∈ legs, leg.rank id ≠ none) ∧
      extractId host row.id = id ∧ row.score = Leg.fusedScore rrfK legs id := by
    intro id row hrow
    have htallied := h id
    rwa [hrow] at htallied
  have hperm := List.perm_insertionSort (fun a b : FusedRow => b.score ≤ a.score) m.values
  have hkeys : m.values.map (fun row => extractId host row.id) = m.keys := by
    rw [OrdMap.values, OrdMap.keys, List.map_map]
    exact List.map_congr_left fun e he => (hentry (OrdMap.get?_eq_some.mpr he)).2.1
  have hscore : ∀ row ∈ m.values.insertionSort fun a b => b.score ≤ a.score,
      row.score = Leg.fusedScore rrfK legs (extractId host row.id) := by
    intro row hrow
    obtain ⟨id, hid⟩ := OrdMap.mem_values.mp ((List.mem_insertionSort _).mp hrow)
    obtain ⟨-, heq, hscore⟩ := hentry hid
    rw [heq]
    exact hscore
  have hfalling := Sorted.pairwise_insertionSort_value FusedRow.score m.values
  refine ⟨?_, fun id => ?_, hscore, hfalling, Leg.pairwise_of_falling hk hweights hscore hfalling⟩
  · rw [(hperm.map _).nodup_iff, hkeys]
    exact m.keys_nodup
  · rw [(hperm.map _).mem_iff, hkeys]
    have htallied := h id
    constructor
    · intro hmem
      cases hget : m.get? id with
      | none => exact absurd hmem (OrdMap.get?_eq_none.mp hget)
      | some row => exact (hentry hget).1
    · intro hranked
      by_contra hnot
      rw [OrdMap.get?_eq_none.mpr hnot] at htallied
      exact htallied.1 hranked

section
variable {host : Host} {entityDefault : ℚ} {vectorHits : List VectorRow}
  {bm25Hits : List Bm25Row} {recencyHits : List RecencyRow} {entityHits : List EntityRow}

/-- What an entry has been given after the four loops. -/
theorem tallied_fusionLegs (k : ℚ) (weights : FusionWeights)
    (hvector : (vectorHits.map fun h => extractId host h.id).Nodup)
    (hbm25 : (bm25Hits.map fun h => extractId host h.id).Nodup)
    (hrecency : (recencyHits.map fun h => extractId host h.id).Nodup)
    (hentity : (entityHits.map fun h => extractId host h.id).Nodup) (id : String) :
    let legs := fusionLegs host entityDefault weights vectorHits bm25Hits recencyHits entityHits
    Tallied host id (Leg.fusedScore k legs id) (∃ leg ∈ legs, leg.rank id ≠ none)
      ((fuseLeg host EntityRow.id (fuseEntity k (weights.entity.getD entityDefault)) entityHits
        (fuseLeg host RecencyRow.id (fuseRecency k weights.recency) recencyHits
          (fuseLeg host Bm25Row.id (fuseBm25 k weights.bm25) bm25Hits
            (fuseLeg host VectorRow.id (fuseVector k weights.vector) vectorHits .empty)))).get?
        id) := by
  have hstart : Tallied host id 0 False ((OrdMap.empty : OrdMap String FusedRow).get? id) :=
    ⟨not_false, rfl⟩
  have h₁ := hstart.fuseLeg hvector (fuseVector_shares host k weights.vector)
  have h₂ := h₁.fuseLeg hbm25 (fuseBm25_shares host k weights.bm25)
  have h₃ := h₂.fuseLeg hrecency (fuseRecency_shares host k weights.recency)
  have h₄ := h₃.fuseLeg hentity (fuseEntity_shares host k (weights.entity.getD entityDefault))
  simpa only [fusionLegs, Leg.fusedScore, List.map_cons, List.map_nil, List.sum_cons,
    List.sum_nil, zero_add, add_zero, add_assoc, false_or, or_assoc, List.exists_mem_cons_iff,
    List.not_mem_nil, false_and, exists_false, or_false] using h₄

/-- **Rank fusion is dominance preserving.**  Each id of a leg is returned once, with the sum of its
weighted reciprocal ranks, by falling score; what comes after another and is ranked at least as well
in every leg has the same score. -/
theorem rrfFuse_fuses (number : String → Option ℚ) (raw : Option String)
    {entityHitsOrRrfK : Option (List EntityRow ⊕ ℚ)}
    {rrfKOrWeights : Option (ℚ ⊕ FusionWeights)} {weightsArg : Option FusionWeights}
    (hk : 0 ≤ rrfKOf entityHitsOrRrfK rrfKOrWeights)
    (hweights : (weightsOf (defaultRrfEntityWeight number raw) rrfKOrWeights weightsArg).Nonneg)
    (hvector : (vectorHits.map fun h => extractId host h.id).Nodup)
    (hbm25 : (bm25Hits.map fun h => extractId host h.id).Nodup)
    (hrecency : (recencyHits.map fun h => extractId host h.id).Nodup)
    (hentity : ((entityHitsOf entityHitsOrRrfK).map fun h => extractId host h.id).Nodup) :
    Fuses host (rrfKOf entityHitsOrRrfK rrfKOrWeights)
      (fusionLegs host (defaultRrfEntityWeight number raw)
        (weightsOf (defaultRrfEntityWeight number raw) rrfKOrWeights weightsArg) vectorHits
        bm25Hits recencyHits (entityHitsOf entityHitsOrRrfK))
      (rrfFuse host (defaultRrfEntityWeight number raw) vectorHits bm25Hits recencyHits
        entityHitsOrRrfK rrfKOrWeights weightsArg) := by
  rw [rrfFuse]
  refine fuses_of_tallied hk ?_ (tallied_fusionLegs _ _ hvector hbm25 hrecency hentity)
  simp only [fusionLegs, List.forall_mem_cons, legOf]
  refine ⟨hweights.vector, hweights.bm25, hweights.recency, ?_, List.forall_mem_nil _⟩
  cases hw : (weightsOf (defaultRrfEntityWeight number raw) rrfKOrWeights weightsArg).entity with
  | none => exact defaultRrfEntityWeight_nonneg number raw
  | some w => exact hweights.entity w hw

end

/-- Two legs, with an id in two spellings, and the weights of the code. -/
theorem rrfFuse_fuses_spellings : Fuses Host.ascii (rrfKOf none none)
    (fusionLegs Host.ascii (defaultRrfEntityWeight (fun _ => none) none)
      (weightsOf (defaultRrfEntityWeight (fun _ => none) none) none none)
      [⟨some (.str "memory:a"), 1⟩, ⟨some (.str "memory:b"), 2⟩] [⟨some (.str "b"), 3, 1⟩] []
      (entityHitsOf none))
    (rrfFuse Host.ascii (defaultRrfEntityWeight (fun _ => none) none)
      [⟨some (.str "memory:a"), 1⟩, ⟨some (.str "memory:b"), 2⟩] [⟨some (.str "b"), 3, 1⟩] []
      none none none) := by
  refine rrfFuse_fuses (fun _ => none) none ?_ ?_ ?_ ?_ ?_ ?_
  · norm_num [rrfKOf]
  · refine ⟨?_, ?_, ?_, ?_⟩
    · norm_num [weightsOf]
    · norm_num [weightsOf]
    · norm_num [weightsOf]
    · rintro w ⟨⟩
      exact defaultRrfEntityWeight_nonneg _ _
  · decide +kernel
  · decide +kernel
  · exact List.nodup_nil
  · exact List.nodup_nil

end Runir.Recall
