import Mathlib.Data.List.Zip
import Runir.Capture.FactValues
import Runir.Lib.Runs
import Runir.Writes.Resolve

/-!
# Capture — Batch dedup

`batchDedupFacts` of `src/capture/extraction/capture.ts`: of two similar facts of a batch the surer
one stays.

* `removedFacts`: the two loops, with the break of the inner one.
* `compare`: one comparison.  The loops are a run of comparisons (`removedFacts_eq`).
* `batchDedupFacts_witnessed_iff`: every fact dropped has a similar one that stays and is as sure,
  exactly where no comparison drops the last such fact of one dropped before.
-/

namespace Runir

section
variable (host : Host) (embedText : String → List ℚ) (threshold : ℚ) (facts : List ExtractedFact)

/-- The fact at an index. -/
def confidenceAt (i : Nat) : ℚ := ((facts[i]?).map (·.confidence)).getD 0

/-- The similarity of two facts. -/
def similarityAt (i j : Nat) : ℚ :=
  let embedding (k : Nat) := ((facts[k]?).map fun fact => embedText fact.l0).getD []
  cosineSimilarity host (embedding i) (embedding j)

/-- The inner loop for a fact that is not removed: what is removed after it. -/
def compareRow (i : Nat) (removed : List Nat) : List Nat → List Nat
  | [] => removed
  | j :: js =>
      if j ∈ removed then compareRow i removed js
      else if threshold < similarityAt host embedText facts i j then
        if confidenceAt facts j ≤ confidenceAt facts i then compareRow i (j :: removed) js
        else i :: removed
      else compareRow i removed js

/-- The indices after an index. -/
def indicesAfter (i : Nat) : List Nat := List.range' (i + 1) (facts.length - (i + 1))

def removedFacts : List Nat :=
  (List.range facts.length).foldl (fun removed i =>
    if i ∈ removed then removed
    else compareRow host embedText threshold facts i removed (indicesAfter facts i)) []

/-- `facts.filter((_, idx) => …)`. -/
def factsOutside (removed : List Nat) : List ExtractedFact :=
  (facts.zipIdx.filter fun p => decide (p.2 ∉ removed)).map Prod.fst

def batchDedupFacts : List ExtractedFact :=
  if facts.length ≤ 1 then facts
  else factsOutside facts (removedFacts host embedText threshold facts)

/-! ### Comparisons -/

/-- What a comparison of two facts drops. -/
def dropped? (removed : List Nat) (p : Nat × Nat) : Option Nat :=
  if p.1 ∈ removed ∨ p.2 ∈ removed then none
  else if threshold < similarityAt host embedText facts p.1 p.2 then
    if confidenceAt facts p.2 ≤ confidenceAt facts p.1 then some p.2 else some p.1
  else none

def compare (removed : List Nat) (p : Nat × Nat) : List Nat :=
  (dropped? host embedText threshold facts removed p).toList ++ removed

/-- The pairs, in the order of the loops. -/
def pairsOf : List (Nat × Nat) :=
  (List.range facts.length).flatMap fun i => (indicesAfter facts i).map fun j => (i, j)

variable {removed : List Nat}

/-- Once a fact is removed, the comparisons of its row drop nothing. -/
theorem foldl_compare_of_mem {i : Nat} (h : i ∈ removed) (js : List Nat) :
    (js.map fun j => (i, j)).foldl (compare host embedText threshold facts) removed = removed := by
  induction js with
  | nil => rfl
  | cons j js ih =>
      have hstep : compare host embedText threshold facts removed (i, j) = removed := by
        unfold compare dropped?
        rw [if_pos (Or.inl h)]
        rfl
      rw [List.map_cons, List.foldl_cons, hstep, ih]

theorem compareRow_eq {i : Nat} (h : i ∉ removed) {js : List Nat} (hjs : i ∉ js) :
    compareRow host embedText threshold facts i removed js =
      (js.map fun j => (i, j)).foldl (compare host embedText threshold facts) removed := by
  induction js generalizing removed with
  | nil => rfl
  | cons j js ih =>
      obtain ⟨hij, hjs⟩ := not_or.mp fun h' => hjs (List.mem_cons.mpr h')
      rw [List.map_cons, List.foldl_cons, compareRow]
      unfold compare dropped?
      dsimp only
      by_cases hj : j ∈ removed
      · rw [if_pos hj, if_pos (Or.inr hj)]
        exact ih h hjs
      · rw [if_neg hj, if_neg (not_or.mpr ⟨h, hj⟩)]
        by_cases hsim : threshold < similarityAt host embedText facts i j
        · rw [if_pos hsim, if_pos hsim]
          by_cases hconf : confidenceAt facts j ≤ confidenceAt facts i
          · rw [if_pos hconf, if_pos hconf]
            exact ih (fun h' => (List.mem_cons.mp h').elim hij h) hjs
          · -- the break
            rw [if_neg hconf, if_neg hconf]
            exact (foldl_compare_of_mem host embedText threshold facts List.mem_cons_self js).symm
        · rw [if_neg hsim, if_neg hsim]
          exact ih h hjs

/-- **The loops are a run of comparisons.** -/
theorem removedFacts_eq :
    removedFacts host embedText threshold facts =
      (pairsOf facts).foldl (compare host embedText threshold facts) [] := by
  unfold removedFacts pairsOf
  rw [List.foldl_flatMap]
  congr 1
  funext removed i
  split
  · rename_i h
    exact (foldl_compare_of_mem host embedText threshold facts h _).symm
  · rename_i h
    refine compareRow_eq host embedText threshold facts h fun hi => ?_
    have hlt := (List.mem_range'_1.mp hi).1
    omega

/-! ### Witnesses -/

theorem sum_zip_comm {f : ℚ × ℚ → ℚ} (hf : ∀ e, f e.swap = f e) (a b : List ℚ) :
    ((a.zip b).map f).sum = ((b.zip a).map f).sum := by
  rw [← List.zip_swap a b, List.map_map]
  exact congrArg List.sum (List.map_congr_left fun e _ => (hf e).symm)

theorem cosineSimilarity_comm (a b : List ℚ) :
    cosineSimilarity host a b = cosineSimilarity host b a := by
  unfold cosineSimilarity
  rw [sum_zip_comm (a := a) (b := b) fun e => mul_comm e.2 e.1]
  have hlengths : (a.length = 0 ∨ b.length = 0 ∨ a.length ≠ b.length) ↔
      (b.length = 0 ∨ a.length = 0 ∨ b.length ≠ a.length) := by
    omega
  by_cases h : a.length = 0 ∨ b.length = 0 ∨ a.length ≠ b.length
  · rw [if_pos h, if_pos (hlengths.mp h)]
  · rw [if_neg h, if_neg (mt hlengths.mpr h)]
    dsimp only
    rw [mul_comm (host.sqrt _) (host.sqrt (b.map _).sum)]
    exact if_congr or_comm rfl rfl

theorem similarityAt_comm (i j : Nat) :
    similarityAt host embedText facts i j = similarityAt host embedText facts j i :=
  cosineSimilarity_comm host _ _

/-- A fact that may stand for another: similar, and as sure. -/
def Covers (k d : Nat) : Prop :=
  threshold < similarityAt host embedText facts k d ∧ confidenceAt facts d ≤ confidenceAt facts k

/-- Every fact that is removed has one that is not and covers it. -/
def Witnessed (removed : List Nat) : Prop :=
  ∀ d ∈ removed, ∃ k < facts.length, k ∉ removed ∧ Covers host embedText threshold facts k d

/-- A fact that is the last one left to cover a removed one. -/
def IsLastWitness (removed : List Nat) (x : Nat) : Prop :=
  ∃ d ∈ removed, ∀ k < facts.length, k ∉ removed → Covers host embedText threshold facts k d → k = x

/-- A comparison drops no such fact. -/
def SparesWitnesses (removed : List Nat) (p : Nat × Nat) : Prop :=
  ∀ x, dropped? host embedText threshold facts removed p = some x →
    ¬ IsLastWitness host embedText threshold facts removed x

/-- A pair of the loops. -/
def IsPair (p : Nat × Nat) : Prop := p.1 < p.2 ∧ p.2 < facts.length

variable {p : Nat × Nat}

theorem isPair_of_mem (h : p ∈ pairsOf facts) : IsPair facts p := by
  obtain ⟨i, -, hp⟩ := List.mem_flatMap.mp h
  obtain ⟨j, hj, rfl⟩ := List.mem_map.mp hp
  obtain ⟨hlt, hlen⟩ := List.mem_range'_1.mp hj
  exact ⟨hlt, by dsimp only; omega⟩

variable {host embedText threshold facts}

/-- Of the two facts of a comparison that drops one, the other covers it and is left. -/
theorem exists_cover_of_dropped {x : Nat}
    (hp : IsPair facts p) (h : dropped? host embedText threshold facts removed p = some x) :
    x < facts.length ∧ ∃ y < facts.length, y ∉ removed ∧ y ≠ x ∧
      Covers host embedText threshold facts y x := by
  obtain ⟨i, j⟩ := p
  obtain ⟨hij, hj⟩ := hp
  unfold dropped? at h
  split at h
  · cases h
  · rename_i hremoved
    obtain ⟨hi', hj'⟩ := not_or.mp hremoved
    split at h
    · rename_i hsim
      split at h
      · rename_i hconf
        obtain rfl := Option.some.inj h
        exact ⟨hj, i, hij.trans hj, hi', ne_of_lt hij, hsim, hconf⟩
      · rename_i hconf
        obtain rfl := Option.some.inj h
        refine ⟨hij.trans hj, j, hj, hj', (ne_of_lt hij).symm, ?_, (not_le.mp hconf).le⟩
        rw [similarityAt_comm]
        exact hsim
    · cases h

theorem mem_compare {d : Nat} :
    d ∈ compare host embedText threshold facts removed p ↔
      dropped? host embedText threshold facts removed p = some d ∨ d ∈ removed := by
  rw [compare, List.mem_append, Option.mem_toList]

/-- What has no witness gets none. -/
theorem not_witnessed_compare (h : ¬ Witnessed host embedText threshold facts removed) :
    ¬ Witnessed host embedText threshold facts (compare host embedText threshold facts removed p) := by
  refine fun hw => h fun d hd => ?_
  obtain ⟨k, hk, hno, hcovers⟩ := hw d (mem_compare.mpr (Or.inr hd))
  exact ⟨k, hk, fun hm => hno (mem_compare.mpr (Or.inr hm)), hcovers⟩

/-- **One comparison** keeps a witness for each removed fact unless it drops the last one. -/
theorem witnessed_compare_iff (hp : IsPair facts p)
    (h : Witnessed host embedText threshold facts removed) :
    Witnessed host embedText threshold facts (compare host embedText threshold facts removed p) ↔
      SparesWitnesses host embedText threshold facts removed p := by
  constructor
  · rintro hw x hx ⟨d, hd, hlast⟩
    obtain ⟨k, hk, hno, hcovers⟩ := hw d (mem_compare.mpr (Or.inr hd))
    have hkx := hlast k hk (fun hm => hno (mem_compare.mpr (Or.inr hm))) hcovers
    exact hno (mem_compare.mpr (Or.inl (hkx ▸ hx)))
  · intro hspares d hd
    rcases mem_compare.mp hd with hx | hd
    · obtain ⟨-, y, hy, hno, hne, hcovers⟩ := exists_cover_of_dropped hp hx
      refine ⟨y, hy, fun hm => ?_, hcovers⟩
      rcases mem_compare.mp hm with hy' | hy'
      · exact hne (Option.some.inj (hy'.symm.trans hx))
      · exact hno hy'
    · by_contra hnone
      obtain ⟨k, hk, hno, hcovers⟩ := h d hd
      have hgone : ∀ k' < facts.length, k' ∉ removed →
          Covers host embedText threshold facts k' d →
          dropped? host embedText threshold facts removed p = some k' := by
        intro k' hk' hno' hcovers'
        by_contra hx
        refine hnone ⟨k', hk', fun hm => ?_, hcovers'⟩
        exact (mem_compare.mp hm).elim hx hno'
      have hx := hgone k hk hno hcovers
      refine hspares k hx ⟨d, hd, fun k' hk' hno' hcovers' => ?_⟩
      exact Option.some.inj ((hgone k' hk' hno' hcovers').symm.trans hx)

variable (host embedText threshold facts)

/-- The comparisons as steps. -/
def compareStep (removed : List Nat) (p : Nat × Nat) : Option (List Nat) :=
  some (compare host embedText threshold facts removed p)

theorem exec_compareStep (ps : List (Nat × Nat)) (removed : List Nat) :
    Runs.exec (compareStep host embedText threshold facts) removed ps =
      some (ps.foldl (compare host embedText threshold facts) removed) := by
  induction ps generalizing removed with
  | nil => rfl
  | cons p ps ih => exact ih _

theorem witnessed_removedFacts_iff :
    Witnessed host embedText threshold facts (removedFacts host embedText threshold facts) ↔
      Runs.Along (compareStep host embedText threshold facts)
        (SparesWitnesses host embedText threshold facts) [] (pairsOf facts) := by
  rw [removedFacts_eq]
  refine Runs.end_iff_along ?_ ?_ (fun d hd => absurd hd List.not_mem_nil)
    (exec_compareStep host embedText threshold facts (pairsOf facts) [])
  · rintro removed p hp removed' hw hstep
    obtain rfl := Option.some.inj hstep
    exact witnessed_compare_iff (isPair_of_mem facts hp) hw
  · rintro removed p hp removed' hw hstep
    obtain rfl := Option.some.inj hstep
    exact not_witnessed_compare hw

/-- One fact is left. -/
theorem exists_left (h : facts ≠ []) :
    ∃ k < facts.length, k ∉ removedFacts host embedText threshold facts := by
  rw [removedFacts_eq]
  refine Runs.exec_preserves_of_mem (I := fun removed => ∃ k < facts.length, k ∉ removed)
    (fun removed p hp removed' hleft hstep => ?_)
    ⟨0, List.length_pos_iff.mpr h, List.not_mem_nil⟩
    (exec_compareStep host embedText threshold facts (pairsOf facts) [])
  obtain rfl := Option.some.inj hstep
  cases hx : dropped? host embedText threshold facts removed p with
  | none =>
      obtain ⟨k, hk, hno⟩ := hleft
      refine ⟨k, hk, fun hm => (mem_compare.mp hm).elim (fun hd => ?_) hno⟩
      rw [hx] at hd
      cases hd
  | some x =>
      obtain ⟨-, y, hy, hno, hne, -⟩ := exists_cover_of_dropped (isPair_of_mem facts hp) hx
      refine ⟨y, hy, fun hm => (mem_compare.mp hm).elim (fun hd => ?_) hno⟩
      exact hne (Option.some.inj (hd.symm.trans hx))

theorem lt_of_mem_removedFacts {d : Nat}
    (h : d ∈ removedFacts host embedText threshold facts) : d < facts.length := by
  have hall : ∀ d ∈ removedFacts host embedText threshold facts, d < facts.length := by
    rw [removedFacts_eq]
    refine Runs.exec_preserves_of_mem (I := fun removed => ∀ d ∈ removed, d < facts.length)
      (fun removed p hp removed' hbelow hstep => ?_) (by simp)
      (exec_compareStep host embedText threshold facts (pairsOf facts) [])
    obtain rfl := Option.some.inj hstep
    intro d hd
    rcases mem_compare.mp hd with hx | hd
    · exact (exists_cover_of_dropped (isPair_of_mem facts hp) hx).1
    · exact hbelow d hd
  exact hall d h

/-! ### The facts returned -/

theorem mem_factsOutside {fact : ExtractedFact} :
    fact ∈ factsOutside facts removed ↔ ∃ k, facts[k]? = some fact ∧ k ∉ removed := by
  simp only [factsOutside, List.mem_map, List.mem_filter, decide_eq_true_eq, Prod.exists,
    List.mem_zipIdx_iff_getElem?, exists_and_right, exists_eq_right]

theorem batchDedupFacts_eq :
    batchDedupFacts host embedText threshold facts =
      factsOutside facts (removedFacts host embedText threshold facts) := by
  unfold batchDedupFacts
  split
  · rename_i hlen
    have hpairs : pairsOf facts = [] := List.eq_nil_iff_forall_not_mem.mpr fun p hp => by
      obtain ⟨hlt, hlt'⟩ := isPair_of_mem facts hp
      omega
    rw [removedFacts_eq, hpairs, List.foldl_nil, factsOutside]
    simp
  · rfl

/-- Every fact dropped has one returned that is similar to it and as sure. -/
def DropsWitnessed : Prop :=
  ∀ d ∈ removedFacts host embedText threshold facts, ∀ fact, facts[d]? = some fact →
    ∃ kept ∈ batchDedupFacts host embedText threshold facts,
      threshold < cosineSimilarity host (embedText kept.l0) (embedText fact.l0) ∧
        fact.confidence ≤ kept.confidence

theorem covers_iff {k d : Nat} {kept fact : ExtractedFact} (hk : facts[k]? = some kept)
    (hd : facts[d]? = some fact) :
    Covers host embedText threshold facts k d ↔
      threshold < cosineSimilarity host (embedText kept.l0) (embedText fact.l0) ∧
        fact.confidence ≤ kept.confidence := by
  simp only [Covers, similarityAt, confidenceAt, hk, hd, Option.map_some, Option.getD_some]

theorem dropsWitnessed_iff :
    DropsWitnessed host embedText threshold facts ↔
      Witnessed host embedText threshold facts (removedFacts host embedText threshold facts) := by
  unfold DropsWitnessed
  rw [batchDedupFacts_eq]
  constructor
  · intro h d hd
    have hlt := lt_of_mem_removedFacts host embedText threshold facts hd
    have hfact := List.getElem?_eq_getElem hlt
    obtain ⟨kept, hkept, hcovers⟩ := h d hd _ hfact
    obtain ⟨k, hk, hno⟩ := (mem_factsOutside facts).mp hkept
    refine ⟨k, (List.getElem?_eq_some_iff.mp hk).1, hno, ?_⟩
    exact (covers_iff host embedText threshold facts hk hfact).mpr hcovers
  · intro h d hd fact hfact
    obtain ⟨k, hk, hno, hcovers⟩ := h d hd
    have hkept := List.getElem?_eq_getElem hk
    exact ⟨facts[k], (mem_factsOutside facts).mpr ⟨k, hkept, hno⟩,
      (covers_iff host embedText threshold facts hkept hfact).mp hcovers⟩

/-- **Batch dedup leaves a witness** exactly where no comparison drops the last fact that covers one
dropped before.  The order of the facts is kept always, and one of them is. -/
theorem batchDedupFacts_witnessed_iff :
    (batchDedupFacts host embedText threshold facts).Sublist facts ∧
      (facts ≠ [] → batchDedupFacts host embedText threshold facts ≠ []) ∧
        (DropsWitnessed host embedText threshold facts ↔
          Runs.Along (compareStep host embedText threshold facts)
            (SparesWitnesses host embedText threshold facts) [] (pairsOf facts)) := by
  rw [dropsWitnessed_iff, batchDedupFacts_eq]
  refine ⟨?_, fun hne hnil => ?_, witnessed_removedFacts_iff host embedText threshold facts⟩
  · have hsub := (List.filter_sublist (l := facts.zipIdx)
      (p := fun p => decide (p.2 ∉ removedFacts host embedText threshold facts))).map Prod.fst
    rwa [List.zipIdx_map_fst] at hsub
  · obtain ⟨k, hk, hno⟩ := exists_left host embedText threshold facts hne
    have hm := (mem_factsOutside facts).mpr ⟨k, List.getElem?_eq_getElem hk, hno⟩
    rw [hnil] at hm
    cases hm

end

/-! ### A chain of three -/

def factNamed (l0 : String) (confidence : ℚ) : ExtractedFact where
  l2 := some (.str l0)
  l0 := l0
  l1 := .str l0
  confidence := confidence
  category := "cases"
  tier := "working"
  tags := []
  directives := []
  factKey := l0
  rawSourceText := none
  rawSpan := none
  rawSpans := none
  atomicFact := none
  event := none
  atomicClaims := none

/-- The first is between the other two, which are not similar. -/
def chainVector (text : String) : List ℚ :=
  if text = "middle" then [13, 0] else if text = "left" then [12, 5] else [12, -5]

def chainFacts : List ExtractedFact :=
  [factNamed "middle" (88 / 100), factNamed "left" (86 / 100), factNamed "right" (9 / 10)]

/-- The middle fact drops the left one, and is dropped for the right one. -/
theorem middle_drops_then_dropped :
    (batchDedupFacts .ascii chainVector (85 / 100) chainFacts).map (·.l0) = ["right"] ∧
      ¬ DropsWitnessed .ascii chainVector (85 / 100) chainFacts := by
  refine ⟨by decide +kernel, fun h => ?_⟩
  obtain ⟨kept, hkept, hsim, -⟩ := h 1 (by decide +kernel) (factNamed "left" (86 / 100)) rfl
  have hall : ∀ kept ∈ batchDedupFacts .ascii chainVector (85 / 100) chainFacts,
      ¬ 85 / 100 < cosineSimilarity .ascii (chainVector kept.l0) (chainVector "left") := by
    decide +kernel
  exact hall kept hkept hsim

end Runir
