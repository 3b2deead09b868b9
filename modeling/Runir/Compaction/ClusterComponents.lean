import Mathlib.Data.List.Pairwise
import Runir.Compaction.Clusters

/-!
# Compaction — ClusterComponents

The clusters of `findClusters` are the connected components of `SharesEnough`.

* The inverted index lists the memories of each entity, so the graph has an edge between any two
  memories with an entity in common, with their similarity (`graphOf_buildCooccurrenceGraph`).
* The union-find joins what the edges above the threshold connect (`joins_findClusters`).
* `findClusters_components`: its groups are the components, whatever order the map has.
-/

namespace Runir.Compaction

/-! ### The relation -/

variable {entityMap : EntityMap} {jaccardThreshold minSharedEntities : ℚ}

/-- The entities that a memory mentions. -/
def entities (entityMap : EntityMap) (memId : String) : Finset String :=
  (entityMap.entitiesOf memId).toFinset

/-- The Jaccard similarity of two sets. -/
def similarity (a b : Finset String) : ℚ := (a ∩ b).card / (a ∪ b).card

/-- Two memories share enough entities. -/
structure SharesEnough (entityMap : EntityMap) (jaccardThreshold minSharedEntities : ℚ)
    (a b : String) : Prop where
  ne : a ≠ b
  left : a ∈ entityMap.keys
  right : b ∈ entityMap.keys
  shared : minSharedEntities ≤ (entities entityMap a ∩ entities entityMap b).card
  similar : jaccardThreshold < similarity (entities entityMap a) (entities entityMap b)

theorem similarity_comm (a b : Finset String) : similarity a b = similarity b a := by
  rw [similarity, similarity, Finset.inter_comm, Finset.union_comm]

theorem SharesEnough.symm {a b : String}
    (h : SharesEnough entityMap jaccardThreshold minSharedEntities a b) :
    SharesEnough entityMap jaccardThreshold minSharedEntities b a where
  ne := h.ne.symm
  left := h.right
  right := h.left
  shared := by rw [Finset.inter_comm]; exact h.shared
  similar := by rw [similarity_comm]; exact h.similar

theorem jaccard_eq (s t : OrdSet String) : jaccard s t = similarity s.toFinset t.toFinset := by
  have hunion : (s.toFinset ∪ t.toFinset).card = s.size + t.size - s.shared t := by
    rw [OrdSet.shared_eq_card, Finset.card_union, OrdSet.card_toFinset, OrdSet.card_toFinset]
  unfold jaccard similarity
  dsimp only
  rw [hunion, ← OrdSet.shared_eq_card]
  split
  · next h => simp [h.1, h.2]
  · split
    · next h => simp [h]
    · rfl

/-! ### The inverted index -/

/-- The memories under an entity. -/
def memoriesOf (inverted : OrdMap String (OrdSet String)) (entId : String) : OrdSet String :=
  (inverted.get? entId).getD .empty

theorem mem_memoriesOf_foldl (memId : String) (entIds : List String)
    (inverted : OrdMap String (OrdSet String)) (e m : String) :
    m ∈ memoriesOf (entIds.foldl (fun (inverted : OrdMap String (OrdSet String)) entId =>
        inverted.set entId (((inverted.get? entId).getD .empty).add memId)) inverted) e ↔
      m ∈ memoriesOf inverted e ∨ (m = memId ∧ e ∈ entIds) := by
  induction entIds generalizing inverted with
  | nil => simp
  | cons entId entIds ih =>
      rw [List.foldl_cons, ih, memoriesOf, OrdMap.get?_set]
      by_cases he : e = entId
      · subst he
        rw [if_pos rfl, Option.getD_some, OrdSet.mem_add, memoriesOf, List.mem_cons]
        tauto
      · rw [if_neg he, List.mem_cons, memoriesOf]
        tauto

theorem mem_invertedIndex (entityMap : EntityMap) (e m : String) :
    m ∈ memoriesOf (invertedIndex entityMap) e ↔ m ∈ entityMap.keys ∧ e ∈ entities entityMap m := by
  have hseen : m ∈ memoriesOf (invertedIndex entityMap) e ↔
      ∃ memory ∈ entityMap.entries, memory.1 = m ∧ e ∈ memory.2 := by
    refine foldl_from_nil (P := fun seen inverted => m ∈ memoriesOf inverted e ↔
      ∃ memory ∈ seen, memory.1 = m ∧ e ∈ memory.2) ?_ entityMap.entries ?_
    · intro seen inverted memory h
      rw [mem_memoriesOf_foldl, h]
      simp only [List.mem_append, List.mem_singleton, or_and_right, exists_or, exists_eq_left]
      rw [eq_comm (a := m)]
      rfl
    · simp [memoriesOf, OrdSet.not_mem_empty]
  rw [hseen]
  constructor
  · rintro ⟨⟨m', s⟩, hmem, rfl, he⟩
    have hget : entityMap.get? m' = some s := OrdMap.get?_eq_some.mpr hmem
    refine ⟨List.mem_map.mpr ⟨_, hmem, rfl⟩, ?_⟩
    rw [entities, EntityMap.entitiesOf, hget]
    exact he
  · rintro ⟨hm, he⟩
    obtain ⟨memory, hmem, rfl⟩ := List.mem_map.mp hm
    have hget : entityMap.get? memory.1 = some memory.2 := OrdMap.get?_eq_some.mpr hmem
    rw [entities, EntityMap.entitiesOf, hget] at he
    exact ⟨memory, hmem, rfl, he⟩

/-! ### The graph -/

/-- The similarity that the graph holds for two memories. -/
def weight (edges : Edges) (a b : String) : Option ℚ := (edges.get? a).bind (·.get? b)

theorem weight_open (edges : Edges) (m a b : String) :
    weight (if edges.has m then edges else edges.set m .empty) a b = weight edges a b := by
  split
  · rfl
  · next h =>
      rw [weight, OrdMap.get?_set]
      split
      · next ham =>
          have hnone : edges.get? a = none := by
            rw [ham]
            exact Option.not_isSome_iff_eq_none.mp h
          rw [weight, hnone]
          rfl
      · rfl

theorem weight_put (edges : Edges) (k j : String) (v : ℚ) (a b : String) :
    weight (edges.set k (((edges.get? k).getD .empty).set j v)) a b =
      if a = k ∧ b = j then some v else weight edges a b := by
  unfold weight
  rw [OrdMap.get?_set]
  by_cases ha : a = k
  · subst ha
    rw [if_pos rfl, Option.bind_some, OrdMap.get?_set]
    by_cases hb : b = j
    · rw [if_pos hb, if_pos ⟨rfl, hb⟩]
    · rw [if_neg hb, if_neg fun h => hb h.2]
      cases edges.get? a with
      | none => rfl
      | some neighbors => rfl
  · rw [if_neg ha, if_neg fun h => ha h.1]

theorem weight_linkMemories (entityMap : EntityMap) (edges : Edges) (m1 m2 a b : String) :
    weight (linkMemories entityMap edges m1 m2) a b =
      if (weight edges m1 m2).isSome then weight edges a b
      else if (a = m2 ∧ b = m1) ∨ (a = m1 ∧ b = m2) then
        some (jaccard (entityMap.entitiesOf m1) (entityMap.entitiesOf m2))
      else weight edges a b := by
  unfold linkMemories
  dsimp only
  set edges₁ : Edges := if edges.has m1 then edges else edges.set m1 .empty with h₁
  set edges₂ : Edges := if edges₁.has m2 then edges₁ else edges₁.set m2 .empty with h₂
  have hweight : ∀ a b, weight edges₂ a b = weight edges a b := fun a b => by
    rw [h₂, weight_open, h₁, weight_open]
  have hhas : (edges₂.get? m1).any (·.has m2) = (weight edges m1 m2).isSome := by
    rw [← hweight, weight]
    cases edges₂.get? m1 with
    | none => rfl
    | some neighbors => rfl
  rw [hhas]
  split
  · exact hweight a b
  · rw [weight_put, weight_put, hweight]
    by_cases hback : a = m2 ∧ b = m1
    · rw [if_pos hback, if_pos (Or.inl hback)]
    · rw [if_neg hback]
      simp only [hback, false_or]

/-- What the graph holds of the memories: similarities of two different ones, and no other. -/
def SoundGraph (entityMap : EntityMap) (edges : Edges) : Prop :=
  ∀ a b s, weight edges a b = some s →
    a ≠ b ∧ a ∈ entityMap.keys ∧ b ∈ entityMap.keys ∧
      s = similarity (entities entityMap a) (entities entityMap b)

/-- `edges'` has an edge wherever `edges` has one. -/
def Extends (edges edges' : Edges) : Prop :=
  ∀ a b, (weight edges a b).isSome → (weight edges' a b).isSome

variable {edges : Edges}

theorem linkMemories_sound (h : SoundGraph entityMap edges) {m1 m2 : String}
    (hne : m1 ≠ m2) (h1 : m1 ∈ entityMap.keys) (h2 : m2 ∈ entityMap.keys) :
    SoundGraph entityMap (linkMemories entityMap edges m1 m2) ∧
      Extends edges (linkMemories entityMap edges m1 m2) ∧
      (weight (linkMemories entityMap edges m1 m2) m1 m2).isSome := by
  refine ⟨fun a b s hs => ?_, fun a b hab => ?_, ?_⟩
  · rw [weight_linkMemories] at hs
    split at hs
    · exact h a b s hs
    · split at hs
      · next hpair =>
          rw [jaccard_eq] at hs
          rcases hpair with ⟨rfl, rfl⟩ | ⟨rfl, rfl⟩
          · refine ⟨hne.symm, h2, h1, ?_⟩
            rw [similarity_comm]
            exact (Option.some.inj hs).symm
          · exact ⟨hne, h1, h2, (Option.some.inj hs).symm⟩
      · exact h a b s hs
  · rw [weight_linkMemories]
    split
    · exact hab
    · split
      · rfl
      · exact hab
  · rw [weight_linkMemories]
    split
    · next hsome => exact hsome
    · rw [if_pos (Or.inr ⟨rfl, rfl⟩)]
      rfl

theorem linkRest_sound (h : SoundGraph entityMap edges) {m1 : String}
    (h1 : m1 ∈ entityMap.keys) {rest : List String} (hrest : ∀ m ∈ rest, m ∈ entityMap.keys ∧ m1 ≠ m) :
    SoundGraph entityMap (rest.foldl (fun edges m2 => linkMemories entityMap edges m1 m2) edges) ∧
      Extends edges (rest.foldl (fun edges m2 => linkMemories entityMap edges m1 m2) edges) ∧
      ∀ m ∈ rest,
        (weight (rest.foldl (fun edges m2 => linkMemories entityMap edges m1 m2) edges) m1 m).isSome := by
  induction rest generalizing edges with
  | nil => exact ⟨h, fun _ _ hab => hab, fun _ hm => nomatch hm⟩
  | cons m2 rest ih =>
      obtain ⟨h2, hne⟩ := hrest m2 List.mem_cons_self
      obtain ⟨hsound, hextends, hlinked⟩ := linkMemories_sound h hne h1 h2
      obtain ⟨hsound', hextends', hall⟩ := ih hsound fun m hm => hrest m (List.mem_cons_of_mem _ hm)
      refine ⟨hsound', fun a b hab => hextends' a b (hextends a b hab), fun m hm => ?_⟩
      rcases List.mem_cons.mp hm with rfl | hm
      · exact hextends' _ _ hlinked
      · exact hall m hm

theorem linkAll_sound (h : SoundGraph entityMap edges) {mems : List String}
    (hnodup : mems.Nodup) (hmems : ∀ m ∈ mems, m ∈ entityMap.keys) :
    SoundGraph entityMap (linkAll entityMap edges mems) ∧
      Extends edges (linkAll entityMap edges mems) ∧
      mems.Pairwise fun a b => (weight (linkAll entityMap edges mems) a b).isSome := by
  induction mems generalizing edges with
  | nil => exact ⟨h, fun _ _ hab => hab, .nil⟩
  | cons m1 rest ih =>
      obtain ⟨hnot, hnodup⟩ := List.nodup_cons.mp hnodup
      have hrest : ∀ m ∈ rest, m ∈ entityMap.keys ∧ m1 ≠ m := fun m hm =>
        ⟨hmems m (List.mem_cons_of_mem _ hm), fun heq => hnot (heq ▸ hm)⟩
      obtain ⟨hsound, hextends, hlinked⟩ := linkRest_sound h (hmems m1 List.mem_cons_self) hrest
      obtain ⟨hsound', hextends', hpairs⟩ := ih hsound hnodup fun m hm => (hrest m hm).1
      refine ⟨hsound', fun a b hab => hextends' a b (hextends a b hab), List.pairwise_cons.mpr ⟨?_, hpairs⟩⟩
      exact fun m hm => hextends' m1 m (hlinked m hm)

theorem linkLists_sound (h : SoundGraph entityMap edges) {lists : List (OrdSet String)}
    (hlists : ∀ memories ∈ lists, ∀ m ∈ memories, m ∈ entityMap.keys) :
    SoundGraph entityMap
        (lists.foldl (fun edges memories => linkAll entityMap edges memories.elems) edges) ∧
      Extends edges
        (lists.foldl (fun edges memories => linkAll entityMap edges memories.elems) edges) ∧
      ∀ memories ∈ lists, memories.elems.Pairwise fun a b =>
        (weight (lists.foldl (fun edges memories => linkAll entityMap edges memories.elems) edges)
          a b).isSome := by
  induction lists generalizing edges with
  | nil => exact ⟨h, fun _ _ hab => hab, fun _ hm => nomatch hm⟩
  | cons memories lists ih =>
      obtain ⟨hsound, hextends, hpairs⟩ :=
        linkAll_sound h memories.nodup (hlists memories List.mem_cons_self)
      obtain ⟨hsound', hextends', hall⟩ :=
        ih hsound fun memories hm => hlists memories (List.mem_cons_of_mem _ hm)
      refine ⟨hsound', fun a b hab => hextends' a b (hextends a b hab), fun memories' hm => ?_⟩
      rcases List.mem_cons.mp hm with rfl | hm
      · exact hpairs.imp (hextends' _ _)
      · exact hall memories' hm

/-- **The graph links any two memories with an entity in common, at their similarity.** -/
theorem graphOf_buildCooccurrenceGraph (entityMap : EntityMap) :
    SoundGraph entityMap (buildCooccurrenceGraph entityMap) ∧
      ∀ a b e, a ≠ b → a ∈ entityMap.keys → b ∈ entityMap.keys → e ∈ entities entityMap a →
        e ∈ entities entityMap b →
          (weight (buildCooccurrenceGraph entityMap) a b).isSome ∨
            (weight (buildCooccurrenceGraph entityMap) b a).isSome := by
  have hlists : ∀ memories ∈ (invertedIndex entityMap).values, ∀ m ∈ memories, m ∈ entityMap.keys := by
    intro memories hmemories m hm
    obtain ⟨e, he⟩ := OrdMap.mem_values.mp hmemories
    refine ((mem_invertedIndex entityMap e m).mp ?_).1
    rw [memoriesOf, he]
    exact hm
  have hempty : SoundGraph entityMap .empty := fun _ _ _ hs => nomatch hs
  obtain ⟨hsound, -, hpairs⟩ := linkLists_sound hempty hlists
  refine ⟨hsound, fun a b e hne ha hb hea heb => ?_⟩
  have hmema := (mem_invertedIndex entityMap e a).mpr ⟨ha, hea⟩
  have hmemb := (mem_invertedIndex entityMap e b).mpr ⟨hb, heb⟩
  cases hget : (invertedIndex entityMap).get? e with
  | none =>
      rw [memoriesOf, hget] at hmema
      exact absurd hmema OrdSet.not_mem_empty
  | some memories =>
      rw [memoriesOf, hget] at hmema hmemb
      have hpair := hpairs memories (OrdMap.mem_values.mpr ⟨e, hget⟩)
      have hlinked : memories.elems.Pairwise fun a b =>
          (weight (buildCooccurrenceGraph entityMap) a b).isSome ∨
            (weight (buildCooccurrenceGraph entityMap) b a).isSome := hpair.imp Or.inl
      have hsymm : Std.Symm fun a b => (weight (buildCooccurrenceGraph entityMap) a b).isSome ∨
          (weight (buildCooccurrenceGraph entityMap) b a).isSome := ⟨fun _ _ h => h.symm⟩
      exact hlinked.forall hmema hmemb hne

/-! ### The union-find -/

/-- The edges that the loops join. -/
def Joined (entityMap : EntityMap) (jaccardThreshold minSharedEntities : ℚ)
    (nodes : List (String × OrdMap String ℚ)) (a b : String) : Prop :=
  ∃ node ∈ nodes, ∃ neighbor ∈ node.2.entries,
    isLinked entityMap jaccardThreshold minSharedEntities node.1 neighbor.1 neighbor.2 = true ∧
      a = node.1 ∧ b = neighbor.1

theorem isLinked_iff {a b : String} {s : ℚ} :
    isLinked entityMap jaccardThreshold minSharedEntities a b s = true ↔
      minSharedEntities ≤ (entities entityMap a ∩ entities entityMap b).card ∧ jaccardThreshold < s := by
  rw [isLinked, Bool.and_eq_true, decide_eq_true_iff, decide_eq_true_iff, OrdSet.shared_eq_card]
  rfl

variable {uf : UnionFind String}

theorem enterMemories_eq {memIds : List String} {d : String → Nat}
    (hnodup : (uf.parent.keys ++ memIds).Nodup) (h : UnionFind.Forest uf.parent id d) :
    ∃ uf', enterMemories uf memIds = some uf' ∧ UnionFind.Forest uf'.parent id d ∧
      uf'.parent.keys = uf.parent.keys ++ memIds := by
  induction memIds generalizing uf with
  | nil => exact ⟨uf, rfl, h, (List.append_nil _).symm⟩
  | cons memId memIds ih =>
      have hnew : uf.parent.get? memId = none := OrdMap.get?_eq_none.mpr fun hmem =>
        (List.nodup_append.mp hnodup).2.2 memId hmem memId List.mem_cons_self rfl
      obtain ⟨hfind, hforest⟩ := UnionFind.find_new h hnew
      have hkeys : (uf.parent.set memId memId).keys = uf.parent.keys ++ [memId] := by
        rw [OrdMap.keys, OrdMap.entries_set_of_none hnew, List.map_append]
        rfl
      have hnodup' : ((uf.parent.set memId memId).keys ++ memIds).Nodup := by
        rw [hkeys, List.append_assoc]
        exact hnodup
      obtain ⟨uf', henter, hforest', hkeys'⟩ := @ih ⟨uf.parent.set memId memId⟩ hnodup' hforest
      refine ⟨uf', ?_, hforest', ?_⟩
      · rw [enterMemories, List.foldlM_cons, hfind]
        exact henter
      · refine hkeys'.trans ?_
        rw [hkeys, List.append_assoc]
        rfl

/-- The union-find holds the memories, and joins what `R` connects. -/
def JoinsMemories (entityMap : EntityMap) (uf : UnionFind String) (R : String → String → Prop) : Prop :=
  ∃ ρ d, UnionFind.Forest uf.parent ρ d ∧ uf.parent.keys = entityMap.keys ∧ UnionFind.Joins ρ R

theorem JoinsMemories.congr {R S : String → String → Prop}
    (h : JoinsMemories entityMap uf R) (hiff : ∀ a b, R a b ↔ S a b) : JoinsMemories entityMap uf S := by
  obtain rfl : R = S := by
    funext a b
    exact propext (hiff a b)
  exact h

variable {R : String → String → Prop}

theorem JoinsMemories.union
    (h : JoinsMemories entityMap uf R) {x y : String} (hx : x ∈ entityMap.keys)
    (hy : y ∈ entityMap.keys) :
    ∃ uf', uf.union x y = some uf' ∧
      JoinsMemories entityMap uf' fun a b => R a b ∨ (a = x ∧ b = y) := by
  obtain ⟨ρ, d, hforest, hkeys, hjoins⟩ := h
  obtain ⟨uf', d', hunion, hforest', hkeys'⟩ :=
    UnionFind.union_eq hforest (hkeys ▸ hx) (hkeys ▸ hy)
  exact ⟨uf', hunion, _, d', hforest', hkeys'.trans hkeys, hjoins.merge x y⟩

theorem joinNeighbors_eq
    (h : JoinsMemories entityMap uf R) {m1 : String} {neighbors : List (String × ℚ)}
    (h1 : m1 ∈ entityMap.keys) (hneighbors : ∀ n ∈ neighbors, n.1 ∈ entityMap.keys) :
    ∃ uf', joinNeighbors entityMap jaccardThreshold minSharedEntities uf m1 neighbors = some uf' ∧
      JoinsMemories entityMap uf' fun a b => R a b ∨
        ∃ n ∈ neighbors, isLinked entityMap jaccardThreshold minSharedEntities m1 n.1 n.2 = true ∧
          a = m1 ∧ b = n.1 := by
  induction neighbors generalizing uf R with
  | nil => exact ⟨uf, rfl, h.congr fun a b => by simp⟩
  | cons n neighbors ih =>
      have hrest : ∀ n ∈ neighbors, n.1 ∈ entityMap.keys := fun n hn =>
        hneighbors n (List.mem_cons_of_mem _ hn)
      by_cases hlinked : isLinked entityMap jaccardThreshold minSharedEntities m1 n.1 n.2 = true
      · obtain ⟨uf₁, hunion, h₁⟩ := h.union h1 (hneighbors n List.mem_cons_self)
        obtain ⟨uf', hjoin, h'⟩ := ih h₁ hrest
        refine ⟨uf', ?_, h'.congr fun a b => ?_⟩
        · rw [joinNeighbors, List.foldlM_cons, if_pos hlinked, hunion]
          exact hjoin
        · simp only [List.mem_cons, or_and_right, exists_or, exists_eq_left, hlinked, true_and,
            or_assoc]
      · obtain ⟨uf', hjoin, h'⟩ := ih h hrest
        refine ⟨uf', ?_, h'.congr fun a b => ?_⟩
        · rw [joinNeighbors, List.foldlM_cons, if_neg hlinked]
          exact hjoin
        · simp [hlinked]

theorem joinEdges_eq {nodes : List (String × OrdMap String ℚ)}
    (h : JoinsMemories entityMap uf fun _ _ => False) (hnodes : ∀ node ∈ nodes,
      node.2.entries ≠ [] → node.1 ∈ entityMap.keys ∧ ∀ n ∈ node.2.entries, n.1 ∈ entityMap.keys) :
    ∃ uf', joinEdges entityMap jaccardThreshold minSharedEntities uf nodes = some uf' ∧
      JoinsMemories entityMap uf' (Joined entityMap jaccardThreshold minSharedEntities nodes) := by
  unfold joinEdges
  refine foldlM_from_nil (P := fun seen uf =>
    JoinsMemories entityMap uf (Joined entityMap jaccardThreshold minSharedEntities seen)) ?_
    (h.congr fun a b => by simp [Joined])
  intro seen uf node hnode hseen
  by_cases hnil : node.2.entries = []
  · refine ⟨uf, by rw [hnil]; rfl, hseen.congr fun a b => ?_⟩
    simp [Joined, or_and_right, exists_or, hnil]
  · obtain ⟨h1, hneighbors⟩ := hnodes node hnode hnil
    obtain ⟨uf', hjoin, hjoins⟩ := joinNeighbors_eq hseen h1 hneighbors
    refine ⟨uf', hjoin, hjoins.congr fun a b => ?_⟩
    simp only [Joined, List.mem_append, List.mem_singleton, or_and_right, exists_or, exists_eq_left]

/-- Where memories must share an entity, the edges of the graph join what shares enough. -/
theorem eqvGen_joined_iff (hmin : 1 ≤ minSharedEntities) (a b : String) :
    Relation.EqvGen (Joined entityMap jaccardThreshold minSharedEntities
        (buildCooccurrenceGraph entityMap).entries) a b ↔
      Relation.EqvGen (SharesEnough entityMap jaccardThreshold minSharedEntities) a b := by
  obtain ⟨hsound, hlinked⟩ := graphOf_buildCooccurrenceGraph entityMap
  have hof : ∀ a b s, weight (buildCooccurrenceGraph entityMap) a b = some s →
      isLinked entityMap jaccardThreshold minSharedEntities a b s = true →
        Joined entityMap jaccardThreshold minSharedEntities
          (buildCooccurrenceGraph entityMap).entries a b := by
    intro a b s hweight hlink
    obtain ⟨neighbors, hneighbors, hs⟩ := Option.bind_eq_some_iff.mp hweight
    exact ⟨(a, neighbors), OrdMap.get?_eq_some.mp hneighbors, (b, s), OrdMap.get?_eq_some.mp hs, hlink,
      rfl, rfl⟩
  constructor
  · refine Relation.EqvGen.mono ?_ a b
    rintro a b ⟨⟨a', neighbors⟩, hnode, ⟨b', s⟩, hs, hlink, rfl, rfl⟩
    have hweight : weight (buildCooccurrenceGraph entityMap) a b = some s := by
      rw [weight, OrdMap.get?_eq_some.mpr hnode]
      exact OrdMap.get?_eq_some.mpr hs
    obtain ⟨hne, ha, hb, rfl⟩ := hsound a b s hweight
    obtain ⟨hshared, hsimilar⟩ := isLinked_iff.mp hlink
    exact ⟨hne, ha, hb, hshared, hsimilar⟩
  · intro h
    induction h with
    | refl => exact .refl _
    | symm _ _ _ ih => exact ih.symm
    | trans _ _ _ _ _ ih₁ ih₂ => exact ih₁.trans _ _ _ ih₂
    | rel a b hab =>
        -- they have an entity in common, so the graph has an edge between them
        have hpos : 0 < (entities entityMap a ∩ entities entityMap b).card := by
          have hle := hmin.trans hab.shared
          exact_mod_cast hle
        obtain ⟨e, he⟩ := Finset.card_pos.mp hpos
        obtain ⟨hea, heb⟩ := Finset.mem_inter.mp he
        rcases hlinked a b e hab.ne hab.left hab.right hea heb with hsome | hsome
        · obtain ⟨s, hs⟩ := Option.isSome_iff_exists.mp hsome
          obtain ⟨-, -, -, rfl⟩ := hsound a b s hs
          exact .rel _ _ (hof a b _ hs (isLinked_iff.mpr ⟨hab.shared, hab.similar⟩))
        · obtain ⟨s, hs⟩ := Option.isSome_iff_exists.mp hsome
          obtain ⟨-, -, -, rfl⟩ := hsound b a s hs
          exact (Relation.EqvGen.rel _ _ (hof b a _ hs
            (isLinked_iff.mpr ⟨hab.symm.shared, hab.symm.similar⟩))).symm _ _

/-! ### The clusters -/

/-- The connected components of the memories. -/
def IsComponent (entityMap : EntityMap) (jaccardThreshold minSharedEntities : ℚ)
    (ids : Set String) : Prop :=
  ∃ a ∈ entityMap.keys, ids = {b | b ∈ entityMap.keys ∧
    Relation.EqvGen (SharesEnough entityMap jaccardThreshold minSharedEntities) a b}

/-- What `findClusters` returns. -/
structure FoundComponents (sha256 : String → String) (entityMap : EntityMap)
    (jaccardThreshold minSharedEntities : ℚ) (clusters : List MemoryCluster) : Prop where
  /-- The clusters are the components with at least two members. -/
  components : ∀ ids : Set String, (∃ c ∈ clusters, ids = {m | m ∈ c.memoryIds}) ↔
    IsComponent entityMap jaccardThreshold minSharedEntities ids ∧ ids.Nontrivial
  disjoint : clusters.Pairwise fun c c' => ∀ m ∈ c.memoryIds, m ∉ c'.memoryIds
  /-- A cluster lists its memories once and in order, and its other fields follow from them. -/
  nodup : ∀ c ∈ clusters, c.memoryIds.Nodup
  sorted : ∀ c ∈ clusters, c.memoryIds.Pairwise (· ≤ ·)
  size_eq : ∀ c ∈ clusters, c.size = c.memoryIds.length
  fingerprint : ∀ c ∈ clusters, c.fingerprintId = computeClusterFingerprint sha256 c.memoryIds
  entityIds : ∀ c ∈ clusters, ∀ e, e ∈ c.entityIds ↔ ∃ m ∈ c.memoryIds, e ∈ entities entityMap m

theorem mem_sortIds {ids : List String} {m : String} : m ∈ sortIds ids ↔ m ∈ ids :=
  List.mem_insertionSort _

theorem sorted_sortIds (ids : List String) : (sortIds ids).Pairwise (· ≤ ·) :=
  List.pairwise_insertionSort _ ids

theorem nodup_sortIds {ids : List String} (h : ids.Nodup) : (sortIds ids).Nodup :=
  (List.perm_insertionSort _ ids).nodup_iff.mpr h

theorem sortIds_sortIds (ids : List String) : sortIds (sortIds ids) = sortIds ids :=
  List.Pairwise.insertionSort_eq (sorted_sortIds ids)

theorem mem_entitiesOfGroup {members : List String} {e : String} :
    e ∈ entitiesOfGroup entityMap members ↔ ∃ m ∈ members, e ∈ entities entityMap m := by
  refine foldl_from_nil (P := fun seen (s : OrdSet String) =>
    e ∈ s ↔ ∃ m ∈ seen, e ∈ entities entityMap m) ?_ members (by simp [OrdSet.not_mem_empty])
  · intro seen s m h
    rw [OrdSet.mem_foldl_add, h]
    simp only [List.mem_append, List.mem_singleton, or_and_right, exists_or, exists_eq_left]
    rfl

theorem two_le_length_iff {members : List String} (h : members.Nodup) :
    2 ≤ members.length ↔ {m | m ∈ members}.Nontrivial := by
  constructor
  · intro hlength
    match members, h, hlength with
    | a :: b :: rest, h, _ =>
        refine ⟨a, List.mem_cons_self, b, List.mem_cons_of_mem _ List.mem_cons_self, ?_⟩
        exact fun heq => (List.nodup_cons.mp h).1 (heq ▸ List.mem_cons_self)
  · rintro ⟨a, ha, b, hb, hne⟩
    match members, ha, hb with
    | [c], ha, hb => exact absurd ((List.mem_singleton.mp ha).trans (List.mem_singleton.mp hb).symm) hne
    | _ :: _ :: _, _, _ => exact Nat.le_add_left 2 _

/-- The clusters of the groups of a union-find. -/
theorem foundComponents_of_joins (sha256 : String → String) {ρ : String → String}
    (h : UnionFind.Joins ρ (SharesEnough entityMap jaccardThreshold minSharedEntities)) :
    FoundComponents sha256 entityMap jaccardThreshold minSharedEntities
      (((groupOn (fun x => some (ρ x)) entityMap.keys).values.filter fun members =>
        2 ≤ members.length).map (clusterOf sha256 entityMap)) := by
  set groups := groupOn (fun x => some (ρ x)) entityMap.keys with hgroups
  -- a group holds the memories of one representative
  have hgroup : ∀ r members, groups.get? r = some members →
      members.Nodup ∧ ∀ m, m ∈ members ↔ m ∈ entityMap.keys ∧ ρ m = r := by
    intro r members hget
    rw [hgroups, get?_groupOn] at hget
    split at hget
    · cases hget
    · obtain rfl := Option.some.inj hget
      refine ⟨entityMap.keys_nodup.filter _, fun m => ?_⟩
      rw [List.mem_filter, decide_eq_true_iff, Option.some.injEq]
  have hfound : ∀ c, c ∈ (groups.values.filter fun members => 2 ≤ members.length).map
      (clusterOf sha256 entityMap) ↔
        ∃ r members, groups.get? r = some members ∧ 2 ≤ members.length ∧
          clusterOf sha256 entityMap members = c := by
    intro c
    simp only [List.mem_map, List.mem_filter, OrdMap.mem_values, decide_eq_true_iff]
    tauto
  have hcluster : ∀ c ∈ (groups.values.filter fun members => 2 ≤ members.length).map
      (clusterOf sha256 entityMap), ∃ members : List String, members.Nodup ∧
        clusterOf sha256 entityMap members = c := by
    intro c hc
    obtain ⟨r, members, hget, -, hc⟩ := (hfound c).mp hc
    exact ⟨members, (hgroup r members hget).1, hc⟩
  refine ⟨fun ids => ⟨?_, ?_⟩, ?_, ?_, ?_, ?_, ?_, ?_⟩
  · rintro ⟨c, hc, rfl⟩
    obtain ⟨r, members, hget, hlength, rfl⟩ := (hfound c).mp hc
    obtain ⟨hnodup, hmem⟩ := hgroup r members hget
    have hsame : {m | m ∈ (clusterOf sha256 entityMap members).memoryIds} = {m | m ∈ members} :=
      Set.ext fun m => mem_sortIds
    rw [hsame]
    have hnontrivial := (two_le_length_iff hnodup).mp hlength
    refine ⟨?_, hnontrivial⟩
    obtain ⟨a, ha, -⟩ := hnontrivial
    obtain ⟨hkey, rfl⟩ := (hmem a).mp ha
    refine ⟨a, hkey, Set.ext fun b => ?_⟩
    refine (hmem b).trans (and_congr_right fun _ => ?_)
    rw [eq_comm]
    exact h a b
  · rintro ⟨⟨a, hkey, rfl⟩, hnontrivial⟩
    have ha : a ∈ entityMap.keys.filter fun x => decide (some (ρ x) = some (ρ a)) :=
      List.mem_filter.mpr ⟨hkey, decide_eq_true rfl⟩
    have hget : groups.get? (ρ a) =
        some (entityMap.keys.filter fun x => decide (some (ρ x) = some (ρ a))) := by
      rw [hgroups, get?_groupOn, if_neg (List.ne_nil_of_mem ha)]
    obtain ⟨hnodup, hmem⟩ := hgroup _ _ hget
    have hsame : {b | b ∈ entityMap.keys ∧
        Relation.EqvGen (SharesEnough entityMap jaccardThreshold minSharedEntities) a b} =
          {m | m ∈ entityMap.keys.filter fun x => decide (some (ρ x) = some (ρ a))} := by
      refine Set.ext fun b => Iff.symm ((hmem b).trans (and_congr_right fun _ => ?_))
      rw [eq_comm]
      exact h a b
    rw [hsame] at hnontrivial ⊢
    refine ⟨_, (hfound _).mpr ⟨ρ a, _, hget, (two_le_length_iff hnodup).mpr hnontrivial, rfl⟩, ?_⟩
    exact Set.ext fun m => mem_sortIds.symm
  · -- the groups have different representatives
    have hentries : groups.entries.Pairwise fun e e' => ∀ m ∈ e.2, m ∉ e'.2 := by
      have hkeys : groups.entries.Pairwise fun e e' => e.1 ≠ e'.1 := List.pairwise_map.mp groups.nodup
      refine hkeys.imp_of_mem fun {e e'} he he' hne m hm hm' => hne ?_
      have hrep := ((hgroup e.1 e.2 (OrdMap.get?_eq_some.mpr he)).2 m).mp hm
      have hrep' := ((hgroup e'.1 e'.2 (OrdMap.get?_eq_some.mpr he')).2 m).mp hm'
      exact hrep.2.symm.trans hrep'.2
    have hvalues : groups.values.Pairwise fun xs ys => ∀ m ∈ xs, m ∉ ys := List.pairwise_map.mpr hentries
    refine List.pairwise_map.mpr ((hvalues.filter _).imp fun hdisjoint m hm hm' => ?_)
    exact hdisjoint m (mem_sortIds.mp hm) (mem_sortIds.mp hm')
  · intro c hc
    obtain ⟨members, hnodup, rfl⟩ := hcluster c hc
    exact nodup_sortIds hnodup
  · intro c hc
    obtain ⟨members, -, rfl⟩ := hcluster c hc
    exact sorted_sortIds members
  · intro c hc
    obtain ⟨members, -, rfl⟩ := hcluster c hc
    exact (List.length_insertionSort _ members).symm
  · intro c hc
    obtain ⟨members, -, rfl⟩ := hcluster c hc
    simp only [clusterOf, computeClusterFingerprint, sortIds_sortIds]
  · intro c hc e
    obtain ⟨members, -, rfl⟩ := hcluster c hc
    refine mem_entitiesOfGroup.trans (exists_congr fun m => and_congr_left fun _ => ?_)
    exact mem_sortIds.symm

theorem findClusters_eq (sha256 : String → String) (entityMap : EntityMap)
    (jaccardThreshold : ℚ) (hmin : 1 ≤ minSharedEntities) :
    ∃ clusters, findClusters sha256 entityMap jaccardThreshold minSharedEntities = some clusters ∧
      FoundComponents sha256 entityMap jaccardThreshold minSharedEntities clusters := by
  have hnodup : ((OrdMap.empty : OrdMap String String).keys ++ entityMap.keys).Nodup :=
    entityMap.keys_nodup
  have hempty : UnionFind.Forest (UnionFind.mk (.empty : OrdMap String String)).parent id fun _ => 0 :=
    UnionFind.forest_empty
  have hentry : ∃ uf, enterMemories ⟨.empty⟩ entityMap.keys = some uf ∧
      UnionFind.Forest uf.parent id (fun _ => 0) ∧ uf.parent.keys = entityMap.keys :=
    enterMemories_eq hnodup hempty
  obtain ⟨uf, henter, hforest, hkeys⟩ := hentry
  obtain ⟨hsound, -⟩ := graphOf_buildCooccurrenceGraph entityMap
  have hnodes : ∀ node ∈ (buildCooccurrenceGraph entityMap).entries, node.2.entries ≠ [] →
      node.1 ∈ entityMap.keys ∧ ∀ n ∈ node.2.entries, n.1 ∈ entityMap.keys := by
    rintro ⟨m1, neighbors⟩ hnode hne
    have hends : ∀ n ∈ neighbors.entries, m1 ∈ entityMap.keys ∧ n.1 ∈ entityMap.keys := by
      intro n hn
      have hweight : weight (buildCooccurrenceGraph entityMap) m1 n.1 = some n.2 := by
        rw [weight, OrdMap.get?_eq_some.mpr hnode]
        exact OrdMap.get?_eq_some.mpr hn
      obtain ⟨-, hm1, hn1, -⟩ := hsound m1 n.1 n.2 hweight
      exact ⟨hm1, hn1⟩
    obtain ⟨n, hn⟩ := List.exists_mem_of_ne_nil _ hne
    exact ⟨(hends n hn).1, fun n hn => (hends n hn).2⟩
  have hentered : JoinsMemories entityMap uf fun _ _ => False :=
    ⟨id, _, hforest, hkeys, UnionFind.joins_id⟩
  obtain ⟨uf', hjoin, ρ, d, hforest', hkeys', hjoins⟩ := joinEdges_eq hentered hnodes
  have hcomponents : UnionFind.Joins ρ (SharesEnough entityMap jaccardThreshold minSharedEntities) :=
    hjoins.congr (eqvGen_joined_iff hmin)
  refine ⟨_, ?_, foundComponents_of_joins sha256 hcomponents⟩
  rw [findClusters, henter, Option.bind_eq_bind, Option.bind_some, hjoin, Option.bind_eq_bind,
    Option.bind_some, UnionFind.getGroups_eq hforest', hkeys']
  rfl

/-! ### The order of the map -/

/-- The maps hold the same memories with the same entities, in whatever order. -/
def SameEntities (entityMap entityMap' : EntityMap) : Prop :=
  ∀ m, (entityMap.get? m).map OrdSet.toFinset = (entityMap'.get? m).map OrdSet.toFinset

/-- The clusters are the same but for the order of their entities, and so their labels. -/
def SameCluster (c c' : MemoryCluster) : Prop :=
  c'.memoryIds = c.memoryIds ∧ c'.fingerprintId = c.fingerprintId ∧ c'.size = c.size ∧
    ∀ e, e ∈ c'.entityIds ↔ e ∈ c.entityIds

variable {entityMap' : EntityMap}

theorem SameEntities.symm (h : SameEntities entityMap entityMap') : SameEntities entityMap' entityMap :=
  fun m => (h m).symm

theorem SameEntities.mem_keys (h : SameEntities entityMap entityMap') (m : String) :
    m ∈ entityMap.keys ↔ m ∈ entityMap'.keys := by
  rw [← not_iff_not, ← OrdMap.get?_eq_none, ← OrdMap.get?_eq_none, ← Option.map_eq_none_iff (f := OrdSet.toFinset),
    h m, Option.map_eq_none_iff]

theorem SameEntities.entities_eq (h : SameEntities entityMap entityMap') (m : String) :
    entities entityMap m = entities entityMap' m := by
  have hm := h m
  unfold entities EntityMap.entitiesOf
  cases hget : entityMap.get? m with
  | none =>
      rw [hget, Option.map_none] at hm
      rw [Option.map_eq_none_iff.mp hm.symm]
  | some s =>
      rw [hget, Option.map_some] at hm
      obtain ⟨s', hs', heq⟩ := Option.map_eq_some_iff.mp hm.symm
      rw [hs']
      exact heq.symm

theorem SameEntities.sharesEnough (h : SameEntities entityMap entityMap') :
    SharesEnough entityMap jaccardThreshold minSharedEntities =
      SharesEnough entityMap' jaccardThreshold minSharedEntities := by
  funext a b
  refine propext ⟨fun hab => ?_, fun hab => ?_⟩
  · refine ⟨hab.ne, (h.mem_keys a).mp hab.left, (h.mem_keys b).mp hab.right, ?_, ?_⟩
    · rw [← h.entities_eq, ← h.entities_eq]
      exact hab.shared
    · rw [← h.entities_eq, ← h.entities_eq]
      exact hab.similar
  · refine ⟨hab.ne, (h.mem_keys a).mpr hab.left, (h.mem_keys b).mpr hab.right, ?_, ?_⟩
    · rw [h.entities_eq, h.entities_eq]
      exact hab.shared
    · rw [h.entities_eq, h.entities_eq]
      exact hab.similar

theorem SameEntities.isComponent (h : SameEntities entityMap entityMap') (ids : Set String) :
    IsComponent entityMap jaccardThreshold minSharedEntities ids ↔
      IsComponent entityMap' jaccardThreshold minSharedEntities ids := by
  simp only [IsComponent, h.mem_keys, h.sharesEnough]

variable {sha256 : String → String} {clusters clusters' : List MemoryCluster}

/-- A cluster of the one map is one of the other. -/
theorem FoundComponents.same
    (h : FoundComponents sha256 entityMap jaccardThreshold minSharedEntities clusters)
    (h' : FoundComponents sha256 entityMap' jaccardThreshold minSharedEntities clusters')
    (hsame : SameEntities entityMap entityMap') :
    ∀ c ∈ clusters, ∃ c' ∈ clusters', SameCluster c c' := by
  intro c hc
  obtain ⟨hcomponent, hnontrivial⟩ := (h.components _).mp ⟨c, hc, rfl⟩
  obtain ⟨c', hc', hids⟩ :=
    (h'.components _).mpr ⟨(hsame.isComponent _).mp hcomponent, hnontrivial⟩
  have hmem : ∀ m, m ∈ c'.memoryIds ↔ m ∈ c.memoryIds := fun m => (Set.ext_iff.mp hids m).symm
  have hlist : c'.memoryIds = c.memoryIds :=
    ((List.perm_ext_iff_of_nodup (h'.nodup c' hc') (h.nodup c hc)).mpr hmem).eq_of_pairwise'
      (h'.sorted c' hc') (h.sorted c hc)
  refine ⟨c', hc', hlist, ?_, ?_, fun e => ?_⟩
  · rw [h'.fingerprint c' hc', h.fingerprint c hc, hlist]
  · rw [h'.size_eq c' hc', h.size_eq c hc, hlist]
  · rw [h'.entityIds c' hc', h.entityIds c hc, hlist]
    simp only [hsame.entities_eq]

/-- **`findClusters` returns the connected components with at least two members, and the same ones
for every order of the map.** -/
theorem findClusters_components (sha256 : String → String) (entityMap : EntityMap)
    (jaccardThreshold : ℚ) (hmin : 1 ≤ minSharedEntities) :
    ∃ clusters, findClusters sha256 entityMap jaccardThreshold minSharedEntities = some clusters ∧
      FoundComponents sha256 entityMap jaccardThreshold minSharedEntities clusters ∧
      ∀ entityMap', SameEntities entityMap entityMap' →
        ∃ clusters', findClusters sha256 entityMap' jaccardThreshold minSharedEntities = some clusters' ∧
          (∀ c ∈ clusters, ∃ c' ∈ clusters', SameCluster c c') ∧
          ∀ c' ∈ clusters', ∃ c ∈ clusters, SameCluster c' c := by
  obtain ⟨clusters, hfind, hfound⟩ := findClusters_eq sha256 entityMap jaccardThreshold hmin
  refine ⟨clusters, hfind, hfound, fun entityMap' hsame => ?_⟩
  obtain ⟨clusters', hfind', hfound'⟩ := findClusters_eq sha256 entityMap' jaccardThreshold hmin
  exact ⟨clusters', hfind', hfound.same hfound' hsame, hfound'.same hfound hsame.symm⟩

/-- Two memories about the same two entities, and a third about another. -/
def threeMemories : EntityMap :=
  .ofList [("a", .ofList ["x", "y"]), ("b", .ofList ["y", "x"]), ("c", .ofList ["z"])]

/-- The default thresholds, 0.3 and 2. -/
theorem findClusters_threeMemories :
    ∃ clusters, findClusters id threeMemories (3 / 10) 2 = some clusters ∧
      FoundComponents id threeMemories (3 / 10) 2 clusters ∧
      ∀ entityMap', SameEntities threeMemories entityMap' →
        ∃ clusters', findClusters id entityMap' (3 / 10) 2 = some clusters' ∧
          (∀ c ∈ clusters, ∃ c' ∈ clusters', SameCluster c c') ∧
          ∀ c' ∈ clusters', ∃ c ∈ clusters, SameCluster c' c :=
  findClusters_components id threeMemories (3 / 10) (by norm_num)

end Runir.Compaction
