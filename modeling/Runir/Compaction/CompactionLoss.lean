import Runir.Compaction.CompactorFacts

/-!
# Compaction — What a compaction run loses

A run inactivates a memory only after the merged memory is written, whichever call fails.  But it
reads texts under `payload.data` alone, and not, as the readers do, under `payload.l2` first.

* `plannedInactivations`: the inactivations of a run in which every call is answered.
* `Compacted`: the table after some of them.  `compacted_runCompaction`: a run makes those that
  commit.
* `compaction_losesNothing_iff`: a run loses nothing exactly when what it inactivates is `Covered`.
-/

namespace Runir.Compaction

/-! ### Plans -/

/-- One source of a cluster, and the call that inactivates it. -/
structure Inactivation where
  cluster : List CompactableEntry
  source : CompactableEntry
  mergedId : String
  call : Nat

section
variable (host : Host) (world : CompactionWorld)

/-- Those of a cluster, the first of them at the call `n`. -/
def inactivationsOf (mergedId : String) (cluster members : List CompactableEntry) (n : Nat) :
    List Inactivation :=
  (members.zipIdx n).map fun m => ⟨cluster, m.1, mergedId, m.2⟩

/-- Those of clusters, the first of them the `k`th and begun at the call `n`.  A text that is no
string ends the run. -/
def plannedOf : Nat → Nat → List (List CompactableEntry) → List Inactivation
  | _, _, [] => []
  | k, n, cluster :: clusters =>
      if cluster.all fun m => m.text.isSome then
        inactivationsOf (world.mergedId k (n + 1)) cluster cluster (n + 2) ++
          plannedOf (k + 1) (n + 2 + cluster.length) clusters
      else []

variable (config : CompactionConfig) (userId : String)
  (similarity : CompactableEntry → CompactableEntry → ℚ) (memories : Rows)
  (lastRunAt : OrdMap String String)

def plannedInactivations : List Inactivation :=
  if !config.enabled || isCooldownActive host config (world.clock 1) (lastRunAt.get? userId) then []
  else
    let entries := fetchForCompaction memories userId (compactionCutoff config (world.clock 1))
      config.maxMemoriesToScan
    if entries.length < config.minClusterSize || config.dryRun then []
    else
      plannedOf world 0 2
        (buildClusters similarity config.similarityThreshold entries config.minClusterSize)

/-- Those of them that take effect. -/
def committed (fate : Nat → TransactionFate) (planned : List Inactivation) : List Inactivation :=
  planned.filter fun p => Calling.Commits fate p.call

/-- The ids of merged memories are new, and of different clusters different. -/
structure FreshIds : Prop where
  new : ∀ k n, memories.get? (world.mergedId k n) = none
  distinct : ∀ k n k' n', world.mergedId k n = world.mergedId k' n' → k = k'

end

/-! ### The table after some inactivations -/

/-- The merged memory of the cluster is there. -/
def MergedAt (host : Host) (rows : Rows) (id : String) (cluster : List CompactableEntry) : Prop :=
  ∃ row merged, rows.get? id = some row ∧ row.active = some true ∧
    buildMergedEntry host cluster = some merged ∧ row.text = merged.text

/-- An entry as a run has fetched it. -/
structure Fetched (userId : String) (rows : Rows) (e : CompactableEntry) (row : MemoryRow) :
    Prop where
  stored : rows.get? e.id = some row
  user : row.payloadUserId = some userId
  current : row.isCurrent = true
  entry : e = compactableEntry e.id row

structure Compacted (host : Host) (memories : Rows) (done : List Inactivation) (rows : Rows) :
    Prop where
  source : ∀ p ∈ done, ∃ row, memories.get? p.source.id = some row ∧ row.isCurrent = true
  new : ∀ p ∈ done, memories.get? p.mergedId = none
  retired : ∀ p ∈ done, ∃ row, rows.get? p.source.id = some row ∧ row.active = some false ∧
    row.supersededBy = some p.mergedId
  merged : ∀ p ∈ done, MergedAt host rows p.mergedId p.cluster
  others : ∀ id row, memories.get? id = some row → id ∉ done.map (·.source.id) →
    rows.get? id = some row

variable {host : Host} {world : CompactionWorld} {config : CompactionConfig} {userId : String}
  {similarity : CompactableEntry → CompactableEntry → ℚ} {memories rows : Rows}
  {lastRunAt : OrdMap String String} {done : List Inactivation}

theorem compacted_start : Compacted host memories [] memories where
  source := fun _ h => nomatch h
  new := fun _ h => nomatch h
  retired := fun _ h => nomatch h
  merged := fun _ h => nomatch h
  others := fun _ _ h _ => h

variable {row : MemoryRow}

variable {cluster : List CompactableEntry}

theorem MergedAt.set {id id' : String} (h : MergedAt host rows id cluster) (hne : id ≠ id') :
    MergedAt host (rows.set id' row) id cluster := by
  obtain ⟨r, merged, hr, hrest⟩ := h
  exact ⟨r, merged, (OrdMap.get?_set_ne rows row hne).trans hr, hrest⟩

/-- A row under a new id changes nothing of what is done. -/
theorem Compacted.set {id : String} (h : Compacted host memories done rows)
    (hnew : memories.get? id = none) (hids : ∀ p ∈ done, p.mergedId ≠ id) :
    Compacted host memories done (rows.set id row) where
  source := h.source
  new := h.new
  retired := by
    intro p hp
    obtain ⟨r, hr, -⟩ := h.source p hp
    have hne : p.source.id ≠ id := by
      rintro rfl
      rw [hr] at hnew
      cases hnew
    rw [OrdMap.get?_set_ne rows row hne]
    exact h.retired p hp
  merged := fun p hp => (h.merged p hp).set (hids p hp)
  others := by
    intro id' r hr hnot
    have hne : id' ≠ id := by
      rintro rfl
      rw [hr] at hnew
      cases hnew
    rw [OrdMap.get?_set_ne rows row hne]
    exact h.others id' r hr hnot

/-- The payload of a merged memory has distinct keys, so each is found where it is listed. -/
theorem text_mergedRow (now : Int) (embedding : List ℚ) (merged : MergedEntry)
    (firstSource : CompactableEntry) :
    (mergedRow host now userId embedding merged firstSource).text = merged.text := by
  have hkeys : ["data", "userId", "category", "confidence", "tags", "writeSource", "source",
      "scope", "createdAt", "updatedAt", "active", "supersedesId", "lineageRootId"].Nodup := by
    decide
  unfold MemoryRow.text MemoryRow.propStr? mergedRow
  simp only
  rw [OrdMap.get?_ofList_of_nodup, OrdMap.get?_ofList_of_nodup]
  · rfl
  · exact hkeys
  · exact hkeys

theorem mergedAt_set {now : Int} {id : String} {embedding : List ℚ} {merged : MergedEntry}
    {firstSource : CompactableEntry} (h : buildMergedEntry host cluster = some merged) :
    MergedAt host (rows.set id (mergedRow host now userId embedding merged firstSource)) id
      cluster :=
  ⟨_, merged, OrdMap.get?_set_self rows id _, rfl, h, text_mergedRow now embedding merged firstSource⟩

/-- **One inactivation**, of a row that is still as it was. -/
theorem Compacted.inactivate (h : Compacted host memories done rows) (now : Int)
    (p : Inactivation) (hrow : Fetched userId memories p.source row)
    (hnot : p.source.id ∉ done.map (·.source.id)) (hnew : memories.get? p.mergedId = none)
    (hmerged : MergedAt host rows p.mergedId p.cluster) :
    Compacted host memories (done ++ [p])
      (inactivateRow now p.mergedId userId p.source.id rows) := by
  have hthere := h.others _ _ hrow.stored hnot
  have hrows : inactivateRow now p.mergedId userId p.source.id rows =
      rows.set p.source.id (inactivated now p.mergedId row) := by
    rw [inactivateRow, hthere]
    exact if_pos hrow.user
  have hids : ∀ q : Inactivation, memories.get? q.mergedId = none → q.mergedId ≠ p.source.id := by
    intro q hq heq
    rw [heq, hrow.stored] at hq
    cases hq
  rw [hrows]
  refine ⟨?_, ?_, ?_, ?_, fun id r hr hid => ?_⟩
  · exact List.forall_mem_append.mpr ⟨h.source, fun q hq =>
      List.mem_singleton.mp hq ▸ ⟨row, hrow.stored, hrow.current⟩⟩
  · exact List.forall_mem_append.mpr ⟨h.new, fun q hq => List.mem_singleton.mp hq ▸ hnew⟩
  · refine List.forall_mem_append.mpr ⟨fun q hq => ?_, fun q hq => ?_⟩
    · have hne : q.source.id ≠ p.source.id := fun heq =>
        hnot (heq ▸ List.mem_map_of_mem hq)
      rw [OrdMap.get?_set_ne rows _ hne]
      exact h.retired q hq
    · rw [List.mem_singleton.mp hq]
      exact ⟨_, OrdMap.get?_set_self rows _ _, rfl, rfl⟩
  · refine List.forall_mem_append.mpr ⟨fun q hq => ?_, fun q hq => ?_⟩
    · exact (h.merged q hq).set (hids q (h.new q hq))
    · rw [List.mem_singleton.mp hq]
      exact hmerged.set (hids p hnew)
  · rw [List.map_append, List.map_singleton, List.mem_append, not_or, List.mem_singleton] at hid
    rw [OrdMap.get?_set_ne rows _ hid.2]
    exact h.others id r hr hid.1

/-! ### A run -/

theorem committed_append (fate : Nat → TransactionFate) (ps qs : List Inactivation) :
    committed fate (ps ++ qs) = committed fate ps ++ committed fate qs := List.filter_append ps qs

theorem inactivationsOf_cons (mergedId : String) (cluster : List CompactableEntry)
    (m : CompactableEntry) (members : List CompactableEntry) (n : Nat) :
    inactivationsOf mergedId cluster (m :: members) n =
      ⟨cluster, m, mergedId, n⟩ :: inactivationsOf mergedId cluster members (n + 1) := by
  rw [inactivationsOf, List.zipIdx_cons, List.map_cons]
  rfl

variable {p : Inactivation}

theorem mem_inactivationsOf {mergedId : String} {cluster members : List CompactableEntry} {n : Nat}
    (h : p ∈ inactivationsOf mergedId cluster members n) :
    p.cluster = cluster ∧ p.source ∈ members ∧ p.mergedId = mergedId ∧ n ≤ p.call := by
  obtain ⟨m, hm, rfl⟩ := List.mem_map.mp h
  exact ⟨rfl, List.fst_mem_of_mem_zipIdx hm, rfl, List.le_snd_of_mem_zipIdx hm⟩

/-- Where the first of them does not commit, none does. -/
theorem committed_eq_nil {mergedId : String} {cluster members : List CompactableEntry} {n : Nat}
    (h : ¬Calling.Commits world.fate n) :
    committed world.fate (inactivationsOf mergedId cluster members n) = [] := by
  refine List.filter_eq_nil_iff.mpr fun p hp hcommits => h ?_
  exact (of_decide_eq_true hcommits).of_le (mem_inactivationsOf hp).2.2.2

variable {st : Calling CompactionState}

/-- **The inactivations of a cluster**, after its merged memory. -/
theorem Compacted.inactivateAll {mergedId : String} {cluster members : List CompactableEntry}
    {n : Nat}
    (h : Compacted host memories done st.state.memories) (now : Int) (hat : st.At world.fate n)
    (hmerged : Calling.Commits world.fate n → MergedAt host st.state.memories mergedId cluster)
    (hnew : memories.get? mergedId = none)
    (hfetched : ∀ m ∈ members, ∃ row, Fetched userId memories m row)
    (hnodup : (members.map (·.id)).Nodup) (hnot : ∀ m ∈ members, m.id ∉ done.map (·.source.id)) :
    ∃ st', (members.map (·.id)).foldl (fun st id =>
        st.call world.fate (.setMemories (inactivateRow now mergedId userId id))) st = st' ∧
      st'.At world.fate (n + members.length) ∧
      Compacted host memories
        (done ++ committed world.fate (inactivationsOf mergedId cluster members n))
        st'.state.memories := by
  induction members generalizing n st done with
  | nil => exact ⟨st, rfl, hat, (List.append_nil done).symm ▸ h⟩
  | cons m members ih =>
      rw [List.map_cons, List.nodup_cons] at hnodup
      have hrest := fun m' hm' => hfetched m' (List.mem_cons_of_mem m hm')
      have hlength : n + (m :: members).length = n + 1 + members.length := by
        rw [List.length_cons]
        omega
      rw [inactivationsOf_cons, hlength, List.map_cons, List.foldl_cons]
      have hstate := hat.state_call (f := .setMemories (inactivateRow now mergedId userId m.id))
      by_cases hcommits : Calling.Commits world.fate n
      · rw [if_pos hcommits] at hstate
        obtain ⟨row, hrow⟩ := hfetched m List.mem_cons_self
        have hnext := h.inactivate now ⟨cluster, m, mergedId, n⟩ hrow
          (hnot m List.mem_cons_self) hnew (hmerged hcommits)
        have hsplit : committed world.fate
            (⟨cluster, m, mergedId, n⟩ :: inactivationsOf mergedId cluster members (n + 1)) =
            [⟨cluster, m, mergedId, n⟩] ++
              committed world.fate (inactivationsOf mergedId cluster members (n + 1)) :=
          List.filter_cons_of_pos (decide_eq_true hcommits)
        rw [hsplit, ← List.append_assoc]
        refine ih ?_ hat.call (fun _ => ?_) hrest hnodup.2 fun m' hm' hmem => ?_
        · rw [hstate]
          exact hnext
        · rw [hstate]
          exact hnext.merged ⟨cluster, m, mergedId, n⟩
            (List.mem_append_right _ (List.mem_singleton_self _))
        · rw [List.map_append, List.map_singleton, List.mem_append, List.mem_singleton] at hmem
          rcases hmem with hmem | hmem
          · exact hnot m' (List.mem_cons_of_mem m hm') hmem
          · exact hnodup.1 (hmem ▸ List.mem_map_of_mem hm')
      · rw [if_neg hcommits] at hstate
        have hsplit : committed world.fate
            (⟨cluster, m, mergedId, n⟩ :: inactivationsOf mergedId cluster members (n + 1)) =
              committed world.fate (inactivationsOf mergedId cluster members (n + 1)) :=
          List.filter_cons_of_neg fun hpos => hcommits (of_decide_eq_true hpos)
        rw [hsplit]
        refine ih ?_ hat.call (fun hnext => ?_) hrest hnodup.2 fun m' hm' =>
          hnot m' (List.mem_cons_of_mem m hm')
        · rw [hstate]
          exact h
        · exact absurd (hnext.of_le (Nat.le_succ n)) hcommits

/-- A call that only reads. -/
theorem state_read {n : Nat} (hat : st.At world.fate n) :
    (st.call world.fate id).state = st.state := by
  rw [hat.state_call]
  exact ite_self _

theorem Compacted.compactCluster {k n : Nat} (hat : st.At world.fate n)
    (h : Compacted host memories done st.state.memories) (hfresh : FreshIds world memories)
    (hids : ∀ p ∈ done, ∃ k' < k, ∃ n', p.mergedId = world.mergedId k' n')
    (hdry : config.dryRun = false) (hne : cluster ≠ [])
    (htexts : cluster.all (fun m => m.text.isSome) = true)
    (hfetched : ∀ m ∈ cluster, ∃ row, Fetched userId memories m row)
    (hnodup : (cluster.map (·.id)).Nodup) (hnot : ∀ m ∈ cluster, m.id ∉ done.map (·.source.id)) :
    ∃ st', compactCluster host world config userId st (cluster, k) = st' ∧
      st'.At world.fate (n + 2 + cluster.length) ∧
      Compacted host memories
        (done ++ committed world.fate
          (inactivationsOf (world.mergedId k (n + 1)) cluster cluster (n + 2)))
        st'.state.memories := by
  obtain ⟨merged, hmerged, hsources⟩ := buildMergedEntry_of_all host hne htexts
  obtain ⟨firstSource, rest, hcluster⟩ := List.exists_cons_of_ne_nil hne
  have hrun : ∃ row, MergedAt host (st.state.memories.set (world.mergedId k
        (st.call world.fate id).asked) row)
        (world.mergedId k (st.call world.fate id).asked) cluster ∧
      Compaction.compactCluster host world config userId st (cluster, k) =
        (softInactivateForCompaction world (cluster.map (·.id))
          (world.mergedId k (st.call world.fate id).asked) userId
          ((st.call world.fate id).call world.fate (.setMemories fun rows =>
            rows.set (world.mergedId k (st.call world.fate id).asked) row))).onto
          (.count cluster.length) := by
    refine ⟨mergedRow host (world.clock (st.call world.fate id).asked) userId
      (world.embedDocument merged.text) merged firstSource, mergedAt_set hmerged, ?_⟩
    rw [hcluster] at hmerged hsources ⊢
    simp only [Compaction.compactCluster, hmerged, hdry, hsources, Bool.false_eq_true, if_false]
  obtain ⟨row, hrow, hrun⟩ := hrun
  rw [hrun, softInactivateForCompaction]
  have hembedded := hat.call (f := id)
  have hstate₁ := state_read hat
  generalize st.call world.fate id = st₁ at hembedded hstate₁ hrow ⊢
  have hat₂ := hembedded.call (f := .setMemories fun rows =>
    rows.set (world.mergedId k st₁.asked) row)
  have hstate₂ := hembedded.state_call (f := .setMemories fun rows =>
    rows.set (world.mergedId k st₁.asked) row)
  rw [hstate₁] at hstate₂
  generalize st₁.call world.fate (.setMemories fun rows =>
    rows.set (world.mergedId k st₁.asked) row) = st₂ at hat₂ hstate₂ ⊢
  have hcreated : Compacted host memories done st₂.state.memories := by
    rw [hstate₂]
    split
    · refine h.set (hfresh.new k st₁.asked) fun p hp heq => ?_
      obtain ⟨k', hk', n', hp'⟩ := hids p hp
      exact hk'.ne (hfresh.distinct k' n' k st₁.asked (hp'.symm.trans heq))
    · exact h
  have hthere : Calling.Commits world.fate (n + 2) →
      MergedAt host st₂.state.memories (world.mergedId k st₁.asked) cluster := by
    intro hcommits
    rw [hstate₂, if_pos (hcommits.of_le (Nat.le_succ _))]
    exact hrow
  obtain ⟨st₃, hst₃, hat₃, hall⟩ := hcreated.inactivateAll (world.clock st₂.asked) hat₂
    hthere (hfresh.new k st₁.asked) hfetched hnodup hnot
  rw [hst₃]
  refine ⟨_, rfl, hat₃.onto, ?_⟩
  have hsame : committed world.fate
      (inactivationsOf (world.mergedId k st₁.asked) cluster cluster (n + 2)) =
      committed world.fate
        (inactivationsOf (world.mergedId k (n + 1)) cluster cluster (n + 2)) := by
    cases hthrown : st₁.thrown with
    | true =>
        have hnone := hembedded.dead hthrown (n + 2) (Nat.le_succ _)
        rw [committed_eq_nil hnone, committed_eq_nil hnone]
    | false => rw [(hembedded.live hthrown).1]
  rw [hsame] at hall
  rw [Calling.onto]
  split
  · exact hall
  · exact hall

theorem compactCluster_of_thrown (host : Host) (world : CompactionWorld) (config : CompactionConfig)
    (userId : String) (h : st.thrown = true) (cluster : List CompactableEntry × Nat) :
    (compactCluster host world config userId st cluster).state = st.state ∧
      (compactCluster host world config userId st cluster).thrown = true := by
  have hfold : ∀ (ids : List String) (now : Int) (mergedId : String),
      ids.foldl (fun st id =>
        st.call world.fate (.setMemories (inactivateRow now mergedId userId id))) st = st := by
    intro ids now mergedId
    induction ids with
    | nil => rfl
    | cons id ids ih => rwa [List.foldl_cons, Calling.call_of_thrown h]
  unfold compactCluster softInactivateForCompaction
  split
  · split
    · rw [Calling.onto_of_thrown h]
      exact ⟨rfl, h⟩
    · simp only [Calling.call_of_thrown h, hfold, Calling.onto_of_thrown h]
      exact ⟨trivial, h⟩
  · exact ⟨rfl, rfl⟩

theorem foldl_compactCluster_of_thrown (h : st.thrown = true)
    (clusters : List (List CompactableEntry × Nat)) :
    (clusters.foldl (compactCluster host world config userId) st).state = st.state := by
  induction clusters generalizing st with
  | nil => rfl
  | cons cluster clusters ih =>
      obtain ⟨hstate, hthrown⟩ := compactCluster_of_thrown host world config userId h cluster
      rw [List.foldl_cons, ih hthrown, hstate]

/-- **All clusters**, one after another. -/
theorem Compacted.foldl_clusters {clusters : List (List CompactableEntry)} {k n : Nat}
    (hat : st.At world.fate n)
    (h : Compacted host memories done st.state.memories) (hfresh : FreshIds world memories)
    (hids : ∀ p ∈ done, ∃ k' < k, ∃ n', p.mergedId = world.mergedId k' n')
    (hdry : config.dryRun = false) (hfetched : ∀ cluster ∈ clusters, cluster ≠ [] ∧
      ∀ m ∈ cluster, ∃ row, Fetched userId memories m row)
    (hnodup : (clusters.flatten.map (·.id)).Nodup)
    (hnot : ∀ m ∈ clusters.flatten, m.id ∉ done.map (·.source.id)) :
    Compacted host memories (done ++ committed world.fate (plannedOf world k n clusters))
      ((clusters.zipIdx k).foldl (Compaction.compactCluster host world config userId)
        st).state.memories := by
  induction clusters generalizing k n st done with
  | nil => exact (List.append_nil done).symm ▸ h
  | cons cluster clusters ih =>
      rw [List.zipIdx_cons, List.foldl_cons, plannedOf]
      rw [List.flatten_cons, List.map_append, List.nodup_append] at hnodup
      rw [List.flatten_cons, List.forall_mem_append] at hnot
      obtain ⟨⟨hne, hmembers⟩, hrest⟩ := List.forall_mem_cons.mp hfetched
      split
      · next htexts =>
          obtain ⟨st', hst', hat', h'⟩ := h.compactCluster hat hfresh hids hdry hne htexts hmembers
            hnodup.1 hnot.1
          rw [hst', committed_append, ← List.append_assoc]
          refine ih hat' h' ?_ hrest hnodup.2.1 fun m hm hmem => ?_
          · refine List.forall_mem_append.mpr ⟨fun p hp => ?_, fun p hp => ?_⟩
            · obtain ⟨k', hk', n', hp'⟩ := hids p hp
              exact ⟨k', hk'.trans (Nat.lt_succ_self k), n', hp'⟩
            · exact ⟨k, Nat.lt_succ_self k, n + 1,
                (mem_inactivationsOf (List.mem_of_mem_filter hp)).2.2.1⟩
          · rw [List.map_append, List.mem_append] at hmem
            rcases hmem with hmem | hmem
            · exact hnot.2 m hm hmem
            · obtain ⟨p, hp, hid⟩ := List.mem_map.mp hmem
              have hsource := (mem_inactivationsOf (List.mem_of_mem_filter hp)).2.1
              exact hnodup.2.2 _ (List.mem_map_of_mem hsource) _ (List.mem_map_of_mem hm) hid
      · next htexts =>
          have hthrow : Compaction.compactCluster host world config userId st (cluster, k) =
              st.throw := by
            unfold Compaction.compactCluster
            rw [buildMergedEntry_of_not_all htexts]
            split
            · next heq => cases heq
            · rfl
          rw [hthrow, foldl_compactCluster_of_thrown rfl]
          exact (List.append_nil done).symm ▸ h

theorem fetched_of_mem {cutoff : Int} {limit : Nat} {e : CompactableEntry}
    (h : e ∈ fetchForCompaction memories userId cutoff limit) :
    ∃ row, Fetched userId memories e row := by
  obtain ⟨⟨id, row⟩, hmem, rfl⟩ := List.mem_map.mp h
  obtain ⟨hentry, hclauses⟩ :=
    List.mem_filter.mp ((List.mem_insertionSort _).mp (List.mem_of_mem_take hmem))
  simp only [Bool.and_eq_true, decide_eq_true_eq] at hclauses
  exact ⟨row, OrdMap.get?_eq_some.mpr hentry, hclauses.1.1.1, hclauses.1.1.2, rfl⟩

theorem memories_foldl_of_dryRun (hdry : config.dryRun = true)
    (clusters : List (List CompactableEntry × Nat)) (st : Calling CompactionState) :
    (clusters.foldl (compactCluster host world config userId) st).state.memories =
      st.state.memories := by
  induction clusters generalizing st with
  | nil => rfl
  | cons cluster clusters ih =>
      rw [List.foldl_cons, ih]
      unfold compactCluster
      split
      · rw [if_pos hdry, Calling.onto]
        split
        · rfl
        · rfl
      · rfl

theorem le_call_of_mem_plannedOf {clusters : List (List CompactableEntry)} {k n : Nat}
    (h : p ∈ plannedOf world k n clusters) : n ≤ p.call := by
  induction clusters generalizing k n with
  | nil => cases h
  | cons cluster clusters ih =>
      rw [plannedOf] at h
      split at h
      · rcases List.mem_append.mp h with h | h
        · exact (Nat.le_add_right n 2).trans (mem_inactivationsOf h).2.2.2
        · exact (Nat.le_add_right n _).trans ((Nat.add_assoc n 2 _).symm ▸ ih h)
      · cases h

/-- The first two calls of a run are its readings. -/
theorem two_le_call
    (h : p ∈ plannedInactivations host world config userId similarity memories lastRunAt) :
    2 ≤ p.call := by
  unfold plannedInactivations at h
  split at h
  · cases h
  · simp only at h
    split at h
    · cases h
    · exact le_call_of_mem_plannedOf h

theorem memories_updateCooldown (st : Calling CompactionState) (now : Int) :
    (st.call world.fate (updateCooldown userId now)).state.memories = st.state.memories := by
  unfold Calling.call
  split
  · rfl
  · simp only
    split
    · rfl
    · rfl

/-- **A run** makes the planned inactivations that commit, whichever calls fail. -/
theorem compacted_runCompaction (hfresh : FreshIds world memories) :
    Compacted host memories
      (committed world.fate
        (plannedInactivations host world config userId similarity memories lastRunAt))
      (runCompaction host world config userId similarity memories lastRunAt).1.memories := by
  have hidle : ∀ n ≤ 2, (∀ m, n ≤ m → ¬Calling.Commits world.fate m) →
      Compacted host memories (committed world.fate
        (plannedInactivations host world config userId similarity memories lastRunAt)) memories := by
    intro n hn hnone
    rw [committed, List.filter_eq_nil_iff.mpr fun p hp hc =>
      hnone p.call (hn.trans (two_le_call hp)) (of_decide_eq_true hc)]
    exact compacted_start
  have hstart := Calling.At.start world.fate
    ({ memories := memories, lastRunAt := lastRunAt } : CompactionState)
  unfold runCompaction
  simp only
  cases henabled : config.enabled with
  | false =>
      rw [plannedInactivations, henabled]
      exact compacted_start
  | true =>
      rw [Bool.not_true, if_neg Bool.false_ne_true]
      have hat₁ := hstart.call (f := id)
      have hstate₁ := state_read hstart
      generalize ({ state := { memories := memories, lastRunAt := lastRunAt } } :
        Calling CompactionState).call world.fate id = st₁ at hat₁ hstate₁ ⊢
      cases hthrown₁ : st₁.thrown with
      | true => exact hidle 1 (by decide) (hat₁.dead hthrown₁)
      | false =>
          rw [(hat₁.live hthrown₁).1, Bool.false_or]
          cases hcool : isCooldownActive host config (world.clock 1) (lastRunAt.get? userId) with
          | true =>
              rw [plannedInactivations, henabled, hcool]
              exact compacted_start
          | false =>
              rw [if_neg Bool.false_ne_true]
              have hat₂ := hat₁.call (f := id)
              have hstate₂ := state_read hat₁
              rw [hstate₁] at hstate₂
              generalize st₁.call world.fate id = st₂ at hat₂ hstate₂ ⊢
              cases hthrown₂ : st₂.thrown with
              | true => exact hidle 2 (by decide) (hat₂.dead hthrown₂)
              | false =>
                  rw [plannedInactivations, henabled, hcool]
                  simp only [Bool.not_true, Bool.or_false, Bool.false_eq_true, if_false]
                  generalize hentries : fetchForCompaction memories userId
                    (compactionCutoff config (world.clock 1)) config.maxMemoriesToScan = entries
                  by_cases hfew : entries.length < config.minClusterSize
                  · rw [if_pos hfew, if_pos (by rw [decide_eq_true hfew]; rfl)]
                    exact compacted_start
                  · rw [if_neg hfew, decide_eq_false hfew, Bool.false_or, memories_updateCooldown]
                    cases hdry : config.dryRun with
                    | true =>
                        rw [memories_foldl_of_dryRun hdry, hstate₂]
                        exact compacted_start
                    | false =>
                        have hclusters := buildClusters_ok similarity config.similarityThreshold entries
                          config.minClusterSize
                        rw [if_neg Bool.false_ne_true, ← List.nil_append (committed _ _)]
                        refine Compacted.foldl_clusters hat₂ ?_ hfresh (fun _ h => (nomatch h)) hdry
                          (fun cluster hc => ?_) hclusters.2 fun _ _ h => (nomatch h)
                        · rw [hstate₂]
                          exact compacted_start
                        · obtain ⟨hne, hmembers⟩ := hclusters.1 cluster hc
                          exact ⟨hne, fun m hm => fetched_of_mem (hentries ▸ hmembers m hm)⟩

/-! ### What a run loses -/

/-- **Nothing is lost.**  A current row stays current, or it has a text, and the row it is
superseded by is current and has the lines of that text, up to case. -/
def LosesNothing (host : Host) (before after : Rows) : Prop :=
  ∀ id row, before.get? id = some row → row.isCurrent = true →
    ∃ row', after.get? id = some row' ∧
      (row'.isCurrent = true ∨
        Text.contentLines row.text ≠ [] ∧
          ∃ mergedId merged, row'.supersededBy = some mergedId ∧
            after.get? mergedId = some merged ∧ merged.isCurrent = true ∧
            ∀ line ∈ Text.contentLines row.text, HasLine host merged.text line)

/-- The row has a text as it is read elsewhere, and each line of it stands, up to case, under
`payload.data` of a member of the cluster. -/
def Covered (host : Host) (memories : Rows) (p : Inactivation) : Prop :=
  ∃ row, memories.get? p.source.id = some row ∧ Text.contentLines row.text ≠ [] ∧
    ∀ line ∈ Text.contentLines row.text, ∃ m ∈ p.cluster, ∃ text, m.text = some text ∧
      HasLine host text line

theorem Compacted.losesNothing_iff (h : Compacted host memories done rows) :
    LosesNothing host memories rows ↔ ∀ p ∈ done, Covered host memories p := by
  have hline : ∀ p ∈ done, ∀ merged, rows.get? p.mergedId = some merged →
      merged.isCurrent = true ∧ ∀ line, HasLine host merged.text line ↔
        ∃ m ∈ p.cluster, ∃ text, m.text = some text ∧ HasLine host text line := by
    intro p hp merged hmerged
    obtain ⟨merged', entry, hmerged', hactive, hentry, htext⟩ := h.merged p hp
    obtain rfl := Option.some.inj (hmerged'.symm.trans hmerged)
    refine ⟨?_, fun line => ?_⟩
    · rw [MemoryRow.isCurrent, hactive]
      rfl
    · rw [htext]
      exact hasLine_merged_iff hentry
  constructor
  · intro hloses p hp
    obtain ⟨row, hrow, hcurrent⟩ := h.source p hp
    obtain ⟨row', hrow', hactive, hby⟩ := h.retired p hp
    obtain ⟨row'', hrow'', hcase⟩ := hloses _ row hrow hcurrent
    obtain rfl := Option.some.inj (hrow'.symm.trans hrow'')
    rcases hcase with hstill | ⟨htext, mergedId, merged, hby', hmerged, -, hlines⟩
    · rw [MemoryRow.isCurrent, hactive] at hstill
      cases hstill
    · obtain rfl := Option.some.inj (hby.symm.trans hby')
      exact ⟨row, hrow, htext, fun line hl =>
        ((hline p hp merged hmerged).2 line).mp (hlines line hl)⟩
  · intro hcovered id row hrow hcurrent
    by_cases hid : id ∈ done.map (·.source.id)
    · obtain ⟨p, hp, rfl⟩ := List.mem_map.mp hid
      obtain ⟨row', hrow', -, hby⟩ := h.retired p hp
      obtain ⟨merged, -, hmerged, -⟩ := h.merged p hp
      obtain ⟨row'', hrow'', htext, hlines⟩ := hcovered p hp
      obtain rfl := Option.some.inj (hrow.symm.trans hrow'')
      obtain ⟨hmergedCurrent, hiff⟩ := hline p hp merged hmerged
      exact ⟨row', hrow', Or.inr ⟨htext, p.mergedId, merged, hby, hmerged, hmergedCurrent,
        fun line hl => (hiff line).mpr (hlines line hl)⟩⟩
    · exact ⟨row, h.others id row hrow hid, Or.inl hcurrent⟩

/-- **The exact guard.**  Whichever of its calls fail, a run loses nothing exactly when every
inactivation that it gets to is of a row whose lines stand under `payload.data` in its cluster. -/
theorem compaction_losesNothing_iff (host : Host) (world : CompactionWorld)
    (config : CompactionConfig) (userId : String)
    (similarity : CompactableEntry → CompactableEntry → ℚ) (memories : Rows)
    (lastRunAt : OrdMap String String) (hfresh : FreshIds world memories) :
    LosesNothing host memories
        (runCompaction host world config userId similarity memories lastRunAt).1.memories ↔
      ∀ p ∈ plannedInactivations host world config userId similarity memories lastRunAt,
        Calling.Commits world.fate p.call → Covered host memories p := by
  rw [(compacted_runCompaction hfresh).losesNothing_iff]
  constructor
  · exact fun h p hp hc => h p (List.mem_filter.mpr ⟨hp, decide_eq_true hc⟩)
  · intro h p hp
    obtain ⟨hp, hc⟩ := List.mem_filter.mp hp
    exact h p hp (of_decide_eq_true hc)

/-! ### Two memories as they are written -/

def answeringWorld : CompactionWorld where
  fate := fun _ => .answered
  clock := fun _ => 1000000000000
  random := fun k => String.ofList (List.replicate k 'a')
  embedDocument := fun _ => [1]

def writtenMemory (text : String) : MemoryRow :=
  composeMemoryRecord .ascii 0 text "ann" [1] none .user none { active := true } none

/-- Their texts are under `payload.l2`. -/
def twoMemories : Rows :=
  .ofList [("a", writtenMemory "Ann likes tea"), ("b", writtenMemory "Ann likes green tea")]

theorem freshIds_twoMemories : FreshIds answeringWorld twoMemories where
  new := by
    intro k n
    cases hrow : twoMemories.get? (answeringWorld.mergedId k n) with
    | none => rfl
    | some row =>
        have hmem := OrdMap.mem_of_get?_ofList hrow
        have hchars : (answeringWorld.mergedId k n).toList.head? = some 'c' := by
          rw [CompactionWorld.mergedId, String.toList_append, String.toList_append,
            String.toList_append]
          rfl
        simp only [List.mem_cons, Prod.mk.injEq, List.not_mem_nil, or_false] at hmem
        rcases hmem with ⟨hid, -⟩ | ⟨hid, -⟩
        · rw [hid] at hchars
          cases hchars
        · rw [hid] at hchars
          cases hchars
  distinct := by
    intro k n k' n' h
    have hlength := congrArg (fun s : String => s.toList.length) h
    simp only [CompactionWorld.mergedId, answeringWorld, String.toList_append, List.length_append,
      String.toList_ofList, List.length_replicate] at hlength
    omega

theorem compaction_losesNothing_iff_twoMemories :
    LosesNothing .ascii twoMemories (runCompaction .ascii answeringWorld { enabled := true } "ann"
        (fun _ _ => 1) twoMemories .empty).1.memories ↔
      ∀ p ∈ plannedInactivations .ascii answeringWorld { enabled := true } "ann" (fun _ _ => 1)
        twoMemories .empty, Calling.Commits answeringWorld.fate p.call →
          Covered .ascii twoMemories p :=
  compaction_losesNothing_iff _ _ _ _ _ _ _ freshIds_twoMemories

/-- Both are inactivated, and the merged memory is empty. -/
theorem compaction_loses_twoMemories :
    ¬LosesNothing .ascii twoMemories (runCompaction .ascii answeringWorld { enabled := true } "ann"
      (fun _ _ => 1) twoMemories .empty).1.memories := by
  intro h
  have hrow : twoMemories.get? "a" = some (writtenMemory "Ann likes tea") := by decide +kernel
  have hretired : ((runCompaction .ascii answeringWorld { enabled := true } "ann" (fun _ _ => 1)
      twoMemories .empty).1.memories.get? "a").map (fun r => (r.isCurrent, r.supersededBy)) =
      some (false, some "compacted-1000000000000-") := by
    decide +kernel
  have hmerged : ((runCompaction .ascii answeringWorld { enabled := true } "ann" (fun _ _ => 1)
      twoMemories .empty).1.memories.get? "compacted-1000000000000-").map MemoryRow.text =
      some "" := by
    decide +kernel
  obtain ⟨row', hrow', hcase⟩ := h "a" _ hrow (by decide +kernel)
  rw [hrow', Option.map_some, Option.some.injEq, Prod.mk.injEq] at hretired
  rcases hcase with hstill | ⟨-, mergedId, merged, hby, hget, -, hlines⟩
  · rw [hretired.1] at hstill
    cases hstill
  · obtain rfl := Option.some.inj (hretired.2.symm.trans hby)
    rw [hget, Option.map_some, Option.some.injEq] at hmerged
    have hline : "Ann likes tea" ∈ Text.contentLines (writtenMemory "Ann likes tea").text := by
      decide +kernel
    obtain ⟨l, hl, -⟩ := hlines _ hline
    rw [hmerged] at hl
    cases hl

end Runir.Compaction
