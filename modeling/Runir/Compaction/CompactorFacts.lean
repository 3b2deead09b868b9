import Runir.Compaction.MemoryCompactor

/-!
# Compaction — What the compactor builds

* `buildClusters_ok`: clusters are made of the entries, and no two share an id.
* `hasLine_merged_iff`: a merged text has the lines of its members, up to case.
-/

namespace Runir.Compaction

variable {similarity : CompactableEntry → CompactableEntry → ℚ} {threshold : ℚ}

/-! ### Clusters -/

/-- A growing cluster has new ids, and they are assigned. -/
structure Growing.Ok (entries : List CompactableEntry) (old : List String) (g : Growing) :
    Prop where
  members : ∀ e ∈ g.cluster, e ∈ entries
  nodup : (g.cluster.map (·.id)).Nodup
  new : ∀ id ∈ g.cluster.map (·.id), id ∉ old
  assigned : ∀ id, id ∈ g.assigned ↔ id ∈ g.cluster.map (·.id) ∨ id ∈ old

variable {entries : List CompactableEntry}

theorem Growing.Ok.growCluster {old : List String} {g : Growing}
    {seed e : CompactableEntry} (h : g.Ok entries old) (he : e ∈ entries) :
    (growCluster similarity threshold seed g e).Ok entries old := by
  unfold Compaction.growCluster
  split
  · exact h
  · next hnot =>
      split
      · rw [h.assigned, not_or] at hnot
        refine ⟨fun e' he' => ?_, ?_, fun id hid => ?_, fun id => ?_⟩
        · rcases List.mem_append.mp he' with he' | he'
          · exact h.members e' he'
          · exact List.mem_singleton.mp he' ▸ he
        · rw [List.map_append, List.map_singleton]
          exact List.nodup_append.mpr ⟨h.nodup, List.nodup_singleton _, fun a ha b hb heq =>
            hnot.1 (List.mem_singleton.mp hb ▸ heq ▸ ha)⟩
        · rw [List.map_append, List.map_singleton, List.mem_append] at hid
          rcases hid with hid | hid
          · exact h.new id hid
          · exact List.mem_singleton.mp hid ▸ hnot.2
        · rw [List.mem_cons, h.assigned, List.map_append, List.map_singleton, List.mem_append,
            List.mem_singleton]
          tauto
      · exact h

/-- Clusters share no id, and their ids are assigned. -/
structure Clustering.Ok (entries : List CompactableEntry) (acc : Clustering) : Prop where
  members : ∀ cluster ∈ acc.clusters, ∀ e ∈ cluster, e ∈ entries
  nonempty : ∀ cluster ∈ acc.clusters, cluster ≠ []
  nodup : (acc.clusters.flatten.map (·.id)).Nodup
  assigned : ∀ id ∈ acc.clusters.flatten.map (·.id), id ∈ acc.assigned

theorem Clustering.Ok.seedCluster {acc : Clustering}
    {minClusterSize : Nat} {seed : CompactableEntry} (h : acc.Ok entries) (hseed : seed ∈ entries) :
    (seedCluster similarity threshold minClusterSize entries acc seed).Ok entries := by
  unfold Compaction.seedCluster
  split
  · exact h
  · next hnot =>
      have hstart : Growing.Ok entries acc.assigned ⟨[seed], seed.id :: acc.assigned⟩ := by
        refine ⟨fun e he => List.mem_singleton.mp he ▸ hseed, List.nodup_singleton _,
          fun id hid => List.mem_singleton.mp hid ▸ hnot, fun id => ?_⟩
        rw [List.map_singleton, List.mem_singleton, List.mem_cons]
      have hgrown : ∀ (cs : List CompactableEntry) (g : Growing), g.Ok entries acc.assigned →
          (∀ e ∈ cs, e ∈ entries) → g.cluster ≠ [] →
          (cs.foldl (growCluster similarity threshold seed) g).Ok entries acc.assigned ∧
            (cs.foldl (growCluster similarity threshold seed) g).cluster ≠ [] := by
        intro cs
        induction cs with
        | nil => exact fun g hg _ hne => ⟨hg, hne⟩
        | cons c cs ih =>
            intro g hg hcs hne
            refine ih _ (hg.growCluster (hcs c List.mem_cons_self))
              (fun e he => hcs e (List.mem_cons_of_mem c he)) ?_
            unfold growCluster
            split
            · exact hne
            · split
              · exact List.append_ne_nil_of_left_ne_nil hne _
              · exact hne
      obtain ⟨hg, hne⟩ := hgrown entries _ hstart (fun e he => he) (List.cons_ne_nil _ _)
      simp only
      generalize entries.foldl (growCluster similarity threshold seed)
        ⟨[seed], seed.id :: acc.assigned⟩ = g at hg hne
      split
      · refine ⟨fun cluster hc => ?_, fun cluster hc => ?_, ?_, fun id hid => ?_⟩
        · rcases List.mem_append.mp hc with hc | hc
          · exact h.members cluster hc
          · exact List.mem_singleton.mp hc ▸ hg.members
        · rcases List.mem_append.mp hc with hc | hc
          · exact h.nonempty cluster hc
          · exact List.mem_singleton.mp hc ▸ hne
        · rw [List.flatten_append, List.flatten_singleton, List.map_append]
          exact List.nodup_append.mpr ⟨h.nodup, hg.nodup, fun a ha b hb heq =>
            hg.new b hb (heq ▸ h.assigned a ha)⟩
        · rw [List.flatten_append, List.flatten_singleton, List.map_append,
            List.mem_append] at hid
          exact (hg.assigned id).mpr (hid.symm.imp_right (h.assigned id))
      · refine ⟨h.members, h.nonempty, h.nodup, fun id hid => ?_⟩
        have hold := h.assigned id hid
        exact List.mem_filter.mpr ⟨(hg.assigned id).mpr (Or.inr hold),
          decide_eq_true fun hnew => hg.new id hnew hold⟩

/-- **Clusters** are made of the entries, and no two share an id. -/
theorem buildClusters_ok (similarity : CompactableEntry → CompactableEntry → ℚ) (threshold : ℚ)
    (entries : List CompactableEntry) (minClusterSize : Nat) :
    (∀ cluster ∈ buildClusters similarity threshold entries minClusterSize,
        cluster ≠ [] ∧ ∀ e ∈ cluster, e ∈ entries) ∧
      ((buildClusters similarity threshold entries minClusterSize).flatten.map (·.id)).Nodup := by
  unfold buildClusters
  simp only
  generalize hsorted : (entries.insertionSort fun a b => b.confidence ≤ a.confidence) = sorted
  have hmem : ∀ e ∈ sorted, e ∈ entries := by
    intro e he
    rw [← hsorted] at he
    exact (List.mem_insertionSort _).mp he
  have hfold : ∀ (seeds : List CompactableEntry) (acc : Clustering), acc.Ok sorted →
      (∀ e ∈ seeds, e ∈ sorted) →
      (seeds.foldl (seedCluster similarity threshold minClusterSize sorted) acc).Ok sorted := by
    intro seeds
    induction seeds with
    | nil => exact fun acc hacc _ => hacc
    | cons seed seeds ih =>
        intro acc hacc hseeds
        exact ih _ (hacc.seedCluster (hseeds seed List.mem_cons_self))
          fun e he => hseeds e (List.mem_cons_of_mem seed he)
  have hstart : Clustering.Ok sorted {} :=
    ⟨fun _ h => (nomatch h), fun _ h => (nomatch h), List.nodup_nil, fun _ h => (nomatch h)⟩
  have hall := hfold sorted {} hstart fun e he => he
  exact ⟨fun cluster hc => ⟨hall.nonempty cluster hc, fun e he => hmem e (hall.members cluster hc e he)⟩,
    hall.nodup⟩

/-! ### Merged entries -/

section
variable (host : Host)

/-- The text has the line, up to case. -/
def HasLine (text line : String) : Prop :=
  ∃ l ∈ Text.contentLines text, host.unicode.toLowerCase l = host.unicode.toLowerCase line

/-- What the lines so far are of the pieces so far. -/
structure Merges (pieces : List String) (m : MergedLines) : Prop where
  seen : ∀ s, s ∈ m.seenLines ↔ ∃ l ∈ m.lines, host.unicode.toLowerCase l = s
  lines : ∀ l ∈ m.lines, l ≠ "" ∧ ∃ piece ∈ pieces, Text.trim piece = l
  kept : ∀ piece ∈ pieces, Text.trim piece ≠ "" → ∃ l ∈ m.lines,
    host.unicode.toLowerCase l = host.unicode.toLowerCase (Text.trim piece)

variable {host}

theorem Merges.mergeLine {pieces : List String} {m : MergedLines} (h : Merges host pieces m)
    (piece : String) : Merges host (pieces ++ [piece]) (mergeLine host m piece) := by
  have hold : ∀ l ∈ m.lines, l ≠ "" ∧ ∃ piece' ∈ pieces ++ [piece], Text.trim piece' = l := by
    intro l hl
    obtain ⟨hne, piece', hpiece', htrim⟩ := h.lines l hl
    exact ⟨hne, piece', List.mem_append_left _ hpiece', htrim⟩
  unfold Compaction.mergeLine
  simp only
  split
  · next hadd =>
      refine ⟨fun s => ?_, fun l hl => ?_, fun piece' hpiece' hne => ?_⟩
      · rw [OrdSet.mem_add, h.seen]
        simp only [List.mem_append, List.mem_singleton, or_and_right, exists_or, exists_eq_left]
        rw [eq_comm (b := s)]
      · rcases List.mem_append.mp hl with hl | hl
        · exact hold l hl
        · rw [List.mem_singleton.mp hl]
          exact ⟨hadd.1, piece, List.mem_append_right _ (List.mem_singleton_self piece), rfl⟩
      · rcases List.mem_append.mp hpiece' with hpiece' | hpiece'
        · obtain ⟨l, hl, hlower⟩ := h.kept piece' hpiece' hne
          exact ⟨l, List.mem_append_left _ hl, hlower⟩
        · rw [List.mem_singleton.mp hpiece']
          exact ⟨_, List.mem_append_right _ (List.mem_singleton_self _), rfl⟩
  · next hskip =>
      refine ⟨h.seen, hold, fun piece' hpiece' hne => ?_⟩
      rcases List.mem_append.mp hpiece' with hpiece' | hpiece'
      · exact h.kept piece' hpiece' hne
      · rw [List.mem_singleton.mp hpiece'] at hne ⊢
        have hseen : host.unicode.toLowerCase (Text.trim piece) ∈ m.seenLines := by
          by_contra hnot
          refine hskip ⟨hne, ?_⟩
          rw [Bool.not_eq_true', Bool.eq_false_iff]
          exact fun hhas => hnot (OrdSet.has_iff.mp hhas)
        exact (h.seen _).mp hseen

theorem merges_mergeLines (host : Host) (texts : List String) :
    ∃ m, Merges host (texts.flatMap fun text => Text.splitOn text '\n') m ∧
      mergeLines host texts = m.lines := by
  refine ⟨(texts.flatMap fun text => Text.splitOn text '\n').foldl (mergeLine host) {}, ?_, ?_⟩
  · refine foldl_from_nil (fun pieces m piece h => h.mergeLine piece) _ ⟨fun s => ?_, ?_, ?_⟩
    · simp [OrdSet.mem_def, OrdSet.empty]
    · simp
    · simp
  · rw [List.foldl_flatMap]
    rfl

theorem contentLines_merged (texts : List String) :
    Text.contentLines (Text.join "\n" (mergeLines host texts)) = mergeLines host texts := by
  obtain ⟨m, hm, heq⟩ := merges_mergeLines host texts
  rw [heq]
  refine Text.contentLines_join fun l hl => ?_
  obtain ⟨hne, piece, hpiece, htrim⟩ := hm.lines l hl
  obtain ⟨text, -, hpiece⟩ := List.mem_flatMap.mp hpiece
  exact Text.contentLine_of_mem (Text.mem_contentLines.mpr ⟨hne, piece, hpiece, htrim⟩)

/-- The merged lines are those of the texts, up to case. -/
theorem hasLine_mergeLines_iff {texts : List String} {line : String} :
    HasLine host (Text.join "\n" (mergeLines host texts)) line ↔
      ∃ text ∈ texts, HasLine host text line := by
  obtain ⟨m, hm, heq⟩ := merges_mergeLines host texts
  rw [HasLine, contentLines_merged, heq]
  constructor
  · rintro ⟨l, hl, hlower⟩
    obtain ⟨hne, piece, hpiece, htrim⟩ := hm.lines l hl
    obtain ⟨text, htext, hpiece⟩ := List.mem_flatMap.mp hpiece
    exact ⟨text, htext, l, Text.mem_contentLines.mpr ⟨hne, piece, hpiece, htrim⟩, hlower⟩
  · rintro ⟨text, htext, l, hl, hlower⟩
    obtain ⟨hne, piece, hpiece, rfl⟩ := Text.mem_contentLines.mp hl
    obtain ⟨l', hl', hlower'⟩ := hm.kept piece (List.mem_flatMap.mpr ⟨text, htext, hpiece⟩) hne
    exact ⟨l', hl', hlower'.trans hlower⟩

variable {members : List CompactableEntry}

theorem mem_of_mapM_text {texts : List String}
    (h : members.mapM (·.text) = some texts) {text : String} :
    text ∈ texts ↔ ∃ m ∈ members, m.text = some text := by
  induction members generalizing texts with
  | nil =>
      obtain rfl := Option.some.inj h
      simp
  | cons first members ih =>
      rw [List.mapM_cons] at h
      obtain ⟨t, ht, h⟩ := Option.bind_eq_some_iff.mp h
      obtain ⟨ts, hts, h⟩ := Option.bind_eq_some_iff.mp h
      obtain rfl := Option.some.inj h
      rw [List.mem_cons, ih hts]
      simp only [List.mem_cons, exists_eq_or_imp, ht, Option.some.injEq, eq_comm (a := t)]

theorem exists_mapM_text :
    (∃ texts, members.mapM (·.text) = some texts) ↔ ∀ m ∈ members, m.text.isSome = true := by
  induction members with
  | nil => exact iff_of_true ⟨[], rfl⟩ fun _ h => (nomatch h)
  | cons m members ih =>
      rw [List.forall_mem_cons, ← ih, List.mapM_cons]
      constructor
      · rintro ⟨texts, h⟩
        obtain ⟨t, ht, h⟩ := Option.bind_eq_some_iff.mp h
        obtain ⟨ts, hts, -⟩ := Option.bind_eq_some_iff.mp h
        exact ⟨Option.isSome_iff_exists.mpr ⟨t, ht⟩, ts, hts⟩
      · rintro ⟨ht, ts, hts⟩
        obtain ⟨t, ht⟩ := Option.isSome_iff_exists.mp ht
        rw [ht, hts]
        exact ⟨t :: ts, rfl⟩

theorem buildMergedEntry_of_all (host : Host) (hne : members ≠ [])
    (htexts : members.all (fun m => m.text.isSome) = true) :
    ∃ merged, buildMergedEntry host members = some merged ∧
      merged.sourceIds = members.map (·.id) := by
  obtain ⟨texts, htexts⟩ := exists_mapM_text.mpr (List.all_eq_true.mp htexts)
  unfold buildMergedEntry
  rw [htexts]
  cases members with
  | nil => exact absurd rfl hne
  | cons first rest => exact ⟨_, rfl, rfl⟩

theorem buildMergedEntry_of_not_all (htexts : ¬members.all (fun m => m.text.isSome) = true) :
    buildMergedEntry host members = none := by
  unfold buildMergedEntry
  split
  · next hmapM => exact absurd (List.all_eq_true.mpr (exists_mapM_text.mp ⟨_, hmapM⟩)) htexts
  · rfl

/-- **A merged text** has the lines its members have, up to case. -/
theorem hasLine_merged_iff {merged : MergedEntry}
    (h : buildMergedEntry host members = some merged) {line : String} :
    HasLine host merged.text line ↔
      ∃ m ∈ members, ∃ text, m.text = some text ∧ HasLine host text line := by
  unfold buildMergedEntry at h
  split at h
  · next first rest texts htexts =>
      obtain rfl := Option.some.inj h
      rw [hasLine_mergeLines_iff]
      constructor
      · rintro ⟨text, htext, hline⟩
        obtain ⟨m, hm, heq⟩ := (mem_of_mapM_text htexts).mp htext
        exact ⟨m, hm, text, heq, hline⟩
      · rintro ⟨m, hm, text, heq, hline⟩
        exact ⟨text, (mem_of_mapM_text htexts).mpr ⟨m, hm, heq⟩, hline⟩
  · cases h

end

end Runir.Compaction
