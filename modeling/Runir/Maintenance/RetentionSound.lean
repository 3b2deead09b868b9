import Runir.Lib.Sorted
import Runir.Maintenance.WorkspaceRetention

/-!
# Maintenance — What workspace retention removes

* `Inspected`: what `inspectTree` finds of a candidate, all of it and nothing else.
* `listed_of_candidateMatches`: when a candidate matches what is planned, nothing is in it but that.
* `removeNodes_removes`: then its nodes are removed one after the other, and nothing else.
* `applyWorkspaceRetention_sound`: a candidate is removed entirely or not at all.
-/

namespace Runir.Retention

open FileSystem

/-! ### Inspecting -/

/-- What is at a location is what a node says of it, its time apart. -/
structure Describes (node : RetentionNode) (e : FileEntry) : Prop where
  kind : e.kind = node.kind.fileKind
  dev : e.dev = node.dev
  ino : e.ino = node.ino

/-- The nodes are what is at a path under a root, and under it. -/
structure Listed (fs : FileSystem) (root path : List String) (nodes : List RetentionNode) : Prop where
  present : ∀ node ∈ nodes, ∃ e, fs.stat (root ++ node.relativePath) = some e ∧ Describes node e
  under : ∀ node ∈ nodes, path <+: node.relativePath
  complete : ∀ more, fs.stat (root ++ path ++ more) ≠ none →
    ∃ node ∈ nodes, node.relativePath = path ++ more
  nodup : (nodes.map RetentionNode.relativePath).Nodup

/-- And all of it was last changed before the cutoff. -/
structure Inspected (fs : FileSystem) (root : List String) (cutoffMs : ℚ) (path : List String)
    (nodes : List RetentionNode) : Prop extends Listed fs root path nodes where
  head : ∃ node ∈ nodes, node.relativePath = path
  old : ∀ node ∈ nodes, ∃ e t, fs.stat (root ++ node.relativePath) = some e ∧ e.mtimeMs = some t ∧
    node.mtimeMs = some t ∧ t < cutoffMs

variable {fs fs₀ fs₁ fs' : FileSystem} {root path : List String} {cutoffMs : ℚ}
  {nodes : List RetentionNode} {node : RetentionNode} {e : FileEntry}

/-- What is in a directory comes after it. -/
theorem Inspected.ofChildren {children : List String} {trees : String → List RetentionNode} {t : ℚ}
    (he : fs.stat (root ++ node.relativePath) = some e) (hdescribes : Describes node e)
    (htime : e.mtimeMs = some t) (hnode : node.mtimeMs = some t) (hold : t < cutoffMs)
    (hmem : ∀ child, fs.stat (root ++ node.relativePath ++ [child]) ≠ none → child ∈ children)
    (hnodup : children.Nodup)
    (htrees : ∀ child ∈ children,
      Inspected fs root cutoffMs (node.relativePath ++ [child]) (trees child)) :
    Inspected fs root cutoffMs node.relativePath (node :: children.flatMap trees) := by
  have htree : ∀ n ∈ children.flatMap trees, ∃ child ∈ children, n ∈ trees child :=
    fun n hn => List.mem_flatMap.mp hn
  refine
    { present := List.forall_mem_cons.mpr ⟨⟨e, he, hdescribes⟩, ?_⟩
      under := List.forall_mem_cons.mpr ⟨List.prefix_refl _, ?_⟩
      complete := ?_
      nodup := ?_
      head := ⟨node, List.mem_cons_self, rfl⟩
      old := List.forall_mem_cons.mpr ⟨⟨e, t, he, htime, hnode, hold⟩, ?_⟩ }
  · intro n hn
    obtain ⟨child, hchild, hn⟩ := htree n hn
    exact (htrees child hchild).present n hn
  · intro n hn
    obtain ⟨child, hchild, hn⟩ := htree n hn
    exact (List.prefix_append _ [child]).trans ((htrees child hchild).under n hn)
  · intro more hpresent
    cases more with
    | nil => exact ⟨node, List.mem_cons_self, (List.append_nil _).symm⟩
    | cons child more =>
        have hsplit : root ++ node.relativePath ++ child :: more =
            root ++ (node.relativePath ++ [child]) ++ more := by simp
        rw [hsplit] at hpresent
        have hchild : child ∈ children := by
          refine hmem child ?_
          by_cases hmore : more = []
          · rw [hmore, List.append_nil, ← List.append_assoc] at hpresent
            exact hpresent
          · intro hnone
            have hdir := kindAt_of_prefix (List.prefix_append _ more)
              (fun heq => hmore (List.self_eq_append_right.mp heq)) hpresent
            rw [kindAt, ← List.append_assoc, hnone] at hdir
            cases hdir
        obtain ⟨n, hn, hpath⟩ := (htrees child hchild).complete more hpresent
        refine ⟨n, List.mem_cons_of_mem _ (List.mem_flatMap.mpr ⟨child, hchild, hn⟩), ?_⟩
        rw [hpath, List.append_assoc, List.singleton_append]
  · rw [List.map_cons, List.nodup_cons, List.map_flatMap, List.nodup_flatMap]
    refine ⟨?_, fun child hchild => (htrees child hchild).nodup, hnodup.imp_of_mem ?_⟩
    · intro hself
      obtain ⟨child, hchild, hself⟩ := List.mem_flatMap.mp hself
      obtain ⟨n, hn, hpath⟩ := List.mem_map.mp hself
      have hunder := ((htrees child hchild).under n hn).length_le
      rw [hpath, List.length_append, List.length_singleton] at hunder
      omega
    · intro a b ha hb hne p hpa hpb
      obtain ⟨n, hn, rfl⟩ := List.mem_map.mp hpa
      obtain ⟨m, hm, hpath⟩ := List.mem_map.mp hpb
      have hua := (htrees a ha).under n hn
      have hub := (htrees b hb).under m hm
      rw [hpath] at hub
      have hsame := List.prefix_of_prefix_length_le hua hub (by simp)
      refine hne ?_
      have heq := hsame.eq_of_length (by simp)
      exact List.singleton_inj.mp (List.append_cancel_left heq)
  · intro n hn
    obtain ⟨child, hchild, hn⟩ := htree n hn
    exact (htrees child hchild).old n hn

theorem foldl_add {trees : List InspectedTree} {tree : InspectedTree} :
    (trees.foldl InspectedTree.add tree).nodes = tree.nodes ++ trees.flatMap InspectedTree.nodes ∧
      ((trees.foldl InspectedTree.add tree).reason = none ↔
        tree.reason = none ∧ ∀ child ∈ trees, child.reason = none) := by
  induction trees generalizing tree with
  | nil => simp
  | cons child trees ih =>
      obtain ⟨hnodes, hreason⟩ := @ih (tree.add child)
      have hstronger : (tree.add child).reason = none ↔ tree.reason = none ∧ child.reason = none := by
        rw [InspectedTree.add]
        cases tree.reason with
        | none => simp [strongerReason]
        | some left =>
            cases child.reason with
            | none => simp [strongerReason]
            | some right =>
                rw [strongerReason]
                split
                · simp
                · simp
      rw [List.foldl_cons, hnodes, hreason, hstronger, List.flatMap_cons, InspectedTree.add,
        List.append_assoc, List.forall_mem_cons, and_assoc]
      exact ⟨rfl, Iff.rfl⟩

theorem ownReason_eq_none {mtimeMs : Option ℚ} :
    ownReason mtimeMs cutoffMs = none ↔ ∃ t, mtimeMs = some t ∧ t < cutoffMs := by
  cases mtimeMs with
  | none => simp [ownReason]
  | some t => simp [ownReason]

variable {name : String} {classRoot parent : List String}

/-- What is in a directory that is reached. -/
theorem lstat_child (hreal : fs.realpath (classRoot ++ parent) = some (root ++ parent)) :
    fs.lstat (classRoot ++ (parent ++ [name])) = fs.stat (root ++ (parent ++ [name])) := by
  rw [lstat, ← List.append_assoc, locate_concat hreal, Option.bind_some, List.append_assoc]

variable {depth : Nat}

/-- All of a candidate is inspected. -/
theorem inspected_inspectTree (hreal : fs.realpath (classRoot ++ parent) = some (root ++ parent))
    (h : inspectTree fs classRoot cutoffMs depth (parent ++ [name]) = ⟨nodes, none⟩) :
    Inspected fs root cutoffMs (parent ++ [name]) nodes := by
  induction depth generalizing parent name nodes with
  | zero => cases h
  | succ depth ih =>
      rw [inspectTree, lstat_child hreal] at h
      cases hstat : fs.stat (root ++ (parent ++ [name])) with
      | none =>
          rw [hstat] at h
          cases h
      | some e =>
          rw [hstat] at h
          dsimp only at h
          cases hkind : e.kind with
          | symlink absolute target =>
              rw [hkind] at h
              cases h
          | other =>
              rw [hkind] at h
              cases h
          | file =>
              rw [hkind] at h
              obtain ⟨hnodes, hreason⟩ := InspectedTree.mk.inj h
              obtain ⟨t, ht, hold⟩ := ownReason_eq_none.mp hreason
              rw [← hnodes]
              refine @Inspected.ofChildren fs root cutoffMs
                ⟨parent ++ [name], .file, e.dev, e.ino, e.mtimeMs⟩ e [] (fun _ => []) t hstat
                ⟨hkind, rfl, rfl⟩ ht ht hold ?_ List.nodup_nil (List.forall_mem_nil _)
              intro child hchild
              obtain ⟨d, hd, hdir⟩ := fs.closed _ child hchild
              have heq : e = d := Option.some.inj (hstat.symm.trans hd)
              rw [heq, hdir] at hkind
              cases hkind
          | directory =>
              rw [hkind] at h
              have hdir : fs.kindAt (root ++ parent ++ [name]) = some .directory := by
                rw [kindAt, List.append_assoc, hstat, Option.map_some, hkind]
              have hhere := (realpath_concat hdir hreal).1
              rw [List.append_assoc, List.append_assoc] at hhere
              dsimp only at h
              cases hreaddir : fs.readdir (classRoot ++ (parent ++ [name])) with
              | none =>
                  rw [hreaddir] at h
                  cases h
              | some children =>
                  rw [hreaddir] at h
                  have hchildren : fs.names (root ++ (parent ++ [name])) = children := by
                    rw [readdir, hhere] at hreaddir
                    dsimp only at hreaddir
                    rw [hstat] at hreaddir
                    dsimp only at hreaddir
                    split at hreaddir
                    · exact Option.some.inj hreaddir
                    · cases hreaddir
                  dsimp only at h
                  obtain ⟨hnodes, hreasons⟩ := @foldl_add
                    ((sortStrings children).map fun child =>
                      inspectTree fs classRoot cutoffMs depth (parent ++ [name] ++ [child]))
                    ⟨[⟨parent ++ [name], .directory, e.dev, e.ino, e.mtimeMs⟩],
                      ownReason e.mtimeMs cutoffMs⟩
                  rw [h] at hnodes hreasons
                  obtain ⟨hown, hbelow⟩ := hreasons.mp rfl
                  obtain ⟨t, ht, hold⟩ := ownReason_eq_none.mp hown
                  rw [List.flatMap_map] at hnodes
                  dsimp only at hnodes
                  rw [hnodes, List.singleton_append]
                  refine @Inspected.ofChildren fs root cutoffMs
                    ⟨parent ++ [name], .directory, e.dev, e.ino, e.mtimeMs⟩ e (sortStrings children)
                    (fun child => (inspectTree fs classRoot cutoffMs depth
                      (parent ++ [name] ++ [child])).nodes) t hstat ⟨hkind, rfl, rfl⟩ ht ht hold
                    ?_ ?_ ?_
                  · intro child hchild
                    rw [mem_sortStrings, ← hchildren, mem_names]
                    exact hchild
                  · rw [← hchildren]
                    exact (List.perm_insertionSort _ _).nodup_iff.mpr nodup_names
                  · intro child hchild
                    have hreason := hbelow _ (List.mem_map.mpr ⟨child, hchild, rfl⟩)
                    refine ih hhere ?_
                    rw [← hreason]

theorem inspected_of_reason {classRoot : List String} (hreal : fs.realpath classRoot = some root)
    (h : (inspectTree fs classRoot cutoffMs depth [name]).reason = none) :
    Inspected fs root cutoffMs [name] (inspectTree fs classRoot cutoffMs depth [name]).nodes := by
  rw [← List.nil_append [name]] at h ⊢
  refine @inspected_inspectTree fs root cutoffMs _ name classRoot [] depth ?_ ?_
  · rw [List.append_nil, List.append_nil]
    exact hreal
  · rw [← h]

variable {p : List String}

theorem length_lt_depthOf (h : fs.stat p ≠ none) : p.length < depthOf fs := by
  have hmax : ∀ {ns : List Nat} {n : Nat}, n ∈ ns → n ≤ ns.foldr max 0 := by
    intro ns n hn
    induction ns with
    | nil => cases hn
    | cons m ns ih =>
        rcases List.mem_cons.mp hn with rfl | hn
        · exact le_max_left _ _
        · exact (ih hn).trans (le_max_right _ _)
  have hkey : p ∈ fs.entries.keys := by
    rw [stat, ne_eq, OrdMap.get?_eq_none, not_not] at h
    exact h
  exact Nat.lt_succ_of_le (hmax (List.mem_map.mpr ⟨p, hkey, rfl⟩))

theorem inspectTree_succ (hreal : fs.realpath (classRoot ++ parent) = some (root ++ parent))
    (hdepth : depthOf fs ≤ (root ++ parent).length + depth) :
    inspectTree fs classRoot cutoffMs (depth + 1) (parent ++ [name]) =
      inspectTree fs classRoot cutoffMs depth (parent ++ [name]) := by
  induction depth generalizing parent name with
  | zero =>
      rw [inspectTree, inspectTree, lstat_child hreal]
      cases hstat : fs.stat (root ++ (parent ++ [name])) with
      | none => rfl
      | some e =>
          have hlength := length_lt_depthOf fun hnone => Option.some_ne_none e (hstat.symm.trans hnone)
          simp only [List.length_append, List.length_singleton] at hlength hdepth
          omega
  | succ depth ih =>
      rw [inspectTree, inspectTree, lstat_child hreal]
      cases hstat : fs.stat (root ++ (parent ++ [name])) with
      | none => rfl
      | some e =>
          dsimp only
          cases hkind : e.kind with
          | file => rfl
          | symlink absolute target => rfl
          | other => rfl
          | directory =>
              dsimp only
              cases fs.readdir (classRoot ++ (parent ++ [name])) with
              | none => rfl
              | some children =>
                  have hdir : fs.kindAt (root ++ parent ++ [name]) = some .directory := by
                    rw [kindAt, List.append_assoc, hstat, Option.map_some, hkind]
                  have hhere := (realpath_concat hdir hreal).1
                  rw [List.append_assoc, List.append_assoc] at hhere
                  have hdeeper : depthOf fs ≤ (root ++ (parent ++ [name])).length + depth := by
                    simp only [List.length_append, List.length_singleton] at hdepth ⊢
                    omega
                  dsimp only
                  congr 1
                  exact List.map_congr_left fun child _ => ih hhere hdeeper

/-- Nothing is too deep to be inspected. -/
theorem inspectTree_depthOf {classRoot : List String} (more : Nat)
    (hreal : fs.realpath classRoot = some root) :
    inspectTree fs classRoot cutoffMs (depthOf fs + more) [name] =
      inspectTree fs classRoot cutoffMs (depthOf fs) [name] := by
  have hroot : fs.realpath (classRoot ++ []) = some (root ++ []) := by
    rw [List.append_nil, List.append_nil]
    exact hreal
  induction more with
  | zero => rfl
  | succ more ih =>
      rw [← ih]
      exact inspectTree_succ hroot ((Nat.le_add_right _ more).trans (Nat.le_add_left _ _))

/-! ### Matching -/

/-- The time of a directory changes when what is in it does. -/
def Stamped (fs₀ fs₁ : FileSystem) (p : List String) : Prop :=
  ∀ e₀ e₁, fs₀.stat p = some e₀ → fs₁.stat p = some e₁ → e₀.kind = .directory →
    e₁.kind = .directory → e₀.dev = e₁.dev → e₀.ino = e₁.ino → e₀.mtimeMs = e₁.mtimeMs →
    ∀ name, name ∈ fs₁.names p → name ∈ fs₀.names p

variable {classRoot : RootSnapshot} {compareMtime : Bool} {entryName : String}

theorem stat_of_nodeMatches (h : nodeMatches fs classRoot compareMtime node = true) :
    ∃ e, fs.stat (classRoot.realPath ++ node.relativePath) = some e ∧ Describes node e ∧
      (compareMtime = true → e.mtimeMs = node.mtimeMs) := by
  rw [nodeMatches, Bool.and_eq_true] at h
  obtain ⟨hcontained, h⟩ := h
  have hne : node.relativePath ≠ [] := by
    rw [contained, Bool.and_eq_true, decide_eq_true_eq] at hcontained
    exact hcontained.1
  cases hlstat : fs.lstat (classRoot.path ++ node.relativePath) with
  | none =>
      rw [hlstat] at h
      cases h
  | some e =>
      rw [hlstat] at h
      simp only [Bool.and_eq_true, Bool.or_eq_true, Bool.not_eq_true', decide_eq_true_eq] at h
      obtain ⟨⟨⟨⟨hkind, hdev⟩, hino⟩, htime⟩, hreal⟩ := h
      refine ⟨e, ?_, ⟨hkind, hdev, hino⟩, fun htrue => htime.resolve_left (by simp [htrue])⟩
      have hlast := @lstat_child fs _ (node.relativePath.getLast hne) _ _ hreal
      rw [List.dropLast_append_getLast] at hlast
      exact hlast.symm.trans hlstat

/-- What is there matches, when the root is reached. -/
theorem nodeMatches_of_stat (hreal : fs.realpath classRoot.path = some classRoot.realPath)
    (hne : node.relativePath ≠ [])
    (he : fs.stat (classRoot.realPath ++ node.relativePath) = some e) (hdescribes : Describes node e) :
    nodeMatches fs classRoot false node = true ∧
      fs.locate (classRoot.path ++ node.relativePath) =
        some (classRoot.realPath ++ node.relativePath) := by
  have hsplit := List.dropLast_append_getLast hne
  have hpresent : fs.stat (classRoot.realPath ++ node.relativePath) ≠ none := by
    rw [he]
    exact Option.some_ne_none e
  have hnamed := fs.named _ hpresent
  rw [← hsplit, ← List.append_assoc] at hpresent
  have hlocate := locate_append hpresent hreal
  rw [List.append_assoc, List.append_assoc, hsplit] at hlocate
  refine ⟨?_, hlocate⟩
  have hcontained : contained node.relativePath = true := by
    rw [contained, Bool.and_eq_true, decide_eq_true_eq, decide_eq_true_eq]
    refine ⟨hne, fun hhead => hnamed (List.mem_append_right _ (List.mem_of_mem_head? hhead))⟩
  rw [nodeMatches, hcontained, lstat, hlocate, Option.bind_some, he, Bool.true_and]
  simp only [hdescribes.kind, hdescribes.dev, hdescribes.ino, realpath_append hpresent hreal,
    decide_true, Bool.and_self, Bool.not_false, Bool.true_or]

/-- When a candidate matches, nothing is in it but what is planned. -/
theorem listed_of_candidateMatches {candidate : RetentionCandidate}
    (hinspected : Inspected fs₀ classRoot.realPath cutoffMs path candidate.nodes)
    (hstamped : ∀ more, Stamped fs₀ fs (classRoot.realPath ++ path ++ more))
    (h : candidateMatches fs classRoot candidate = true) :
    Listed fs classRoot.realPath path candidate.nodes := by
  have hmatches : ∀ node ∈ candidate.nodes, ∃ e,
      fs.stat (classRoot.realPath ++ node.relativePath) = some e ∧ Describes node e ∧
        e.mtimeMs = node.mtimeMs := by
    intro node hnode
    obtain ⟨e, he, hdescribes, htime⟩ := stat_of_nodeMatches (List.all_eq_true.mp h node hnode)
    exact ⟨e, he, hdescribes, htime rfl⟩
  refine
    { present := ?_
      under := hinspected.under
      complete := ?_
      nodup := hinspected.nodup }
  · intro node hnode
    obtain ⟨e, he, hdescribes, -⟩ := hmatches node hnode
    exact ⟨e, he, hdescribes⟩
  · intro more
    induction more using List.reverseRecOn with
    | nil =>
        intro _
        obtain ⟨node, hnode, hpath⟩ := hinspected.head
        exact ⟨node, hnode, hpath.trans (List.append_nil _).symm⟩
    | append_singleton more name ih =>
        intro hpresent
        rw [← List.append_assoc] at hpresent
        obtain ⟨d, hd, hdir⟩ := fs.closed _ name hpresent
        obtain ⟨node, hnode, hpath⟩ := ih fun hnone => Option.some_ne_none d (hd.symm.trans hnone)
        obtain ⟨e, he, hdescribes, htime⟩ := hmatches node hnode
        obtain ⟨e₀, t, he₀, htime₀, hnodeTime, -⟩ := hinspected.old node hnode
        obtain ⟨e₀', he₀', hdescribes₀⟩ := hinspected.present node hnode
        obtain rfl := Option.some.inj (he₀.symm.trans he₀')
        rw [hpath, ← List.append_assoc] at he he₀
        obtain rfl := Option.some.inj (he.symm.trans hd)
        have hkind₀ : e₀.kind = .directory :=
          hdescribes₀.kind.trans (hdescribes.kind.symm.trans hdir)
        have hmem := hstamped more e₀ e he₀ hd hkind₀ hdir
          (hdescribes₀.dev.trans hdescribes.dev.symm) (hdescribes₀.ino.trans hdescribes.ino.symm)
          (htime₀.trans (hnodeTime.symm.trans htime.symm)) name (mem_names.mpr hpresent)
        rw [mem_names, List.append_assoc] at hmem
        exact hinspected.complete (more ++ [name]) hmem

/-! ### Removing -/

/-- Outside of a candidate things are as they were, but the time of its class root. -/
structure Kept (root path : List String) (fs fs' : FileSystem) : Prop where
  stat : ∀ q, ¬ root ++ path <+: q → q ≠ root → fs'.stat q = fs.stat q
  kindAt : ∀ q, ¬ root ++ path <+: q → fs'.kindAt q = fs.kindAt q

theorem Kept.refl : Kept root path fs fs := ⟨fun _ _ _ => rfl, fun _ _ => rfl⟩

theorem Kept.trans {fs'' : FileSystem} (h : Kept root path fs fs') (h' : Kept root path fs' fs'') :
    Kept root path fs fs'' :=
  ⟨fun q hq hroot => (h'.stat q hq hroot).trans (h.stat q hq hroot),
    fun q hq => (h'.kindAt q hq).trans (h.kindAt q hq)⟩

theorem kept_removeLeaf {rel : List String} {stamp : Option ℚ} (hrel : [entryName] <+: rel)
    (hempty : fs.names (root ++ rel) = []) :
    Kept root [entryName] fs (fs.removeLeaf stamp (root ++ rel) hempty) := by
  obtain ⟨more, rfl⟩ := hrel
  have hself : ∀ q, ¬ root ++ [entryName] <+: q → q ≠ root ++ ([entryName] ++ more) := by
    rintro q hq rfl
    exact hq ⟨more, List.append_assoc _ _ _⟩
  refine ⟨fun q hq hroot => ?_, fun q hq => ?_⟩
  · rw [stat_removeLeaf, if_neg (hself q hq)]
    have hdir : q ≠ (root ++ ([entryName] ++ more)).dropLast := by
      rintro rfl
      cases more using List.reverseRecOn with
      | nil =>
          rw [List.append_nil, List.dropLast_concat] at hroot
          exact hroot rfl
      | append_singleton more name =>
          rw [← List.append_assoc, ← List.append_assoc, List.dropLast_concat] at hq
          exact hq ⟨more, rfl⟩
    simp only [if_neg hdir, Option.map_id']
  · rw [FileSystem.kindAt, FileSystem.kindAt, stat_removeLeaf, if_neg (hself q hq), Option.map_map]
    congr 1
    funext e
    rw [Function.comp_apply]
    split
    · rfl
    · rfl

theorem removeNode_eq {host : RemovalHost}
    (hlocate : fs.locate (classRoot.path ++ node.relativePath) =
      some (classRoot.realPath ++ node.relativePath))
    (he : fs.stat (classRoot.realPath ++ node.relativePath) = some e) (hdescribes : Describes node e)
    (hempty : fs.names (classRoot.realPath ++ node.relativePath) = []) :
    ∃ stamp, removeNode host fs classRoot node =
      some (fs.removeLeaf stamp (classRoot.realPath ++ node.relativePath) hempty) := by
  have hkind : fs.kindAt (classRoot.realPath ++ node.relativePath) = some node.kind.fileKind := by
    rw [kindAt, he, Option.map_some, hdescribes.kind]
  refine ⟨host.stamp (classRoot.path ++ node.relativePath), ?_⟩
  rw [removeNode]
  cases hnode : node.kind with
  | file =>
      rw [hnode] at hkind
      refine unlink_eq hlocate ?_ ?_
      · rw [he]
        exact Option.some_ne_none e
      · rw [hkind]
        intro h
        cases h
  | directory =>
      rw [hnode] at hkind
      exact rmdir_eq hlocate hempty hkind

theorem pairwise_removalOrder (localeLe : String → String → Bool) :
    (removalOrder localeLe nodes).Pairwise fun a b =>
      b.relativePath.length ≤ a.relativePath.length := by
  refine Sorted.pairwise_insertionSort_falls (fun a b h => ?_) (fun a b h => ?_) nodes
  · rw [removedBefore] at h
    split at h
    · exact (decide_eq_true_eq.mp h).le
    · next hlength => exact (not_not.mp hlength).ge
  · rw [removedBefore] at h
    split at h
    · exact not_lt.mp fun hlt => h (decide_eq_true hlt)
    · next hlength => exact (not_not.mp hlength).le

/-- What is left is removed, the deeper first. -/
theorem removeNodes_removes (host : RemovalHost)
    (hreal : fs.realpath classRoot.path = some classRoot.realPath)
    (hroute : ∀ q ∈ fs.visited classRoot.path, ¬ classRoot.realPath ++ [entryName] <+: q)
    (hlisted : Listed fs classRoot.realPath [entryName] nodes)
    (hsorted : nodes.Pairwise fun a b => b.relativePath.length ≤ a.relativePath.length) :
    ∃ fs', removeNodes host classRoot fs nodes = (fs', none) ∧
      (∀ q, classRoot.realPath ++ [entryName] <+: q → fs'.stat q = none) ∧
      Kept classRoot.realPath [entryName] fs fs' := by
  induction nodes generalizing fs with
  | nil =>
      refine ⟨fs, rfl, ?_, Kept.refl⟩
      rintro q ⟨more, rfl⟩
      by_contra hpresent
      obtain ⟨node, hnode, -⟩ := hlisted.complete more hpresent
      cases hnode
  | cons node rest ih =>
      obtain ⟨hdeep, hsorted⟩ := List.pairwise_cons.mp hsorted
      obtain ⟨hnew, hnodup⟩ := List.nodup_cons.mp hlisted.nodup
      obtain ⟨e, he, hdescribes⟩ := hlisted.present node List.mem_cons_self
      have hunder := hlisted.under node List.mem_cons_self
      have hne : node.relativePath ≠ [] := by
        intro hnil
        rw [hnil, List.prefix_nil] at hunder
        cases hunder
      obtain ⟨hmatches, hlocate⟩ := nodeMatches_of_stat hreal hne he hdescribes
      -- what is in it would be deeper, and so gone
      have hempty : fs.names (classRoot.realPath ++ node.relativePath) = [] := by
        refine List.eq_nil_iff_forall_not_mem.mpr fun name hmem => ?_
        obtain ⟨more, hmore⟩ := hunder
        rw [mem_names, ← hmore, ← List.append_assoc, List.append_assoc _ more] at hmem
        obtain ⟨child, hchild, hpath⟩ := hlisted.complete (more ++ [name]) hmem
        rw [← List.append_assoc, hmore] at hpath
        have hlength : child.relativePath.length = node.relativePath.length + 1 := by
          rw [hpath, List.length_append, List.length_singleton]
        rcases List.mem_cons.mp hchild with rfl | hchild
        · omega
        · have := hdeep child hchild
          omega
      obtain ⟨stamp, hremove⟩ := @removeNode_eq fs node e classRoot host hlocate he hdescribes hempty
      have hkept : Kept classRoot.realPath [entryName] fs (fs.removeLeaf stamp _ hempty) :=
        kept_removeLeaf hunder hempty
      obtain ⟨hreal', hvisited⟩ := realpath_congr fun q hq => hkept.kindAt q (hroute q hq)
      have hlisted' : Listed (fs.removeLeaf stamp _ hempty) classRoot.realPath [entryName] rest := by
        refine
          { present := ?_
            under := fun n hn => hlisted.under n (List.mem_cons_of_mem _ hn)
            complete := ?_
            nodup := hnodup }
        · intro n hn
          obtain ⟨d, hd, hdescribes⟩ := hlisted.present n (List.mem_cons_of_mem _ hn)
          have hother : classRoot.realPath ++ n.relativePath ≠
              classRoot.realPath ++ node.relativePath := by
            intro heq
            refine hnew ?_
            rw [← List.append_cancel_left heq]
            exact List.mem_map.mpr ⟨n, hn, rfl⟩
          rw [stat_removeLeaf, if_neg hother, hd]
          refine ⟨_, rfl, ?_⟩
          split
          · exact ⟨hdescribes.kind, hdescribes.dev, hdescribes.ino⟩
          · exact hdescribes
        · intro more hpresent
          rw [stat_removeLeaf] at hpresent
          split at hpresent
          · exact absurd rfl hpresent
          · next hother =>
              obtain ⟨n, hn, hpath⟩ := hlisted.complete more fun hnone => hpresent (by rw [hnone]; rfl)
              rcases List.mem_cons.mp hn with rfl | hn
              · rw [hpath, ← List.append_assoc] at hother
                exact absurd rfl hother
              · exact ⟨n, hn, hpath⟩
      obtain ⟨fs', hremoved, hgone, hkept'⟩ := ih (hreal'.trans hreal) (hvisited ▸ hroute) hlisted' hsorted
      refine ⟨fs', ?_, hgone, hkept.trans hkept'⟩
      rw [removeNodes, if_pos hmatches, hremove]
      exact hremoved

/-! ### The plan -/

/-- Where a candidate is. -/
def RetentionPlan.locationOf (plan : RetentionPlan) (candidate : RetentionCandidate) :
    Option (List String) :=
  (plan.classRoots candidate.managedClass).map fun classRoot =>
    classRoot.realPath ++ [candidate.entryName]

/-- A candidate of a class root in the workspace. -/
structure PlannedIn (fs : FileSystem) (cutoffMs : ManagedStyrirClass → ℚ)
    (workspace classRoot : RootSnapshot) (candidate : RetentionCandidate) : Prop where
  path : classRoot.path = workspace.path ++ [candidate.managedClass.text]
  realPath : classRoot.realPath = workspace.realPath ++ [candidate.managedClass.text]
  inspected : Inspected fs classRoot.realPath (cutoffMs candidate.managedClass)
    [candidate.entryName] candidate.nodes

variable {slash : Bool} {workspace : RootSnapshot} {cutoffs : ManagedStyrirClass → ℚ}
  {managedClass : ManagedStyrirClass}

theorem existingRoot_eq_ok (h : existingRoot fs path slash = .ok (some classRoot)) :
    classRoot.path = path ∧ fs.realpath path = some classRoot.realPath := by
  rw [existingRoot] at h
  cases hstat : lstatRoot fs path slash with
  | none =>
      rw [hstat] at h
      cases h
  | some e =>
      rw [hstat] at h
      cases hkind : e.kind with
      | file => simp [hkind] at h
      | symlink absolute target => simp [hkind] at h
      | other => simp [hkind] at h
      | directory =>
          dsimp only at h
          rw [hkind] at h
          cases hreal : fs.realpath path with
          | none =>
              rw [hreal] at h
              cases h
          | some realPath =>
              rw [hreal] at h
              obtain rfl := Option.some.inj (Except.ok.inj h)
              exact ⟨rfl, rfl⟩

theorem planEntries_planned {names : List String} {plan : ClassPlan} {cutoffMs : ℚ}
    (hreal : fs.realpath classRoot.path = some classRoot.realPath)
    (h : ∀ c ∈ plan.candidates, c.managedClass = managedClass ∧
      Inspected fs classRoot.realPath cutoffMs [c.entryName] c.nodes) :
    (names.foldl (planEntry fs classRoot managedClass cutoffMs) plan).root = plan.root ∧
      ∀ c ∈ (names.foldl (planEntry fs classRoot managedClass cutoffMs) plan).candidates,
        c.managedClass = managedClass ∧
          Inspected fs classRoot.realPath cutoffMs [c.entryName] c.nodes := by
  induction names generalizing plan with
  | nil => exact ⟨rfl, h⟩
  | cons name names ih =>
      rw [List.foldl_cons]
      have hroot : (planEntry fs classRoot managedClass cutoffMs plan name).root = plan.root := by
        rw [planEntry]
        split
        · rfl
        · rfl
      rw [← hroot]
      refine ih ?_
      rw [planEntry]
      split
      · exact h
      · next hreason =>
          intro c hc
          rcases List.mem_append.mp hc with hc | hc
          · exact h c hc
          · obtain rfl := List.mem_singleton.mp hc
            exact ⟨rfl, inspected_of_reason hreal hreason⟩

theorem planClass_planned {plan : ClassPlan}
    (h : planClass fs workspace cutoffs managedClass = .ok (some plan)) :
    ∀ c ∈ plan.candidates, c.managedClass = managedClass ∧
      PlannedIn fs cutoffs workspace plan.root c := by
  rw [planClass] at h
  cases hroot : existingRoot fs (workspace.path ++ [managedClass.text]) false with
  | error e =>
      rw [hroot] at h
      cases h
  | ok found =>
      cases found with
      | none =>
          rw [hroot] at h
          cases h
      | some classRoot =>
          rw [hroot] at h
          dsimp only at h
          obtain ⟨hpath, hreal⟩ := existingRoot_eq_ok hroot
          rw [← hpath] at hreal
          split at h
          · cases h
          · next hinside =>
              obtain ⟨hparent, hname⟩ := not_or.mp hinside
              have hsplit : classRoot.realPath = workspace.realPath ++ [managedClass.text] := by
                rw [← not_not.mp hparent]
                exact (List.dropLast_append_getLast? _ (not_not.mp hname)).symm
              cases hentries : fs.readdir classRoot.path with
              | none =>
                  rw [hentries] at h
                  cases h
              | some entries =>
                  rw [hentries] at h
                  obtain rfl := Option.some.inj (Except.ok.inj h)
                  obtain ⟨hsame, hall⟩ := @planEntries_planned fs classRoot managedClass
                    (sortStrings entries) ⟨classRoot, [], []⟩ (cutoffs managedClass) hreal
                    (List.forall_mem_nil _)
                  intro c hc
                  obtain ⟨rfl, hinspected⟩ := hall c hc
                  refine ⟨rfl, ?_⟩
                  rw [hsame]
                  exact ⟨hpath, hsplit, hinspected⟩

theorem ManagedStyrirClass.mem_all (managedClass : ManagedStyrirClass) :
    managedClass ∈ ManagedStyrirClass.all := by
  cases managedClass <;> simp [all]

/-- Every candidate is planned in its class root. -/
theorem planWorkspaceRetention_planned {policy : ManagedStyrirClass → ℚ} {nowMs : ℚ}
    {plan : RetentionPlan} {c : RetentionCandidate}
    (h : planWorkspaceRetention fs path slash policy (some nowMs) = .ok plan)
    (hc : c ∈ plan.candidates) :
    ∃ workspace classRoot, plan.workspace = some workspace ∧ workspace.path = path ∧
      plan.classRoots c.managedClass = some classRoot ∧
      PlannedIn fs (fun managedClass => nowMs - policy managedClass * dayMs) workspace classRoot c := by
  rw [planWorkspaceRetention] at h
  cases hroot : existingRoot fs path slash with
  | error e =>
      rw [hroot] at h
      cases h
  | ok found =>
      rw [hroot] at h
      cases found with
      | none =>
          obtain rfl := Except.ok.inj h
          cases hc
      | some workspace =>
          dsimp only at h
          cases hplans : ManagedStyrirClass.all.mapM (planClass fs workspace fun managedClass =>
              nowMs - policy managedClass * dayMs) with
          | error e =>
              rw [hplans] at h
              cases h
          | ok plans =>
              rw [hplans] at h
              obtain rfl := Except.ok.inj h
              have hall := forall₂_of_mapM_ok hplans
              obtain ⟨p, hp, hcp⟩ := List.mem_flatMap.mp hc
              obtain ⟨found, hfound, rfl⟩ := List.mem_filterMap.mp hp
              obtain ⟨managedClass, -, hplan⟩ := exists_of_forall₂ hall.flip hfound
              obtain ⟨rfl, hplanned⟩ := planClass_planned hplan c hcp
              obtain ⟨found', -, hlookup, hplan'⟩ :=
                lookup_zip_of_forall₂ hall (ManagedStyrirClass.mem_all c.managedClass)
              obtain rfl := Except.ok.inj (hplan'.symm.trans hplan)
              refine ⟨workspace, p.root, rfl, (existingRoot_eq_ok hroot).1, ?_, hplanned⟩
              dsimp only
              rw [hlookup]
              rfl

/-! ### Applying -/

/-- What a removal may do to a file system: a candidate goes as a whole or not at all, what goes is
what was planned, old enough, and on no way that leads through a symlink below the workspace, and
outside of the candidates nothing comes, goes or changes its kind. -/
structure Removes (plan : RetentionPlan) (path : List String) (cutoffMs : ManagedStyrirClass → ℚ)
    (fs₀ fs₁ fs : FileSystem) : Prop where
  whole : ∀ c ∈ plan.candidates, ∃ there, plan.locationOf c = some there ∧
    ((∀ q, there <+: q → fs.stat q = none) ∨ ∀ q, there <+: q → fs.stat q = fs₁.stat q)
  planned : ∀ p e, fs₁.stat p = some e → fs.stat p = none →
    ∃ c ∈ plan.candidates, ∃ there, plan.locationOf c = some there ∧ there <+: p ∧
      ∃ node ∈ c.nodes, ∃ e₀ t, fs₀.stat p = some e₀ ∧ Describes node e₀ ∧ Describes node e ∧
        node.mtimeMs = some t ∧ e₀.mtimeMs = some t ∧ e.mtimeMs = some t ∧
        t < cutoffMs c.managedClass ∧
        fs₁.locate (path ++ c.managedClass.text :: node.relativePath) = some p ∧
        ∀ names, names ≠ [] → names <+: c.managedClass.text :: node.relativePath →
          ∃ d, fs₁.lstat (path ++ names) = some d ∧ (d.kind = .file ∨ d.kind = .directory)
  outside : ∀ q, (∀ c ∈ plan.candidates, ∀ there, plan.locationOf c = some there → ¬ there <+: q) →
    fs.kindAt q = fs₁.kindAt q

theorem kindAt_eq_none : fs.kindAt p = none ↔ fs.stat p = none :=
  Option.map_eq_none_iff

theorem Listed.perm {order : List RetentionNode} (h : Listed fs root path nodes)
    (hperm : order.Perm nodes) : Listed fs root path order where
  present := fun node hnode => h.present node (hperm.mem_iff.mp hnode)
  under := fun node hnode => h.under node (hperm.mem_iff.mp hnode)
  complete := by
    intro more hpresent
    obtain ⟨node, hnode, hpath⟩ := h.complete more hpresent
    exact ⟨node, hperm.mem_iff.mpr hnode, hpath⟩
  nodup := (hperm.map _).nodup_iff.mpr h.nodup

theorem Stamped.congr (h : Stamped fs₀ fs₁ p) (hstat : fs.stat p = fs₁.stat p)
    (hnames : ∀ name, fs.stat (p ++ [name]) = fs₁.stat (p ++ [name])) : Stamped fs₀ fs p := by
  intro e₀ e he₀ he hkind₀ hkind hdev hino htime name hmem
  rw [hstat] at he
  rw [mem_names, hnames, ← mem_names] at hmem
  exact h e₀ e he₀ he hkind₀ hkind hdev hino htime name hmem

/-- What is there below a directory that a path leads to is on no way through a symlink. -/
theorem lstat_of_prefix {here more names : List String} (hreal : fs.realpath path = some here)
    (he : fs.stat (here ++ more) = some e) (hkind : e.kind = .file ∨ e.kind = .directory)
    (hne : names ≠ []) (hpre : names <+: more) :
    ∃ d, fs.lstat (path ++ names) = some d ∧ (d.kind = .file ∨ d.kind = .directory) := by
  have hpresent : fs.stat (here ++ more) ≠ none := by
    rw [he]
    exact Option.some_ne_none e
  have hd : ∃ d, fs.stat (here ++ names) = some d ∧ (d.kind = .file ∨ d.kind = .directory) := by
    by_cases hall : names = more
    · rw [hall]
      exact ⟨e, he, hkind⟩
    · have hdir := kindAt_of_prefix ((List.prefix_append_right_inj here).mpr hpre)
        (fun heq => hall (List.append_cancel_left heq)) hpresent
      obtain ⟨d, hd, hdkind⟩ := Option.map_eq_some_iff.mp hdir
      exact ⟨d, hd, .inr hdkind⟩
  obtain ⟨d, hd, hdkind⟩ := hd
  refine ⟨d, ?_, hdkind⟩
  have hsplit := List.dropLast_append_getLast hne
  rw [← hsplit, ← List.append_assoc] at hd
  rw [lstat, ← hsplit, ← List.append_assoc,
    locate_append (fun hnone => Option.some_ne_none d (hd.symm.trans hnone)) hreal, Option.bind_some, hd]

section
variable {plan : RetentionPlan} {c : RetentionCandidate} (host : RemovalHost)
  (hall : ∀ c ∈ plan.candidates, ∃ classRoot, plan.classRoots c.managedClass = some classRoot ∧
    PlannedIn fs₀ cutoffs workspace classRoot c)
  (hreal : fs₁.realpath workspace.path = some workspace.realPath)
  (hroute : ∀ c ∈ plan.candidates, ∀ there, plan.locationOf c = some there →
    ∀ q ∈ fs₁.visited workspace.path, ¬ there <+: q)
  (hstamped : ∀ p, Stamped fs₀ fs₁ p)
include hall hreal hroute hstamped

/-- A candidate that matches goes as a whole. -/
theorem removes_removeCandidate (h : Removes plan workspace.path cutoffs fs₀ fs₁ fs)
    (hc : c ∈ plan.candidates) (hclass : plan.classRoots c.managedClass = some classRoot)
    (hmatches : candidateMatches fs classRoot c = true) :
    ∃ fs', removeCandidate host fs classRoot c = (fs', none) ∧
      Removes plan workspace.path cutoffs fs₀ fs₁ fs' := by
  obtain ⟨classRoot', hclass', hplanned⟩ := hall c hc
  obtain rfl := Option.some.inj (hclass'.symm.trans hclass)
  have hlocation : plan.locationOf c = some (classRoot'.realPath ++ [c.entryName]) := by
    rw [RetentionPlan.locationOf, hclass, Option.map_some]
  obtain ⟨head, hhead, hheadPath⟩ := hplanned.inspected.head
  obtain ⟨d, hd, -⟩ := stat_of_nodeMatches (List.all_eq_true.mp hmatches head hhead)
  rw [hheadPath] at hd
  -- what matches has not been removed before
  have hsame : ∀ q, classRoot'.realPath ++ [c.entryName] <+: q → fs.stat q = fs₁.stat q := by
    obtain ⟨there, hthere, hgone | hsame⟩ := h.whole c hc
    · obtain rfl := Option.some.inj (hthere.symm.trans hlocation)
      exact absurd (hgone _ (List.prefix_refl _)) fun hnone =>
        Option.some_ne_none d (hd.symm.trans hnone)
    · obtain rfl := Option.some.inj (hthere.symm.trans hlocation)
      exact hsame
  have hlisted := listed_of_candidateMatches hplanned.inspected
    (fun more => (hstamped _).congr (hsame _ (List.prefix_append _ _))
      fun name => hsame _ ((List.prefix_append _ _).trans (List.prefix_append _ _))) hmatches
  have hsameWay : ∀ q ∈ fs₁.visited workspace.path, fs.kindAt q = fs₁.kindAt q :=
    fun q hq => h.outside q fun c hc there hthere => hroute c hc there hthere q hq
  obtain ⟨hrealNow, hvisited⟩ := realpath_congr hsameWay
  rw [hreal] at hrealNow
  have hroot : fs.kindAt (workspace.realPath ++ [c.managedClass.text]) = some .directory := by
    rw [← hplanned.realPath]
    refine kindAt_of_prefix (List.prefix_append _ [c.entryName]) ?_ ?_
    · exact fun heq => List.cons_ne_nil c.entryName [] (List.self_eq_append_right.mp heq)
    · rw [hd]
      exact Option.some_ne_none d
  obtain ⟨hclassReal, hclassVisited⟩ := realpath_concat hroot hrealNow
  rw [← hplanned.path, ← hplanned.realPath] at hclassReal
  rw [← hplanned.path, ← hplanned.realPath, hvisited] at hclassVisited
  have hroute' : ∀ q ∈ fs.visited classRoot'.path, ¬ classRoot'.realPath ++ [c.entryName] <+: q := by
    intro q hq
    rw [hclassVisited] at hq
    rcases List.mem_append.mp hq with hq | hq
    · exact hroute c hc _ hlocation q hq
    · rw [List.mem_singleton.mp hq]
      intro hpre
      have := hpre.length_le
      rw [List.length_append, List.length_singleton] at this
      omega
  obtain ⟨fs', hremoved, hgone, hkept⟩ := removeNodes_removes host hclassReal hroute'
    (hlisted.perm (List.perm_insertionSort _ _)) (pairwise_removalOrder host.localeLe)
  refine ⟨fs', hremoved, ?_, ?_, ?_⟩
  · intro c' hc'
    obtain ⟨classRoot, hclassRoot, hplanned'⟩ := hall c' hc'
    obtain ⟨there, hthere, hwhole⟩ := h.whole c' hc'
    refine ⟨there, hthere, ?_⟩
    have hat : there = classRoot.realPath ++ [c'.entryName] := by
      rw [RetentionPlan.locationOf, hclassRoot, Option.map_some] at hthere
      exact (Option.some.inj hthere).symm
    by_cases hthis : there = classRoot'.realPath ++ [c.entryName]
    · rw [hthis]
      exact .inl hgone
    · have hlength : there.length = (classRoot'.realPath ++ [c.entryName]).length := by
        rw [hat, hplanned.realPath, hplanned'.realPath]
        simp
      have hother : ∀ q, there <+: q → fs'.stat q = fs.stat q := by
        intro q hq
        refine hkept.stat q (fun hq' => hthis ?_) ?_
        · exact (List.prefix_of_prefix_length_le hq hq' hlength.le).eq_of_length hlength
        · rintro rfl
          have := hq.length_le
          rw [hlength, List.length_append, List.length_singleton] at this
          omega
      exact hwhole.imp (fun hnone q hq => (hother q hq).trans (hnone q hq))
        fun hsame q hq => (hother q hq).trans (hsame q hq)
  · intro p e he hnone
    by_cases hbefore : fs.stat p = none
    · exact h.planned p e he hbefore
    · have hunder : classRoot'.realPath ++ [c.entryName] <+: p := by
        by_contra hnot
        have hkind := hkept.kindAt p hnot
        rw [kindAt_eq_none.mpr hnone, eq_comm, kindAt_eq_none] at hkind
        exact hbefore hkind
      refine ⟨c, hc, _, hlocation, hunder, ?_⟩
      obtain ⟨more, rfl⟩ := hunder
      obtain ⟨node, hnode, hpath⟩ := hlisted.complete more hbefore
      obtain ⟨e', he', hdescribes, htime⟩ :=
        stat_of_nodeMatches (List.all_eq_true.mp hmatches node hnode)
      obtain ⟨e₀, t, he₀, htime₀, hnodeTime, hold⟩ := hplanned.inspected.old node hnode
      obtain ⟨e₀', he₀', hdescribes₀⟩ := hplanned.inspected.present node hnode
      obtain rfl := Option.some.inj (he₀.symm.trans he₀')
      have hplace : classRoot'.realPath ++ node.relativePath =
          classRoot'.realPath ++ [c.entryName] ++ more := by
        rw [hpath, List.append_assoc]
      rw [hplace] at he' he₀
      obtain rfl := Option.some.inj (he.symm.trans ((hsame _ (List.prefix_append _ _)).symm.trans he'))
      have hbelow : classRoot'.realPath ++ [c.entryName] ++ more =
          workspace.realPath ++ (c.managedClass.text :: node.relativePath) := by
        rw [← hplace, hplanned.realPath, List.append_assoc, List.singleton_append]
      have hsplit := List.dropLast_append_getLast (List.cons_ne_nil c.managedClass.text node.relativePath)
      refine ⟨node, hnode, e₀, t, he₀, hdescribes₀, hdescribes, hnodeTime, htime₀,
        (htime rfl).trans hnodeTime, hold, ?_, ?_⟩
      · rw [hbelow] at he ⊢
        rw [← hsplit, ← List.append_assoc] at he ⊢
        rw [← List.append_assoc]
        exact locate_append (fun hnone => Option.some_ne_none _ (he.symm.trans hnone)) hreal
      · intro names hne hpre
        rw [hbelow] at he
        refine lstat_of_prefix hreal he ?_ hne hpre
        rw [hdescribes.kind]
        cases node.kind with
        | file => exact .inl rfl
        | directory => exact .inr rfl
  · intro q hq
    exact (hkept.kindAt q (hq c hc _ hlocation)).trans (h.outside q hq)

variable {s : FileSystem × RetentionApplyResult}

theorem removes_applyCandidate
    (h : Removes plan workspace.path cutoffs fs₀ fs₁ s.1) (hc : c ∈ plan.candidates) :
    Removes plan workspace.path cutoffs fs₀ fs₁ (applyCandidate host plan workspace s c).1 := by
  obtain ⟨fs, result⟩ := s
  rw [applyCandidate]
  cases hclass : plan.classRoots c.managedClass with
  | none => exact h
  | some classRoot =>
      dsimp only
      split
      · exact h
      · split
        · exact h
        · next hmatches =>
            obtain ⟨fs', hremoved, hremoves⟩ := removes_removeCandidate host hall hreal hroute
              hstamped h hc hclass (by simpa using hmatches)
            rw [hremoved]
            exact hremoves

/-- So it is for all of them, one after the other. -/
theorem removes_applyCandidates {candidates : List RetentionCandidate}
    (hcandidates : candidates ⊆ plan.candidates)
    (h : Removes plan workspace.path cutoffs fs₀ fs₁ s.1) :
    Removes plan workspace.path cutoffs fs₀ fs₁
      (candidates.foldl (applyCandidate host plan workspace) s).1 := by
  induction candidates generalizing s with
  | nil => exact h
  | cons c candidates ih =>
      obtain ⟨hc, hcandidates⟩ := List.cons_subset.mp hcandidates
      exact ih hcandidates (removes_applyCandidate host hall hreal hroute hstamped h hc)

end

theorem realpath_of_rootMatches (h : rootMatches fs classRoot = true) :
    fs.realpath classRoot.path = some classRoot.realPath := by
  rw [rootMatches] at h
  split at h
  · cases h
  · rw [Bool.and_eq_true, decide_eq_true_eq] at h
    exact h.2

/-- A candidate is removed entirely or not at all. -/
theorem applyWorkspaceRetention_sound {policy : ManagedStyrirClass → ℚ} {nowMs : ℚ}
    {plan : RetentionPlan} (host : RemovalHost)
    (hplan : planWorkspaceRetention fs₀ path slash policy (some nowMs) = .ok plan)
    (hstamped : ∀ p, Stamped fs₀ fs₁ p)
    (hroute : ∀ c ∈ plan.candidates, ∀ there, plan.locationOf c = some there →
      ∀ q ∈ fs₁.visited path, ¬ there <+: q) :
    Removes plan path (fun managedClass => nowMs - policy managedClass * dayMs) fs₀ fs₁
      (applyWorkspaceRetention host fs₁ plan).1 := by
  have hnothing : Removes plan path (fun managedClass => nowMs - policy managedClass * dayMs)
      fs₀ fs₁ fs₁ := by
    refine ⟨fun c hc => ?_, fun p e he hnone => ?_, fun q _ => rfl⟩
    · obtain ⟨workspace, classRoot, -, -, hclass, -⟩ := planWorkspaceRetention_planned hplan hc
      refine ⟨classRoot.realPath ++ [c.entryName], ?_, .inr fun q _ => rfl⟩
      rw [RetentionPlan.locationOf, hclass, Option.map_some]
    · exact absurd (he.symm.trans hnone) (Option.some_ne_none e)
  rw [applyWorkspaceRetention]
  cases hworkspace : plan.workspace with
  | none => exact hnothing
  | some workspace =>
      dsimp only
      split
      · next hmatches =>
          cases hcandidates : plan.candidates with
          | nil => exact hnothing
          | cons first rest =>
              obtain ⟨_, _, hfound, rfl, -, -⟩ := planWorkspaceRetention_planned hplan
                (hcandidates ▸ List.mem_cons_self)
              obtain rfl := Option.some.inj (hfound.symm.trans hworkspace)
              rw [← hcandidates]
              refine removes_applyCandidates host ?_ (realpath_of_rootMatches hmatches) hroute hstamped
                (List.Subset.refl _) hnothing
              intro c hc
              obtain ⟨workspace', classRoot, hworkspace', -, hclass, hplanned⟩ :=
                planWorkspaceRetention_planned hplan hc
              obtain rfl := Option.some.inj (hworkspace'.symm.trans hworkspace)
              exact ⟨classRoot, hclass, hplanned⟩
      · exact hnothing

/-! ### A way that leads through a candidate -/

/-- A symlink leads to what is around the workspace, down into a run and up again. -/
def linkedTree : FileSystem := FileSystem.ofEntries
  [([], ⟨.directory, 1, 1, some 0, true⟩),
    (["link"], ⟨.symlink true ["real", "ws", "runs", "old", "sub", "..", "..", "..", ".."], 1, 2,
      some 0, true⟩),
    (["real"], ⟨.directory, 1, 3, some 0, true⟩),
    (["real", "ws"], ⟨.directory, 1, 4, some 0, true⟩),
    (["real", "ws", "runs"], ⟨.directory, 1, 5, some 0, true⟩),
    (["real", "ws", "runs", "old"], ⟨.directory, 1, 6, some 0, true⟩),
    (["real", "ws", "runs", "old", "sub"], ⟨.directory, 1, 7, some 0, true⟩)]
  (by decide) (by decide)

def linkedHost : RemovalHost := ⟨fun a b => decide (a ≤ b), fun _ => some 172800000⟩

theorem exists_ok {α : Type} {x : Except String α} {P : α → Prop} [DecidablePred P]
    (h : (x.toOption.map fun a => decide (P a)) = some true) : ∃ a, x = .ok a ∧ P a := by
  cases x with
  | error e => cases h
  | ok a => exact ⟨a, rfl, of_decide_eq_true (Option.some.inj h)⟩

theorem Stamped.refl (fs : FileSystem) (p : List String) : Stamped fs fs p :=
  fun _ _ _ _ _ _ _ _ _ _ hmem => hmem

theorem applyWorkspaceRetention_linkedTree : ∃ plan,
    planWorkspaceRetention linkedTree ["real", "ws"] false (fun _ => 1) (some 172800000) = .ok plan ∧
      plan.candidates.map RetentionCandidate.id = ["runs/old"] ∧
        Removes plan ["real", "ws"] (fun _ => 172800000 - 1 * dayMs) linkedTree linkedTree
          (applyWorkspaceRetention linkedHost linkedTree plan).1 := by
  obtain ⟨plan, hplan, hcandidates, hroute⟩ := @exists_ok RetentionPlan
    (planWorkspaceRetention linkedTree ["real", "ws"] false (fun _ => 1) (some 172800000))
    (fun plan => plan.candidates.map RetentionCandidate.id = ["runs/old"] ∧
      ∀ c ∈ plan.candidates, ∀ there ∈ plan.locationOf c,
        ∀ q ∈ linkedTree.visited ["real", "ws"], ¬ there <+: q) inferInstance (by decide +kernel)
  exact ⟨plan, hplan, hcandidates, applyWorkspaceRetention_sound linkedHost hplan
    (Stamped.refl linkedTree) hroute⟩

/-- Where the way to the workspace leads through a candidate, half of it is removed. -/
theorem linkedTree_halfRemoved : ∃ plan,
    planWorkspaceRetention linkedTree ["link", "ws"] false (fun _ => 1) (some 172800000) = .ok plan ∧
      plan.candidates.map RetentionCandidate.id = ["runs/old"] ∧
      (∀ p, Stamped linkedTree linkedTree p) ∧
      linkedTree.kindAt ["real", "ws", "runs", "old", "sub"] = some .directory ∧
      (applyWorkspaceRetention linkedHost linkedTree plan).1.kindAt
        ["real", "ws", "runs", "old", "sub"] = none ∧
      (applyWorkspaceRetention linkedHost linkedTree plan).1.kindAt
        ["real", "ws", "runs", "old"] = some .directory := by
  obtain ⟨plan, hplan, hcandidates, hbefore, hgone, hleft⟩ := @exists_ok RetentionPlan
    (planWorkspaceRetention linkedTree ["link", "ws"] false (fun _ => 1) (some 172800000))
    (fun plan => plan.candidates.map RetentionCandidate.id = ["runs/old"] ∧
      linkedTree.kindAt ["real", "ws", "runs", "old", "sub"] = some .directory ∧
      (applyWorkspaceRetention linkedHost linkedTree plan).1.kindAt
        ["real", "ws", "runs", "old", "sub"] = none ∧
      (applyWorkspaceRetention linkedHost linkedTree plan).1.kindAt
        ["real", "ws", "runs", "old"] = some .directory) inferInstance (by decide +kernel)
  exact ⟨plan, hplan, hcandidates, Stamped.refl linkedTree, hbefore, hgone, hleft⟩

end Runir.Retention
