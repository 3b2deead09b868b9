import Mathlib.Data.List.Induction
import Mathlib.Data.Rat.Defs
import Runir.Lib.OrdMap

/-!
# Library — File systems

Files and directories with their inodes, symlinks, and what the calls of an operating system say of
them.  A location is the list of the names that lead to it from the root, none of them a symlink; a
path may lead through symlinks.

* `walk`: the location a path leads to; `visited`: the locations that are looked at on the way.
* `lstat`, `realpath`, `readdir`, `unlink`, `rmdir`.
* `walk_congr`: what is not visited does not matter.  `walk_concat`: a path goes on into a directory.
* `unlink_eq`, `rmdir_eq`: when a removal succeeds; `stat_removeLeaf`: what it changes.
-/

namespace Runir

inductive FileKind where
  | file
  | directory
  | symlink (absolute : Bool) (target : List String)
  | other
  deriving DecidableEq

/-- What is at a location.  A time is absent where it is no finite number. -/
structure FileEntry where
  kind : FileKind
  dev : Nat
  ino : Nat
  mtimeMs : Option ℚ
  readable : Bool := true
  deriving DecidableEq

/-- Only directories have something in them, under names. -/
structure FileSystem where
  entries : OrdMap (List String) FileEntry
  closed : ∀ p name, entries.get? (p ++ [name]) ≠ none →
    ∃ e, entries.get? p = some e ∧ e.kind = .directory
  named : ∀ p, entries.get? p ≠ none → ".." ∉ p

namespace FileSystem

/-- What is at a location. -/
def stat (fs : FileSystem) (p : List String) : Option FileEntry := fs.entries.get? p

def kindAt (fs : FileSystem) (p : List String) : Option FileKind := (fs.stat p).map FileEntry.kind

/-- The names in a directory. -/
def names (fs : FileSystem) (p : List String) : List String :=
  fs.entries.keys.filterMap fun q => if q.dropLast = p then q.getLast? else none

/-- The file system of these entries. -/
def ofEntries (es : List (List String × FileEntry)) (hnodup : (es.map Prod.fst).Nodup)
    (h : ∀ e ∈ es, ".." ∉ e.1 ∧
      (e.1 = [] ∨ ∃ d ∈ es, d.1 = e.1.dropLast ∧ d.2.kind = .directory)) : FileSystem where
  entries := ⟨es, hnodup⟩
  closed := by
    intro p name hpresent
    obtain ⟨e, he⟩ := Option.ne_none_iff_exists'.mp hpresent
    obtain ⟨-, hroot | ⟨d, hmem, hd, hdir⟩⟩ := h _ (OrdMap.get?_eq_some.mp he)
    · exact absurd hroot (List.append_ne_nil_of_right_ne_nil p (List.cons_ne_nil name []))
    · refine ⟨d.2, OrdMap.get?_eq_some.mpr ?_, hdir⟩
      rw [List.dropLast_concat] at hd
      rw [← hd]
      exact hmem
  named := by
    intro p hpresent
    obtain ⟨e, he⟩ := Option.ne_none_iff_exists'.mp hpresent
    exact (h _ (OrdMap.get?_eq_some.mp he)).1

/-! ### Paths -/

/-- Where names lead from a location, going on with `follow` after a symlink. -/
def walkWith (fs : FileSystem) (follow : List String → List String → Option (List String))
    (here : List String) : List String → Option (List String)
  | [] => some here
  | name :: rest =>
      if name = ".." then fs.walkWith follow here.dropLast rest
      else
        match fs.kindAt (here ++ [name]) with
        | none => none
        | some .directory => fs.walkWith follow (here ++ [name]) rest
        | some (.symlink absolute target) => follow (if absolute then [] else here) (target ++ rest)
        | some _ => if rest = [] then some (here ++ [name]) else none

/-- Where names lead, over at most so many symlinks. -/
def walk (fs : FileSystem) : Nat → List String → List String → Option (List String)
  | 0 => fs.walkWith fun _ _ => none
  | n + 1 => fs.walkWith (fs.walk n)

/-- The locations that are looked at on the way. -/
def visitedWith (fs : FileSystem) (follow : List String → List String → List (List String))
    (here : List String) : List String → List (List String)
  | [] => []
  | name :: rest =>
      if name = ".." then fs.visitedWith follow here.dropLast rest
      else
        (here ++ [name]) ::
          match fs.kindAt (here ++ [name]) with
          | some .directory => fs.visitedWith follow (here ++ [name]) rest
          | some (.symlink absolute target) => follow (if absolute then [] else here) (target ++ rest)
          | _ => []

def visitedFrom (fs : FileSystem) : Nat → List String → List String → List (List String)
  | 0 => fs.visitedWith fun _ _ => []
  | n + 1 => fs.visitedWith (fs.visitedFrom n)

/-- `ELOOP` is reported after so many symlinks. -/
def maxSymlinks : Nat := 40

def realpath (fs : FileSystem) (path : List String) : Option (List String) :=
  fs.walk maxSymlinks [] path

def visited (fs : FileSystem) (path : List String) : List (List String) :=
  fs.visitedFrom maxSymlinks [] path

/-- The location of a path whose last name is not followed. -/
def locate (fs : FileSystem) (path : List String) : Option (List String) :=
  match path.getLast? with
  | none => some []
  | some name => (fs.realpath path.dropLast).map fun p => p ++ [name]

def lstat (fs : FileSystem) (path : List String) : Option FileEntry :=
  (fs.locate path).bind fs.stat

/-- What is at the end of a path, symlinks followed. -/
def followStat (fs : FileSystem) (path : List String) : Option FileEntry :=
  (fs.realpath path).bind fs.stat

def readdir (fs : FileSystem) (path : List String) : Option (List String) :=
  match fs.realpath path with
  | none => none
  | some p =>
      match fs.stat p with
      | some e => if e.kind = .directory ∧ e.readable = true then some (fs.names p) else none
      | none => none

/-! ### Names -/

variable {fs fs' : FileSystem} {p q : List String} {name : String}

theorem mem_names : name ∈ fs.names p ↔ fs.stat (p ++ [name]) ≠ none := by
  have hkeys : fs.stat (p ++ [name]) ≠ none ↔ p ++ [name] ∈ fs.entries.keys := by
    rw [stat, ne_eq, OrdMap.get?_eq_none, not_not]
  rw [hkeys, names, List.mem_filterMap]
  constructor
  · rintro ⟨q, hq, hname⟩
    split at hname
    · next hdrop =>
        rw [← hdrop, List.dropLast_append_getLast? name hname]
        exact hq
    · cases hname
  · intro hmem
    exact ⟨p ++ [name], hmem, by simp⟩

theorem nodup_names : (fs.names p).Nodup := by
  refine List.Nodup.filterMap ?_ fs.entries.keys_nodup
  intro q q' a ha ha'
  simp only [Option.mem_def] at ha ha'
  split at ha
  · next hq =>
      split at ha'
      · next hq' =>
          rw [← List.dropLast_append_getLast? a ha, ← List.dropLast_append_getLast? a ha', hq, hq']
      · cases ha'
  · cases ha

/-- What is in a directory, however deep, is under directories. -/
theorem kindAt_of_prefix (hpq : p <+: q) (hne : p ≠ q) (hq : fs.stat q ≠ none) :
    fs.kindAt p = some .directory := by
  obtain ⟨rest, rfl⟩ := hpq
  induction rest using List.reverseRecOn with
  | nil => exact absurd (List.append_nil p).symm hne
  | append_singleton rest name ih =>
      rw [← List.append_assoc] at hq
      obtain ⟨e, he, hdir⟩ := fs.closed _ name hq
      by_cases hrest : rest = []
      · subst hrest
        rw [List.append_nil] at he
        rw [kindAt, stat, he, Option.map_some, hdir]
      · have hpresent : fs.stat (p ++ rest) ≠ none := by
          rw [stat, he]
          exact Option.some_ne_none e
        refine ih (fun heq => hrest ?_) hpresent
        exact List.self_eq_append_right.mp heq

/-! ### Removing -/

/-- The file system without something that has nothing in it, its directory touched. -/
def removeLeaf (fs : FileSystem) (stamp : Option ℚ) (p : List String) (h : fs.names p = []) :
    FileSystem where
  entries := (fs.entries.mapEntries fun q e =>
    if q = p.dropLast then { e with mtimeMs := stamp } else e).erase p
  closed := by
    intro q name hpresent
    rw [OrdMap.get?_erase, OrdMap.get?_mapEntries] at hpresent
    rw [OrdMap.get?_erase, OrdMap.get?_mapEntries]
    split at hpresent
    · exact absurd rfl hpresent
    · have hold : fs.entries.get? (q ++ [name]) ≠ none := fun hnone => hpresent (by rw [hnone]; rfl)
      obtain ⟨e, he, hdir⟩ := fs.closed q name hold
      have hne : q ≠ p := by
        rintro rfl
        have hmem := mem_names.mpr hold
        rw [h] at hmem
        cases hmem
      rw [if_neg hne, he]
      refine ⟨_, rfl, ?_⟩
      split
      · exact hdir
      · exact hdir
  named := by
    intro q hpresent
    rw [OrdMap.get?_erase, OrdMap.get?_mapEntries] at hpresent
    split at hpresent
    · exact absurd rfl hpresent
    · exact fs.named q fun hnone => hpresent (by rw [hnone]; rfl)

variable {stamp : Option ℚ}

theorem stat_removeLeaf (h : fs.names p = []) :
    (fs.removeLeaf stamp p h).stat q = if q = p then none else
      (fs.stat q).map fun e => if q = p.dropLast then { e with mtimeMs := stamp } else e := by
  rw [stat, removeLeaf, OrdMap.get?_erase, OrdMap.get?_mapEntries]
  rfl

/-- `unlink`, at the time `stamp`. -/
def unlink (fs : FileSystem) (stamp : Option ℚ) (path : List String) : Option FileSystem :=
  match fs.locate path with
  | none => none
  | some p =>
      if h : fs.names p = [] then
        if fs.stat p = none ∨ fs.kindAt p = some .directory then none
        else some (fs.removeLeaf stamp p h)
      else none

/-- `rmdir`, at the time `stamp`. -/
def rmdir (fs : FileSystem) (stamp : Option ℚ) (path : List String) : Option FileSystem :=
  match fs.locate path with
  | none => none
  | some p =>
      if h : fs.names p = [] then
        if fs.kindAt p = some .directory then some (fs.removeLeaf stamp p h) else none
      else none

theorem names_eq_nil_of_kindAt (h : fs.kindAt p ≠ some .directory) : fs.names p = [] := by
  refine List.eq_nil_iff_forall_not_mem.mpr fun name hmem => h ?_
  obtain ⟨e, he, hdir⟩ := fs.closed p name (mem_names.mp hmem)
  rw [kindAt, stat, he, Option.map_some, hdir]

variable {path : List String}

/-- A file is unlinked. -/
theorem unlink_eq (hlocate : fs.locate path = some p)
    (hstat : fs.stat p ≠ none) (hkind : fs.kindAt p ≠ some .directory) :
    fs.unlink stamp path = some (fs.removeLeaf stamp p (names_eq_nil_of_kindAt hkind)) := by
  rw [unlink, hlocate]
  dsimp only
  rw [dif_pos (names_eq_nil_of_kindAt hkind), if_neg]
  rintro (hnone | hdir)
  · exact hstat hnone
  · exact hkind hdir

/-- An empty directory is removed. -/
theorem rmdir_eq (hlocate : fs.locate path = some p)
    (hempty : fs.names p = []) (hkind : fs.kindAt p = some .directory) :
    fs.rmdir stamp path = some (fs.removeLeaf stamp p hempty) := by
  rw [rmdir, hlocate]
  dsimp only
  rw [dif_pos hempty, if_pos hkind]

/-! ### Walking -/

section
variable {follow follow' : List String → List String → Option (List String)}
  {via via' : List String → List String → List (List String)} {here names : List String} {n : Nat}

theorem walkWith_congr
    (hfollow : ∀ here names, (∀ q ∈ via here names, fs'.kindAt q = fs.kindAt q) →
      follow' here names = follow here names ∧ via' here names = via here names)
    (h : ∀ q ∈ fs.visitedWith via here names, fs'.kindAt q = fs.kindAt q) :
    fs'.walkWith follow' here names = fs.walkWith follow here names ∧
      fs'.visitedWith via' here names = fs.visitedWith via here names := by
  induction names generalizing here with
  | nil => exact ⟨rfl, rfl⟩
  | cons name rest ih =>
      rw [visitedWith] at h
      by_cases hup : name = ".."
      · rw [if_pos hup] at h
        obtain ⟨hwalk, hvisited⟩ := ih h
        rw [walkWith, walkWith, visitedWith, visitedWith, if_pos hup, if_pos hup, if_pos hup, if_pos hup]
        exact ⟨hwalk, hvisited⟩
      · rw [if_neg hup] at h
        obtain ⟨hhere, hrest⟩ := List.forall_mem_cons.mp h
        rw [walkWith, walkWith, visitedWith, visitedWith, if_neg hup, if_neg hup, if_neg hup,
          if_neg hup, hhere]
        cases hkind : fs.kindAt (here ++ [name]) with
        | none => exact ⟨rfl, rfl⟩
        | some kind =>
            rw [hkind] at hrest
            cases kind with
            | file => exact ⟨rfl, rfl⟩
            | other => exact ⟨rfl, rfl⟩
            | directory =>
                obtain ⟨hwalk, hvisited⟩ := ih hrest
                exact ⟨hwalk, congrArg _ hvisited⟩
            | symlink absolute target =>
                obtain ⟨hwalk, hvisited⟩ := hfollow _ _ hrest
                exact ⟨hwalk, congrArg _ hvisited⟩

theorem walk_congr (h : ∀ q ∈ fs.visitedFrom n here names, fs'.kindAt q = fs.kindAt q) :
    fs'.walk n here names = fs.walk n here names ∧
      fs'.visitedFrom n here names = fs.visitedFrom n here names := by
  induction n generalizing here names with
  | zero => exact walkWith_congr (fun _ _ _ => ⟨rfl, rfl⟩) h
  | succ n ih => exact walkWith_congr (fun _ _ hvia => ih hvia) h

theorem walkWith_concat (hname : name ≠ "..") (hkind : fs.kindAt (p ++ [name]) = some .directory)
    (hfollow : ∀ here names, follow here names = some p →
      follow here (names ++ [name]) = some (p ++ [name]) ∧
        via here (names ++ [name]) = via here names ++ [p ++ [name]])
    (h : fs.walkWith follow here names = some p) :
    fs.walkWith follow here (names ++ [name]) = some (p ++ [name]) ∧
      fs.visitedWith via here (names ++ [name]) = fs.visitedWith via here names ++ [p ++ [name]] := by
  induction names generalizing here with
  | nil =>
      obtain rfl := Option.some.inj h
      simp only [List.nil_append, walkWith, visitedWith, if_neg hname, hkind, and_self]
  | cons first rest ih =>
      rw [walkWith] at h
      rw [List.cons_append, walkWith, visitedWith, visitedWith]
      by_cases hup : first = ".."
      · rw [if_pos hup] at h
        rw [if_pos hup, if_pos hup, if_pos hup]
        exact ih h
      · rw [if_neg hup] at h
        rw [if_neg hup, if_neg hup, if_neg hup]
        cases hfirst : fs.kindAt (here ++ [first]) with
        | none =>
            rw [hfirst] at h
            cases h
        | some kind =>
            rw [hfirst] at h
            have hleaf : kind ≠ .directory → rest = [] ∧ p = here ++ [first] → False := by
              rintro hnot ⟨-, rfl⟩
              obtain ⟨e, he, hdir⟩ := fs.closed (here ++ [first]) name fun hnone => by
                rw [kindAt, stat, hnone] at hkind
                cases hkind
              rw [kindAt, stat, he] at hfirst
              exact hnot (Option.some.inj (hfirst.symm.trans (congrArg some hdir)))
            cases kind with
            | file =>
                dsimp only at h
                split at h
                · next hrest => exact (hleaf (by decide) ⟨hrest, (Option.some.inj h).symm⟩).elim
                · cases h
            | other =>
                dsimp only at h
                split at h
                · next hrest => exact (hleaf (by decide) ⟨hrest, (Option.some.inj h).symm⟩).elim
                · cases h
            | directory =>
                obtain ⟨hwalk, hvisited⟩ := ih h
                exact ⟨hwalk, congrArg _ hvisited⟩
            | symlink absolute target =>
                obtain ⟨hwalk, hvisited⟩ := hfollow _ _ h
                rw [List.append_assoc] at hwalk hvisited
                exact ⟨hwalk, congrArg _ hvisited⟩

theorem walk_concat (hname : name ≠ "..") (hkind : fs.kindAt (p ++ [name]) = some .directory)
    (h : fs.walk n here names = some p) :
    fs.walk n here (names ++ [name]) = some (p ++ [name]) ∧
      fs.visitedFrom n here (names ++ [name]) = fs.visitedFrom n here names ++ [p ++ [name]] := by
  induction n generalizing here names with
  | zero =>
      exact @walkWith_concat fs p name _ (fun _ _ => []) here names hname hkind
        (fun _ _ hnone => nomatch hnone) h
  | succ n ih => exact walkWith_concat hname hkind (fun _ _ hfollow => ih hfollow) h

end

/-- What is not visited does not matter. -/
theorem realpath_congr (h : ∀ q ∈ fs.visited path, fs'.kindAt q = fs.kindAt q) :
    fs'.realpath path = fs.realpath path ∧ fs'.visited path = fs.visited path := walk_congr h

/-- A path goes on into a directory. -/
theorem realpath_concat (hkind : fs.kindAt (p ++ [name]) = some .directory)
    (h : fs.realpath path = some p) :
    fs.realpath (path ++ [name]) = some (p ++ [name]) ∧
      fs.visited (path ++ [name]) = fs.visited path ++ [p ++ [name]] := by
  have hname : name ≠ ".." := by
    rintro rfl
    refine fs.named (p ++ [".."]) (fun hnone => ?_) (List.mem_append_right p (List.mem_singleton_self _))
    rw [kindAt, stat, hnone] at hkind
    cases hkind
  exact walk_concat hname hkind h

theorem locate_concat (h : fs.realpath path = some p) :
    fs.locate (path ++ [name]) = some (p ++ [name]) := by
  rw [locate, List.getLast?_concat, List.dropLast_concat, h]
  rfl

/-- A path goes on through the directories to what is there. -/
theorem realpath_append {path more : List String} (hpresent : fs.stat (p ++ more ++ [name]) ≠ none)
    (h : fs.realpath path = some p) : fs.realpath (path ++ more) = some (p ++ more) := by
  induction more using List.reverseRecOn generalizing name with
  | nil =>
      rw [List.append_nil, List.append_nil]
      exact h
  | append_singleton more next ih =>
      obtain ⟨e, he, hdir⟩ := fs.closed _ name hpresent
      rw [← List.append_assoc] at he
      have hnext : fs.stat (p ++ more ++ [next]) ≠ none := by
        rw [stat, he]
        exact Option.some_ne_none e
      rw [← List.append_assoc, ← List.append_assoc]
      refine (realpath_concat ?_ (ih hnext)).1
      rw [kindAt, stat, he, Option.map_some, hdir]

theorem locate_append {path more : List String} (hpresent : fs.stat (p ++ more ++ [name]) ≠ none)
    (h : fs.realpath path = some p) :
    fs.locate (path ++ more ++ [name]) = some (p ++ more ++ [name]) :=
  locate_concat (realpath_append hpresent h)

end FileSystem

end Runir
