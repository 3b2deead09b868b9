import Runir.Lib.CodeUnits
import Runir.Lib.FileSystems

/-!
# Maintenance — Workspace retention

`src/shared/styrir-workspace-retention.ts` and `src/shared/styrir-workspace-delete.ts`: what is old
enough in the managed directories of a workspace is planned for removal, and removed where it has
not changed since.

* `planWorkspaceRetention`: the candidates, each with all that is in it.
* `applyWorkspaceRetention`: they are compared with what is there, and removed.

An absolute path is the list of its names; whether a slash follows them decides if a symlink at its
end is followed.  The call that sorts by locale is a parameter, as are the times of removals.
-/

namespace Runir.Retention

inductive ManagedStyrirClass where
  | runs | logs | cache | tmp
  deriving DecidableEq

namespace ManagedStyrirClass

def text : ManagedStyrirClass → String
  | runs => "runs"
  | logs => "logs"
  | cache => "cache"
  | tmp => "tmp"

/-- `MANAGED_STYRIR_CLASSES`. -/
def all : List ManagedStyrirClass := [runs, logs, cache, tmp]

end ManagedStyrirClass

inductive NodeKind where
  | file | directory
  deriving DecidableEq

def NodeKind.fileKind : NodeKind → FileKind
  | file => .file
  | directory => .directory

structure RetentionNode where
  relativePath : List String
  kind : NodeKind
  dev : Nat
  ino : Nat
  mtimeMs : Option ℚ
  deriving DecidableEq

structure RootSnapshot where
  path : List String
  slash : Bool
  realPath : List String
  dev : Nat
  ino : Nat
  deriving DecidableEq

structure RetentionCandidate where
  id : String
  managedClass : ManagedStyrirClass
  entryName : String
  nodes : List RetentionNode
  deriving DecidableEq

inductive RetentionReason where
  | invalidTimestamp | newerThanCutoff | readError | symlink | unsupportedType
  deriving DecidableEq

def RetentionReason.text : RetentionReason → String
  | invalidTimestamp => "invalid_timestamp"
  | newerThanCutoff => "newer_than_cutoff"
  | readError => "read_error"
  | symlink => "symlink"
  | unsupportedType => "unsupported_type"

structure RetentionPlan where
  workspace : Option RootSnapshot
  classRoots : ManagedStyrirClass → Option RootSnapshot
  candidates : List RetentionCandidate
  retained : List (String × RetentionReason)

/-! ### Planning -/

def dayMs : ℚ := 86400000

def pathText (path : List String) (slash : Bool) : String :=
  "/" ++ Text.join "/" path ++ if slash && !path.isEmpty then "/" else ""

/-- `lstat`, which follows a path that ends in a slash. -/
def lstatRoot (fs : FileSystem) (path : List String) (slash : Bool) : Option FileEntry :=
  if slash then fs.followStat path else fs.lstat path

def existingRoot (fs : FileSystem) (path : List String) (slash : Bool) :
    Except String (Option RootSnapshot) :=
  match lstatRoot fs path slash with
  | none => .ok none
  | some stats =>
      match stats.kind with
      | .symlink _ _ => .error ("managed root is a symlink: " ++ pathText path slash)
      | .directory =>
          match fs.realpath path with
          | none => .error "ELOOP"
          | some realPath => .ok (some ⟨path, slash, realPath, stats.dev, stats.ino⟩)
      | _ => .error ("managed root must be a directory: " ++ pathText path slash)

structure InspectedTree where
  nodes : List RetentionNode
  reason : Option RetentionReason

/-- `REASON_PRIORITY`. -/
def reasonPriority : RetentionReason → Nat
  | .newerThanCutoff => 1
  | .invalidTimestamp => 2
  | .unsupportedType => 3
  | .readError => 4
  | .symlink => 5

def strongerReason (left right : Option RetentionReason) : Option RetentionReason :=
  match left, right with
  | none, right => right
  | left, none => left
  | some left, some right =>
      if reasonPriority left < reasonPriority right then some right else some left

/-- What is inspected of a directory, and then of something in it. -/
def InspectedTree.add (tree child : InspectedTree) : InspectedTree :=
  ⟨tree.nodes ++ child.nodes, strongerReason tree.reason child.reason⟩

/-- The reason to keep what was last changed then. -/
def ownReason (mtimeMs : Option ℚ) (cutoffMs : ℚ) : Option RetentionReason :=
  match mtimeMs with
  | none => some .invalidTimestamp
  | some mtimeMs => if cutoffMs ≤ mtimeMs then some .newerThanCutoff else none

/-- `inspectTree`, down to a depth. -/
def inspectTree (fs : FileSystem) (classRoot : List String) (cutoffMs : ℚ) :
    Nat → List String → InspectedTree
  | 0, _ => ⟨[], some .readError⟩
  | depth + 1, relativePath =>
      match fs.lstat (classRoot ++ relativePath) with
      | none => ⟨[], some .readError⟩
      | some stats =>
          let node (kind : NodeKind) : RetentionNode :=
            ⟨relativePath, kind, stats.dev, stats.ino, stats.mtimeMs⟩
          match stats.kind with
          | .symlink _ _ => ⟨[], some .symlink⟩
          | .other => ⟨[], some .unsupportedType⟩
          | .file => ⟨[node .file], ownReason stats.mtimeMs cutoffMs⟩
          | .directory =>
              match fs.readdir (classRoot ++ relativePath) with
              | none => ⟨[node .directory], some .readError⟩
              | some children =>
                  ((sortStrings children).map fun child =>
                    inspectTree fs classRoot cutoffMs depth (relativePath ++ [child])).foldl
                      InspectedTree.add ⟨[node .directory], ownReason stats.mtimeMs cutoffMs⟩

/-- More names than lead to anything. -/
def depthOf (fs : FileSystem) : Nat := (fs.entries.keys.map List.length).foldr max 0 + 1

/-- What is planned for a class. -/
structure ClassPlan where
  root : RootSnapshot
  candidates : List RetentionCandidate
  retained : List (String × RetentionReason)

def planEntry (fs : FileSystem) (classRoot : RootSnapshot) (managedClass : ManagedStyrirClass)
    (cutoffMs : ℚ) (plan : ClassPlan) (entryName : String) : ClassPlan :=
  let id := managedClass.text ++ "/" ++ entryName
  let inspected := inspectTree fs classRoot.path cutoffMs (depthOf fs) [entryName]
  match inspected.reason with
  | some reason => { plan with retained := plan.retained ++ [(id, reason)] }
  | none =>
      { plan with candidates := plan.candidates ++ [⟨id, managedClass, entryName, inspected.nodes⟩] }

def planClass (fs : FileSystem) (workspace : RootSnapshot) (cutoffMs : ManagedStyrirClass → ℚ)
    (managedClass : ManagedStyrirClass) : Except String (Option ClassPlan) :=
  match existingRoot fs (workspace.path ++ [managedClass.text]) false with
  | .error e => .error e
  | .ok none => .ok none
  | .ok (some classRoot) =>
      if classRoot.realPath.dropLast ≠ workspace.realPath ∨
          classRoot.realPath.getLast? ≠ some managedClass.text then
        .error ("managed root escapes workspace: " ++ managedClass.text)
      else
        match fs.readdir classRoot.path with
        | none => .error "EACCES"
        | some entries =>
            .ok (some ((sortStrings entries).foldl
              (planEntry fs classRoot managedClass (cutoffMs managedClass)) ⟨classRoot, [], []⟩))

/-- `planWorkspaceRetention`, at a time that may be no number. -/
def planWorkspaceRetention (fs : FileSystem) (path : List String) (slash : Bool)
    (policy : ManagedStyrirClass → ℚ) (now : Option ℚ) : Except String RetentionPlan :=
  match now with
  | none => .error "retention now must be a valid timestamp"
  | some nowMs =>
      match existingRoot fs path slash with
      | .error e => .error e
      | .ok none => .ok ⟨none, fun _ => none, [], []⟩
      | .ok (some workspace) =>
          match ManagedStyrirClass.all.mapM (planClass fs workspace fun managedClass =>
              nowMs - policy managedClass * dayMs) with
          | .error e => .error e
          | .ok plans =>
              .ok { workspace := some workspace
                    classRoots := fun managedClass =>
                      ((ManagedStyrirClass.all.zip plans).lookup managedClass).join.map ClassPlan.root
                    candidates := (plans.filterMap id).flatMap ClassPlan.candidates
                    retained := (plans.filterMap id).flatMap ClassPlan.retained }

/-! ### Applying -/

structure RetentionApplyResult where
  plannedCandidateIds : List String
  deletedCandidateIds : List String
  retained : List (String × String)
  errors : List (String × String)

def rootMatches (fs : FileSystem) (snapshot : RootSnapshot) : Bool :=
  match lstatRoot fs snapshot.path snapshot.slash with
  | none => false
  | some stats =>
      stats.kind = .directory && stats.dev = snapshot.dev && stats.ino = snapshot.ino &&
        fs.realpath snapshot.path = some snapshot.realPath

/-- The path does not lead out of the root it is relative to. -/
def contained (relativePath : List String) : Bool :=
  relativePath ≠ [] && relativePath.head? ≠ some ".."

def nodeMatches (fs : FileSystem) (classRoot : RootSnapshot) (compareMtime : Bool)
    (node : RetentionNode) : Bool :=
  contained node.relativePath &&
    match fs.lstat (classRoot.path ++ node.relativePath) with
    | none => false
    | some stats =>
        stats.kind = node.kind.fileKind && stats.dev = node.dev && stats.ino = node.ino &&
          (!compareMtime || stats.mtimeMs = node.mtimeMs) &&
          fs.realpath (classRoot.path ++ node.relativePath.dropLast) =
            some (classRoot.realPath ++ node.relativePath.dropLast)

def candidateMatches (fs : FileSystem) (classRoot : RootSnapshot)
    (candidate : RetentionCandidate) : Bool :=
  candidate.nodes.all (nodeMatches fs classRoot true)

/-- The order of removal: the deeper first, files before directories, and then by name. -/
def removedBefore (localeLe : String → String → Bool) (left right : RetentionNode) : Bool :=
  if left.relativePath.length ≠ right.relativePath.length then
    right.relativePath.length < left.relativePath.length
  else if left.kind = right.kind then
    localeLe (Text.join "/" right.relativePath) (Text.join "/" left.relativePath)
  else left.kind = .file

def removalOrder (localeLe : String → String → Bool) (nodes : List RetentionNode) :
    List RetentionNode :=
  nodes.insertionSort fun left right => removedBefore localeLe left right = true

/-- What a removal needs of its surroundings: an order of strings, and the time. -/
structure RemovalHost where
  localeLe : String → String → Bool
  stamp : List String → Option ℚ

def removeNode (host : RemovalHost) (fs : FileSystem) (classRoot : RootSnapshot)
    (node : RetentionNode) : Option FileSystem :=
  let path := classRoot.path ++ node.relativePath
  match node.kind with
  | .file => fs.unlink (host.stamp path) path
  | .directory => fs.rmdir (host.stamp path) path

/-- The loop of `removeCandidate`. -/
def removeNodes (host : RemovalHost) (classRoot : RootSnapshot) :
    FileSystem → List RetentionNode → FileSystem × Option String
  | fs, [] => (fs, none)
  | fs, node :: rest =>
      if nodeMatches fs classRoot false node then
        match removeNode host fs classRoot node with
        | none => (fs, some "delete_failed")
        | some fs => removeNodes host classRoot fs rest
      else (fs, some "changed_since_plan")

def removeCandidate (host : RemovalHost) (fs : FileSystem) (classRoot : RootSnapshot)
    (candidate : RetentionCandidate) : FileSystem × Option String :=
  removeNodes host classRoot fs (removalOrder host.localeLe candidate.nodes)

/-- The loop of `applyWorkspaceRetention`. -/
def applyCandidate (host : RemovalHost) (plan : RetentionPlan) (workspace : RootSnapshot)
    (s : FileSystem × RetentionApplyResult) (candidate : RetentionCandidate) :
    FileSystem × RetentionApplyResult :=
  let (fs, result) := s
  let retain (reason : String) :=
    (fs, { result with retained := result.retained ++ [(candidate.id, reason)] })
  match plan.classRoots candidate.managedClass with
  | none => retain "root_changed"
  | some classRoot =>
      if !rootMatches fs classRoot || classRoot.realPath.dropLast ≠ workspace.realPath then
        retain "root_changed"
      else if !candidateMatches fs classRoot candidate then retain "changed_since_plan"
      else
        match removeCandidate host fs classRoot candidate with
        | (fs, none) =>
            (fs, { result with deletedCandidateIds := result.deletedCandidateIds ++ [candidate.id] })
        | (fs, some reason) =>
            if reason = "changed_since_plan" then
              (fs, { result with retained := result.retained ++ [(candidate.id, reason)] })
            else (fs, { result with errors := result.errors ++ [(candidate.id, "delete_failed")] })

def applyWorkspaceRetention (host : RemovalHost) (fs : FileSystem) (plan : RetentionPlan) :
    FileSystem × RetentionApplyResult :=
  let result : RetentionApplyResult :=
    { plannedCandidateIds := plan.candidates.map RetentionCandidate.id
      deletedCandidateIds := []
      retained := plan.retained.map fun record => (record.1, record.2.text)
      errors := [] }
  match plan.workspace with
  | none => (fs, result)
  | some workspace =>
      if rootMatches fs workspace then
        plan.candidates.foldl (applyCandidate host plan workspace) (fs, result)
      else
        (fs, { result with
          retained := result.retained ++ plan.candidates.map fun candidate =>
            (candidate.id, "root_changed") })

end Runir.Retention
