import Runir.Lib.OrdSet
import Runir.Lib.Text
import Runir.Lib.UnionFind

/-!
# Compaction — Clusters

`findClusters` of `src/lifecycle/compaction/memory-clusterer.ts`: the memories that share entities,
by a graph of their similarities and a union-find over it.

The digest of a fingerprint is a parameter.  Numbers are exact.
-/

namespace Runir.Compaction

/-- The entities that each memory mentions. -/
abbrev EntityMap := OrdMap String (OrdSet String)

/-- The similarity of two memories, under the id of either. -/
abbrev Edges := OrdMap String (OrdMap String ℚ)

inductive ClusterMethod where
  | entityCooccurrence | cosineFallback | singleton
  deriving DecidableEq

structure MemoryCluster where
  fingerprintId : String
  label : String
  memoryIds : List String
  entityIds : List String
  size : Nat
  method : ClusterMethod
  deriving DecidableEq

def jaccard (setA setB : OrdSet String) : ℚ :=
  if setA.size = 0 ∧ setB.size = 0 then 0
  else
    let intersection := setA.shared setB
    let union := setA.size + setB.size - intersection
    if union = 0 then 0 else intersection / union

/-- `array.sort()` of ids. -/
def sortIds (ids : List String) : List String := ids.insertionSort (· ≤ ·)

def computeClusterFingerprint (sha256 : String → String) (memoryIds : List String) : String :=
  Text.sliceTo (sha256 (Text.join "," (sortIds memoryIds))) 16

/-- `entityMap.get(id) ?? new Set()`. -/
def EntityMap.entitiesOf (entityMap : EntityMap) (memId : String) : OrdSet String :=
  (entityMap.get? memId).getD .empty

/-! ### The graph -/

/-- The memories of each entity. -/
def invertedIndex (entityMap : EntityMap) : OrdMap String (OrdSet String) :=
  entityMap.entries.foldl (fun inverted memory =>
    memory.2.elems.foldl (fun (inverted : OrdMap String (OrdSet String)) entId =>
      inverted.set entId (((inverted.get? entId).getD .empty).add memory.1)) inverted) .empty

/-- One pass of the inner loop of `buildCooccurrenceGraph`. -/
def linkMemories (entityMap : EntityMap) (edges : Edges) (m1 m2 : String) : Edges :=
  let edges := if edges.has m1 then edges else edges.set m1 .empty
  let edges := if edges.has m2 then edges else edges.set m2 .empty
  if (edges.get? m1).any (·.has m2) then edges
  else
    let sim := jaccard (entityMap.entitiesOf m1) (entityMap.entitiesOf m2)
    let edges := edges.set m1 (((edges.get? m1).getD .empty).set m2 sim)
    edges.set m2 (((edges.get? m2).getD .empty).set m1 sim)

/-- Each memory of the list with every one after it. -/
def linkAll (entityMap : EntityMap) : Edges → List String → Edges
  | edges, [] => edges
  | edges, m1 :: rest =>
      linkAll entityMap (rest.foldl (fun edges m2 => linkMemories entityMap edges m1 m2) edges) rest

def buildCooccurrenceGraph (entityMap : EntityMap) : Edges :=
  (invertedIndex entityMap).values.foldl (fun edges memories => linkAll entityMap edges memories.elems)
    .empty

/-! ### The clusters -/

/-- The loop that enters every memory. -/
def enterMemories (uf : UnionFind String) (memIds : List String) : Option (UnionFind String) :=
  memIds.foldlM (fun uf memId => (uf.find memId).map Prod.snd) uf

def isLinked (entityMap : EntityMap) (jaccardThreshold minSharedEntities : ℚ) (m1 m2 : String)
    (sim : ℚ) : Bool :=
  let shared := (entityMap.entitiesOf m1).shared (entityMap.entitiesOf m2)
  decide (minSharedEntities ≤ shared) && decide (jaccardThreshold < sim)

/-- The loop over the neighbours of one memory. -/
def joinNeighbors (entityMap : EntityMap) (jaccardThreshold minSharedEntities : ℚ)
    (uf : UnionFind String) (m1 : String) (neighbors : List (String × ℚ)) : Option (UnionFind String) :=
  neighbors.foldlM (fun uf neighbor =>
    if isLinked entityMap jaccardThreshold minSharedEntities m1 neighbor.1 neighbor.2 then
      uf.union m1 neighbor.1
    else some uf) uf

def joinEdges (entityMap : EntityMap) (jaccardThreshold minSharedEntities : ℚ)
    (uf : UnionFind String) (edges : List (String × OrdMap String ℚ)) : Option (UnionFind String) :=
  edges.foldlM (fun uf node =>
    joinNeighbors entityMap jaccardThreshold minSharedEntities uf node.1 node.2.entries) uf

/-- The entities of a group, in order of first mention. -/
def entitiesOfGroup (entityMap : EntityMap) (members : List String) : OrdSet String :=
  members.foldl (fun entityIds memId => (entityMap.entitiesOf memId).elems.foldl OrdSet.add entityIds)
    .empty

def clusterOf (sha256 : String → String) (entityMap : EntityMap) (members : List String) :
    MemoryCluster :=
  let entityIds := entitiesOfGroup entityMap members
  { fingerprintId := computeClusterFingerprint sha256 members
    label := Text.join ", " (entityIds.elems.take 3)
    memoryIds := sortIds members
    entityIds := entityIds.elems
    size := members.length
    method := .entityCooccurrence }

def findClusters (sha256 : String → String) (entityMap : EntityMap)
    (jaccardThreshold minSharedEntities : ℚ) : Option (List MemoryCluster) := do
  let edges := buildCooccurrenceGraph entityMap
  let uf ← enterMemories ⟨.empty⟩ entityMap.keys
  let uf ← joinEdges entityMap jaccardThreshold minSharedEntities uf edges.entries
  let groups ← uf.getGroups
  some ((groups.values.filter fun members => 2 ≤ members.length).map (clusterOf sha256 entityMap))

end Runir.Compaction
