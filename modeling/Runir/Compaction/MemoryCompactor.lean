import Runir.Lib.Calls
import Runir.Lib.Lines
import Runir.Lib.OrdSet
import Runir.Store.Rows

/-!
# Compaction — Memory compactor

`src/lifecycle/compaction/memory-compactor.ts`: old memories that resemble one another become one
merged memory, and are made inactive.

* `buildClusters`: the clusters, grown from the seeds of highest confidence.
* `buildMergedEntry`: the lines of the members, each once.
* `runCompaction`: the whole run.  Each query and each embedding is a call with a fate of its own.

The similarity of two entries and the random part of an id are given.  Confidences are exact, and
readings of the clock between two calls are one.
-/

namespace Runir.Compaction

structure CompactableEntry where
  id : String
  /-- None where the stored text is no string, and cannot be split. -/
  text : Option String
  embedding : List ℚ
  confidence : ℚ
  category : String
  tags : List String
  lineageRootId : Option String
  deriving DecidableEq

structure CompactionConfig where
  enabled : Bool
  minAgeDays : ℚ := 7
  similarityThreshold : ℚ := 88 / 100
  minClusterSize : Nat := 2
  maxMemoriesToScan : Nat := 200
  dryRun : Bool := false
  cooldownHours : ℚ := 24

/-! ### Clusters -/

section
variable (similarity : CompactableEntry → CompactableEntry → ℚ) (threshold : ℚ)

/-- What the loop over seeds keeps. -/
structure Clustering where
  assigned : List String := []
  clusters : List (List CompactableEntry) := []

/-- A cluster while it grows, with the ids that are assigned. -/
structure Growing where
  cluster : List CompactableEntry
  assigned : List String

def growCluster (seed : CompactableEntry) (g : Growing) (candidate : CompactableEntry) : Growing :=
  if candidate.id ∈ g.assigned then g
  else if threshold ≤ similarity seed candidate then
    ⟨g.cluster ++ [candidate], candidate.id :: g.assigned⟩
  else g

def seedCluster (minClusterSize : Nat) (sorted : List CompactableEntry) (acc : Clustering)
    (seed : CompactableEntry) : Clustering :=
  if seed.id ∈ acc.assigned then acc
  else
    let g := sorted.foldl (growCluster similarity threshold seed) ⟨[seed], seed.id :: acc.assigned⟩
    if minClusterSize ≤ g.cluster.length then ⟨g.assigned, acc.clusters ++ [g.cluster]⟩
    else
      -- the entries of a cluster that is too small are released
      ⟨g.assigned.filter fun id => id ∉ g.cluster.map (·.id), acc.clusters⟩

def buildClusters (entries : List CompactableEntry) (minClusterSize : Nat) :
    List (List CompactableEntry) :=
  let sorted := entries.insertionSort fun a b => b.confidence ≤ a.confidence
  (sorted.foldl (seedCluster similarity threshold minClusterSize sorted) {}).clusters

end

/-! ### The merged entry -/

section
variable (host : Host)

/-- The lines so far, and their lower-cased forms. -/
structure MergedLines where
  seenLines : OrdSet String := .empty
  lines : List String := []

def mergeLine (m : MergedLines) (line : String) : MergedLines :=
  let trimmed := Text.trim line
  let lowered := host.unicode.toLowerCase trimmed
  if trimmed ≠ "" ∧ !m.seenLines.has lowered then ⟨m.seenLines.add lowered, m.lines ++ [trimmed]⟩
  else m

def mergeText (m : MergedLines) (text : String) : MergedLines :=
  (Text.splitOn text '\n').foldl (mergeLine host) m

/-- The lines of texts, deduplicated. -/
def mergeLines (texts : List String) : List String :=
  (texts.foldl (mergeText host) {}).lines

/-- The category that most members have, of several the first. -/
def pluralityCategory (first : String) (members : List CompactableEntry) : String :=
  let catCounts := members.foldl
    (fun (counts : OrdMap String Nat) m =>
      counts.set m.category (((counts.get? m.category).getD 0) + 1)) .empty
  (catCounts.entries.foldl
    (fun best entry => if best.2 < entry.2 then entry else best) (first, 0)).1

structure MergedEntry where
  text : String
  confidence : ℚ
  category : String
  tags : List String
  sourceIds : List String

/-- None where it throws: at a text that is no string, or without members. -/
def buildMergedEntry (members : List CompactableEntry) : Option MergedEntry :=
  match members, members.mapM (·.text) with
  | first :: _, some texts =>
      some
        { text := Text.join "\n" (mergeLines host texts)
          confidence := (members.map (·.confidence)).foldl max first.confidence
          category := pluralityCategory first.category members
          tags := distinct (members.flatMap (·.tags))
          sourceIds := members.map (·.id) }
  | _, _ => none

end

/-! ### The queries -/

/-- `r.payload?.data ?? ""`. -/
def compactableText (row : MemoryRow) : Option String :=
  match row.prop? "data" with
  | none | some .null => some ""
  | some (.str s) => some s
  | some _ => none

def compactableEntry (id : String) (row : MemoryRow) : CompactableEntry where
  id := id
  text := compactableText row
  embedding := row.embedding.getD []
  confidence :=
    match row.prop? "confidence" with
    | some (.num q) => q
    | _ => 1 / 2
  category := (row.propStr? "category").getD "cases"
  tags := ((row.prop? "tags").bind Value.strings?).getD []
  lineageRootId := row.propStr? "lineageRootId"

def fetchForCompaction (rows : Rows) (userId : String) (cutoff : Int) (limit : Nat) :
    List CompactableEntry :=
  let found := rows.entries.filter fun (_, row) =>
    row.payloadUserId = some userId && row.isCurrent && row.createdAt < cutoff &&
      row.embedding.isSome
  ((found.insertionSort fun a b => a.2.createdAt ≤ b.2.createdAt).take limit).map
    fun (id, row) => compactableEntry id row

/-- The `SET` list of `softInactivateForCompaction`. -/
def inactivated (now : Int) (mergedId : String) (row : MemoryRow) : MemoryRow :=
  { row with
    active := some false
    inactiveAt := some (Date.toISOString now)
    inactiveReason := some "compacted"
    supersededBy := some mergedId
    payload := row.payload
      |> setProp "active" (some (.bool false))
      |> setProp "inactiveAt" (some (.str (Date.toISOString now)))
      |> setProp "inactiveReason" (some (.str "compacted"))
      |> setProp "supersededById" (some (.str mergedId))
      |> setProp "updatedAt" (some (.str (Date.toISOString now)))
    updatedAt := now }

def inactivateRow (now : Int) (mergedId userId id : String) (rows : Rows) : Rows :=
  match rows.get? id with
  | none => rows
  | some row =>
      if row.payloadUserId = some userId then rows.set id (inactivated now mergedId row) else rows

def mergedRow (host : Host) (now : Int) (userId : String) (embedding : List ℚ)
    (merged : MergedEntry) (firstSource : CompactableEntry) : MemoryRow where
  embedding := some embedding
  payload := .ofList [("data", .str merged.text), ("userId", .str userId),
    ("category", .str merged.category), ("confidence", .num merged.confidence),
    ("tags", .ofStrings merged.tags), ("writeSource", .str "capture"),
    ("source", .str "memory-hybrid"), ("scope", .str "user"),
    ("createdAt", .str (Date.toISOString now)), ("updatedAt", .str (Date.toISOString now)),
    ("active", .bool true), ("supersedesId", .str firstSource.id),
    ("lineageRootId", .str (firstSource.lineageRootId.getD firstSource.id))]
  textNorm := Text.trim (host.unicode.toLowerCase merged.text)
  createdAt := now
  updatedAt := now
  userId := some userId
  scope := some "user"
  sessionId := none
  path := none
  memoryRole := none
  validAt := none
  invalidAt := none
  confidence := none
  active := some true
  inactiveAt := none
  inactiveReason := none
  supersededBy := none
  supersedes := some firstSource.id
  lineageRootId := some (firstSource.lineageRootId.getD firstSource.id)
  processingLineage := none
  supersedeProvenance := none

/-! ### The run -/

structure CompactionStats where
  scanned : Nat
  clustersFound : Nat
  memoriesMerged : Nat := 0
  memoriesCreated : Nat := 0
  dryRun : Bool
  deriving DecidableEq

/-- The tables a run writes, and its counters. -/
structure CompactionState where
  memories : Rows
  /-- `lastRunAt` of `compaction_state`, by user. -/
  lastRunAt : OrdMap String String := .empty
  memoriesMerged : Nat := 0
  memoriesCreated : Nat := 0

/-- What the world answers to a run. -/
structure CompactionWorld where
  fate : Nat → TransactionFate
  /-- The clock after so many calls. -/
  clock : Nat → Int
  /-- `Math.random().toString(36).slice(2, 8)`, for each cluster. -/
  random : Nat → String
  embedDocument : String → List ℚ

namespace CompactionState

def setMemories (f : Rows → Rows) (c : CompactionState) : CompactionState :=
  { c with memories := f c.memories }

def count (size : Nat) (c : CompactionState) : CompactionState :=
  { c with memoriesMerged := c.memoriesMerged + size, memoriesCreated := c.memoriesCreated + 1 }

end CompactionState

section
variable (host : Host) (world : CompactionWorld)

/-- The id of the merged memory of the `k`th cluster, after `asked` calls. -/
def CompactionWorld.mergedId (k asked : Nat) : String :=
  "compacted-" ++ toString (world.clock asked) ++ "-" ++ world.random k

def softInactivateForCompaction (sourceIds : List String) (mergedId userId : String)
    (st : Calling CompactionState) : Calling CompactionState :=
  let now := world.clock st.asked
  sourceIds.foldl
    (fun st id => st.call world.fate (.setMemories (inactivateRow now mergedId userId id))) st

variable (config : CompactionConfig) (userId : String)

def compactCluster (st : Calling CompactionState) (cluster : List CompactableEntry × Nat) :
    Calling CompactionState :=
  match cluster.1, buildMergedEntry host cluster.1 with
  | firstSource :: _, some merged =>
      if config.dryRun then st.onto (.count cluster.1.length)
      else
        -- the embedding of the merged text
        let st := st.call world.fate id
        let now := world.clock st.asked
        let mergedId := world.mergedId cluster.2 st.asked
        let row := mergedRow host now userId (world.embedDocument merged.text) merged firstSource
        let st := st.call world.fate (.setMemories fun rows => rows.set mergedId row)
        let st := softInactivateForCompaction world merged.sourceIds mergedId userId st
        st.onto (.count cluster.1.length)
  | _, _ => st.throw

/-- `elapsed < cooldownHours * 3600 * 1000`, of a last run on record. -/
def isCooldownActive (now : Int) (lastRunAt : Option String) : Bool :=
  match lastRunAt with
  | none => false
  | some at_ =>
      if at_ = "" then false
      else
        match host.dateParse at_ with
        | none => false
        | some last => ((now - last : Int) : ℚ) < config.cooldownHours * 3600 * 1000

/-- `new Date(now - minAgeDays * 24 * 3600 * 1000)`. -/
def compactionCutoff (now : Int) : Int :=
  let ms : ℚ := now - config.minAgeDays * 24 * 3600 * 1000
  ms.num.tdiv ms.den

def updateCooldown (now : Int) (c : CompactionState) : CompactionState :=
  { c with lastRunAt := c.lastRunAt.set userId (Date.toISOString now) }

variable (similarity : CompactableEntry → CompactableEntry → ℚ)

/-- The state a run leaves, and its answer. -/
def runCompaction (memories : Rows) (lastRunAt : OrdMap String String) :
    CompactionState × Option CompactionStats :=
  let start : CompactionState := { memories := memories, lastRunAt := lastRunAt }
  if !config.enabled then (start, none)
  else
    let st := ({ state := start } : Calling CompactionState).call world.fate id
    if st.thrown || isCooldownActive host config (world.clock st.asked) (lastRunAt.get? userId)
    then (start, none)
    else
      let cutoff := compactionCutoff config (world.clock st.asked)
      let st := st.call world.fate id
      let entries := fetchForCompaction memories userId cutoff config.maxMemoriesToScan
      if st.thrown then (start, none)
      else if entries.length < config.minClusterSize then
        (start, some ⟨entries.length, 0, 0, 0, config.dryRun⟩)
      else
        let clusters := buildClusters similarity config.similarityThreshold entries
          config.minClusterSize
        let st := clusters.zipIdx.foldl (compactCluster host world config userId) st
        let st := st.call world.fate (updateCooldown userId (world.clock st.asked))
        (st.state, if st.thrown then none else
          some ⟨entries.length, clusters.length, st.state.memoriesMerged, st.state.memoriesCreated,
            config.dryRun⟩)

end

end Runir.Compaction
