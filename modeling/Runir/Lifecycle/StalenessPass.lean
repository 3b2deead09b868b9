import Runir.Lib.Calls
import Runir.Lifecycle.Dedup
import Runir.Overlay.Merge

/-!
# Lifecycle — Staleness pass

`runStalenessCoreNoLock` of `src/lifecycle/semion/staleness-pass.ts`: which stored memories a model
finds stale beside new facts, and their supersedes.

* `collectCandidates`: the searches, one or two for each fact.
* `processEntry`: one entry of the reply, checked, guarded and superseded.
* `runStalenessCoreNoLock`: the whole pass, with the log of the supersedes that took effect.

What the full text index and the vectors answer is given by the ids they match, in their order; the
clauses of the queries are applied to them here.  A reply is the list its JSON holds under `stale`,
or none where the call or the parse failed.  Each entry has its own clock and its own failures.
-/

namespace Runir

structure StalenessFact where
  text : String
  replacementMemoryId : String
  deriving DecidableEq

/-- The options, without the database, the key and the model. -/
structure StalenessOpts where
  userId : String
  scope : MemoryScope
  sessionId : Option String := none
  facts : List StalenessFact

structure StalenessCandidate where
  id : String
  text : String
  deriving DecidableEq

/-- What the world answers while one entry is processed. -/
structure EntryWorld where
  now : Int
  uuid : String
  staleSince : String
  /-- The id at which the query of the pass's own cycle guard throws, if one does. -/
  guardFailed : Option String := none
  /-- The same of the guard of `prepareSupersedeMemory`. -/
  prepareFailed : Option String := none
  /-- `embedText`, unless it throws. -/
  embedding : Option (List ℚ) := some []
  fate : TransactionFate := .answered

/-- What the world answers to a pass. -/
structure StalenessWorld where
  /-- The ids the full text index matches; none where the query throws. -/
  matched : StalenessFact → Option (List String)
  /-- The ids of close vectors; none where the embedding or the query throws. -/
  near : StalenessFact → Option (List String)
  staleEntries : Option (List Value)
  entry : Nat → EntryWorld

/-! ### Candidates -/

/-- `extractId(rawId).replace(/[⟨⟩]/g, "").trim()`, on a text. -/
def normalizeCandidateId (rawId : String) : String :=
  Text.trim (String.ofList ((stripTable rawId).toList.filter fun c => c ≠ '⟨' && c ≠ '⟩'))

def excludedIds (facts : List StalenessFact) : List String :=
  (((facts.map (·.replacementMemoryId)).filter (· ≠ "")).map normalizeCandidateId).filter (· ≠ "")

/-- The rows of a search, of those an index answers with. -/
def searchRows (opts : StalenessOpts) (rows : Rows) (ids : List String) : List StalenessCandidate :=
  (ids.filterMap fun id =>
    match rows.get? id with
    | none => none
    | some row =>
        if sweepable opts.userId opts.scope row ∧ id ∉ excludedIds opts.facts then
          some ⟨id, row.textNorm⟩
        else none).take 10

def searchFact (world : StalenessWorld) (opts : StalenessOpts) (rows : Rows)
    (fact : StalenessFact) : Option (List StalenessCandidate) :=
  match (world.matched fact).map (searchRows opts rows) with
  | none => none
  | some [] => (world.near fact).map (searchRows opts rows)
  | some bm25Results => some bm25Results

/-- The candidates of all facts, by id; none where a search throws. -/
def collectCandidates (world : StalenessWorld) (opts : StalenessOpts) (rows : Rows) :
    Option (OrdMap String StalenessCandidate) :=
  opts.facts.foldlM
    (fun all fact => (searchFact world opts rows fact).map fun found =>
      found.foldl (fun all c => all.set c.id c) all)
    .empty

/-! ### One entry -/

/-- A supersede that took effect. -/
structure Retirement where
  previousId : String
  replacementId : String
  fact : StalenessFact
  deriving DecidableEq

structure StalenessState where
  rows : Rows
  superseded : Nat := 0
  /-- The supersedes that took effect, in order. -/
  log : List Retirement := []
  /-- An embedding has thrown, which ends the pass. -/
  thrown : Bool := false

/-- `supersededByNewFactIndex`, where it is an index of a fact. -/
def entryIndex (facts : List StalenessFact) (entry : Value) : Option Nat :=
  match entry.prop? "supersededByNewFactIndex" with
  | some (.num q) => if q.den = 1 ∧ 0 ≤ q ∧ q < facts.length then some q.num.toNat else none
  | _ => none

/-- The fact and the candidate an entry speaks of, unless it is malformed. -/
def entryTarget (opts : StalenessOpts) (candidates : List StalenessCandidate) (entry : Value) :
    Option (StalenessFact × StalenessCandidate) := do
  let idx ← entryIndex opts.facts entry
  let existingId ← (entry.prop? "existingId").bind Value.str?
  let fact ← opts.facts[idx]?
  let candidate ← candidates.find? fun c => c.id = normalizeCandidateId existingId
  some (fact, candidate)

/-- `normalizeCandidateId(fact.replacementMemoryId || crypto.randomUUID())`. -/
def replacementIdOf (fact : StalenessFact) (uuid : String) : String :=
  normalizeCandidateId (if fact.replacementMemoryId = "" then uuid else fact.replacementMemoryId)

def stalenessSupersede (opts : StalenessOpts) (world : EntryWorld) (fact : StalenessFact)
    (candidate : StalenessCandidate) (embedding : List ℚ) : SupersedeInput where
  previousId := candidate.id
  replacement :=
    { id := replacementIdOf fact world.uuid
      text := fact.text
      userId := opts.userId
      embedding := embedding
      scope := opts.scope
      sessionId := opts.sessionId
      writeSource := "agent_end" }
  provenance := .llmGenerated
  isInternalCaller := true
  inactiveReason := "retroactive-staleness"
  previousStaleFlags := some ⟨world.staleSince, replacementIdOf fact world.uuid⟩

/-- What an entry comes to. -/
inductive EntryEffect where
  | skipped
  | threw
  /-- The transaction committed; `answered` says whether the pass has learned of it. -/
  | retired (r : Retirement) (rows : Rows) (answered : Bool)

section
variable (host : Host) (opts : StalenessOpts) (candidates : List StalenessCandidate)

def entryEffect (world : EntryWorld) (rows : Rows) (entry : Value) : EntryEffect :=
  match entryTarget opts candidates entry with
  | none => .skipped
  | some (fact, candidate) =>
      let replacementId := replacementIdOf fact world.uuid
      if candidate.id = replacementId then .skipped
      else if wouldCreateCycle world.guardFailed rows replacementId candidate.id opts.userId then
        .skipped
      else
        match world.embedding with
        | none => .threw
        | some embedding =>
            match world.fate,
                supersedeMemory host world.now world.prepareFailed
                  (stalenessSupersede opts world fact candidate embedding) rows with
            | .failed, _ | _, .error _ => .skipped
            | .answered, .ok rows => .retired ⟨candidate.id, replacementId, fact⟩ rows true
            | .lost, .ok rows => .retired ⟨candidate.id, replacementId, fact⟩ rows false

def processEntry (world : Nat → EntryWorld) (st : StalenessState) (entry : Value × Nat) :
    StalenessState :=
  if st.thrown then st
  else
    match entryEffect host opts candidates (world entry.2) st.rows entry.1 with
    | .skipped => st
    | .threw => { st with thrown := true }
    | .retired r rows answered =>
        { rows := rows
          superseded := if answered then st.superseded + 1 else st.superseded
          log := st.log ++ [r]
          thrown := false }

end

/-! ### The pass -/

/-- What the pass answers: how many candidates it checked, and how many it superseded. -/
structure StalenessResult where
  checked : Nat
  superseded : Nat
  deriving DecidableEq

/-- The candidates the pass asks the model about; none in the global scope. -/
def stalenessCandidates (world : StalenessWorld) (opts : StalenessOpts) (rows : Rows) :
    Option (List StalenessCandidate) :=
  if opts.scope = .global then some []
  else (collectCandidates world opts rows).map OrdMap.values

/-- The state the pass leaves, and its answer unless it throws. -/
def runStalenessCoreNoLock (host : Host) (world : StalenessWorld) (opts : StalenessOpts)
    (rows : Rows) : StalenessState × Option StalenessResult :=
  match stalenessCandidates world opts rows with
  | none => ({ rows := rows, thrown := true }, none)
  | some [] => ({ rows := rows }, some ⟨0, 0⟩)
  | some candidates =>
      match world.staleEntries with
      | none => ({ rows := rows }, some ⟨candidates.length, 0⟩)
      | some entries =>
          let st := entries.zipIdx.foldl (processEntry host opts candidates world.entry)
            { rows := rows }
          (st, if st.thrown then none else some ⟨candidates.length, st.superseded⟩)

end Runir
