import Runir.Lib.Observers
import Runir.Store.Supersede
import Runir.Writes.Judge
import Runir.Writes.Recent

/-!
# Writes — Commit

The input of `arbitrateWrite`, what surrounds a call of it, and its commit step: the four outcome
branches at its end, each with the row it writes, the cache entry it remembers, the overlay entry
it puts and the ledger row it appends.

* `WriteArbitrationInput`, `ArbitrateEnv`: the arguments, and what the call reads from outside.
* `Applied`: what the call is about.  `history` keeps every change of the rows and of the cache.
* `applySkip`, `applyMergeUpdate`, `applySupersede`, `applyCreate`: the branches, up to their
  report to the shadow log.

A query of the store may be answered, may fail, or may be performed and lose its answer.  The
clock is read by site.
-/

namespace Runir

/-! ### The call -/

inductive Stratum where
  | replay | organic
  deriving DecidableEq

/-- `AtomicFrameSource`. -/
structure AtomicFrameSource where
  stratum : Stratum
  frameId : String
  deriving DecidableEq

structure WriteArbitrationInput where
  text : String
  userId : String
  embedding : List ℚ
  metadata : Option Metadata := none
  scope : MemoryScope := .user
  sessionId : Option String := none
  source : WriteSource := .memoryStore
  config : ArbitrationConfig := {}
  fingerprintOk : Option Bool := none
  overlay : Bool := false
  judge : Option JudgeHandle := none
  shadowJudge : Option JudgeHandle := none
  nowMs : Option Int := none
  shadowCorrelationId : Option String := none
  atomicFrameSource : Option AtomicFrameSource := none

/-- The flags of `src/storage/writes/write-flags.ts`, all off by default; the shadow's own is
`ShadowEnv.enabled`. -/
structure WriteFlags where
  cueGate : Bool := false
  judgeGate : Bool := false
  f2JudgeConfirm : Bool := false
  f2RequireValueChange : Bool := false
  mergeKeepBothOnFusion : Bool := false
  mergeKeepBothGuard : Bool := false
  additiveSkipGuard : Bool := false
  supersedeTemporalGuard : Bool := false
  atomicFactIdentityProof : Bool := false
  deriving DecidableEq

/-- Where the call reads the clock itself. -/
inductive Reading where
  | prune | search | arbitration | lane | shadow | judge | store | remember | overlay
  deriving DecidableEq

/-- The queries of the applied path. -/
inductive StoreQuery where
  | search | updateText | supersede | upsert | ledger
  deriving DecidableEq

inductive Reply where
  | answered
  | failed
  | lost
  deriving DecidableEq

/-- The writes and reads of the shadow tables. -/
inductive ShadowQuery where
  | attempt | event | nomination (candidateId : String) | readBack | finalize | supersedeShadow
  deriving DecidableEq

/-- What a call reads from outside: flags, clocks, minted ids, the services it asks.
`candidateFloor` is `RUNIR_SUPERSEDE_CANDIDATE_FLOOR` where it is set, with `none` for what is no
number; `cycleGuardFailed` is where the walk of the cycle guard throws. -/
structure ArbitrateEnv where
  host : Host
  flags : WriteFlags
  candidateFloor : Option (Option ℚ) := none
  clock : Reading → Int
  wall : WallClock
  writeEventId : String
  judgeDecisionId : String
  memoryId : String
  sha256 : String → String
  cosine : List ℚ → List ℚ → ℚ
  embedText : String → Option (List ℚ)
  overlayOptions : OverlayRegistryOptions
  overlayTtlMs : Int
  reply : StoreQuery → Reply
  cycleGuardFailed : Option String := none

/-- What the shadow reads from outside: whether `RUNIR_SUPERSEDE_SHADOW` is on, whether its pure
computations throw, what its tables answer. -/
structure ShadowEnv where
  enabled : Bool
  decisionId : String
  laneThrows : Bool := false
  isolatedThrows : Bool := false
  answered : ShadowQuery → Bool

/-- What a call may throw. -/
inductive ArbitrateError where
  | store (e : StoreError)
  | unreachable (query : StoreQuery)
  | noCandidate
  | embedding
  | shadowTable (query : ShadowQuery)
  | unprintable
  deriving DecidableEq

/-! ### What the call is about -/

inductive AppliedChange where
  | rows (after : Rows)
  | recentWrites (after : RecentWrites)
  deriving DecidableEq

structure Applied where
  rows : Rows
  recentWrites : RecentWrites
  overlay : OverlayRegistry
  ledger : List JudgeLedgerRow
  history : List AppliedChange

abbrev Commit (α : Type) := Prog ArbitrateError Applied α

structure ArbitrationResult where
  outcome : DecisionOutcome
  reason : String
  memoryId : Option String := none
  mergedIntoId : Option String := none
  matchedMemoryId : Option String := none
  deriving DecidableEq

def Applied.setRows (rows : Rows) (s : Applied) : Applied :=
  { s with rows := rows, history := s.history ++ [.rows rows] }

def Applied.setRecentWrites (recentWrites : RecentWrites) (s : Applied) : Applied :=
  { s with
    recentWrites := recentWrites, history := s.history ++ [.recentWrites recentWrites] }

section
variable (env : ArbitrateEnv) (input : WriteArbitrationInput)

/-- A query that writes rows. -/
def writeRows (query : StoreQuery) (f : Rows → Except StoreError Rows) : Commit Unit :=
  if env.reply query = .failed then throw (.unreachable query)
  else do
    let s ← get
    let rows ← Prog.ofExcept ((f s.rows).mapError .store)
    modify (Applied.setRows rows)
    if env.reply query = .lost then throw (.unreachable query) else pure ()

def writeCache (f : RecentWrites → RecentWrites) : Commit Unit :=
  modify fun s => s.setRecentWrites (f s.recentWrites)

/-- `nowMs ?? Date.now()` at a site. -/
def nowAt (site : Reading) : Int := input.nowMs.getD (env.clock site)

def remember (text : String) (embedding : List ℚ) : Commit Unit :=
  writeCache (rememberWrite env.host text embedding input.userId input.scope input.sessionId
    input.source (nowAt env input .remember))

/-- The overlay step after a durable write. -/
def commitOverlay (memoryId text : String) (outcome : OverlayOutcome) : Commit Unit :=
  if input.overlay then
    modify fun s =>
      { s with
        overlay := commitToOverlay env.overlayOptions env.overlayTtlMs (env.clock .overlay)
          input.userId memoryId text input.metadata outcome s.overlay }
  else pure ()

def metadataProp (k : String) : Option Value := input.metadata.bind fun m => m.get? k

/-- `metadata?.writeSource ?? source`. -/
def writeSourceOf : Value :=
  match metadataProp input "writeSource" with
  | none | some .null => .str input.source.text
  | some v => v

/-! ### Provenance -/

def F2JudgeCheckResult.text : F2JudgeCheckResult → String
  | .confirmed => "confirmed"
  | .vetoed => "vetoed"
  | .duplicate => "duplicate"
  | .unavailable => "unavailable"
  | .transportError => "transport_error"
  | .invalidResponse => "invalid_response"

def GuardLeg.text : GuardLeg → String
  | .durability => "durability"
  | .temporal => "temporal"
  | .occasion => "occasion"

def IdentityStatus.text : IdentityStatus → String
  | .resolved => "resolved"
  | .noHandle => "no_handle"

def JudgeIdentity.value (i : JudgeIdentity) : Value :=
  .obj (.cons "model" (.str i.model) (.cons "promptVersion" (.str i.promptVersion)
    (.cons "promptSha256" (.str i.promptSha256) (.cons "confidenceFloor" (.num i.confidenceFloor)
    (.cons "temperature" (.num i.temperature)
    (.cons "effectiveJsonMode" (.bool i.effectiveJsonMode) (.cons "baseUrl" (.str i.baseUrl)
    (.cons "timeoutMs" (.num i.timeoutMs) .nil))))))))

def GuardOverride.value (g : GuardOverride) : Value :=
  .obj (.cons "leg" (.str g.leg.text) (.cons "reason" (.str g.reason) .nil))

def SupersessionProvenance.value (p : SupersessionProvenance) : Value :=
  .obj (.cons "authority" (.str "f2_exception") (.cons "decisionId" (.str p.decisionId)
    (.cons "appliedOutcome" (.str p.appliedOutcome.text) (.cons "f2JudgeCheck"
      (.obj (.cons "result" (.str p.result.text)
        (.consOption "confidence" (p.confidence.map .num)
        (.consOption "guardOverride" (p.guardOverride.map GuardOverride.value)
        (.cons "judgeIdentity" ((p.judgeIdentity.map JudgeIdentity.value).getD .null)
        (.cons "identityStatus" (.str p.identityStatus.text) .nil)))))) .nil))))

/-- The stamps of a decision on the metadata it is applied with. -/
def appliedMetadataWithProvenance (decision : ArbitrationDecision) (base : Option Metadata) :
    Option Metadata :=
  let stamps :=
    (decision.supersedeSignal.toList.map fun signal =>
      ("supersedeSignal", Value.str signal.text)) ++
    decision.supersessionProvenance.toList.map fun provenance =>
      ("supersessionProvenance", provenance.value)
  if stamps = [] then base else some (spread (base.getD .empty) (.ofList stamps))

/-! ### The ledger -/

/-- The append creates its record once: a second one with the same id is taken for a success. -/
def appendLedger (row : JudgeLedgerRow) (ledger : List JudgeLedgerRow) : List JudgeLedgerRow :=
  if ledger.any fun r => r.decisionId = row.decisionId then ledger else ledger ++ [row]

/-- `emitJudgeLedgerAfterApplied`: a failed append is swallowed. -/
def emitJudgeLedgerAfterApplied (decision : ArbitrationDecision) : Commit Unit :=
  match decision.judgeLedgerPending with
  | none => pure ()
  | some row =>
      let payload :=
        { row with
          appliedOutcome := decision.outcome, userId := input.userId, scope := input.scope.text }
      if env.reply .ledger = .failed then pure ()
      else modify fun s => { s with ledger := appendLedger payload s.ledger }

/-! ### The branches -/

def applySkip (decision : ArbitrationDecision) : Commit ArbitrationResult := do
  remember env input input.text input.embedding
  emitJudgeLedgerAfterApplied env input decision
  pure
    { outcome := .skip, memoryId := decision.candidate.map (·.id),
      matchedMemoryId := decision.candidate.map (·.id), reason := decision.reason }

/-- The embedding of a merged text: the incoming one where the texts are the same. -/
def mergedEmbedding (mergedText : String) : Commit (List ℚ) :=
  if normalizeText env.host mergedText = normalizeText env.host input.text then
    pure input.embedding
  else
    match env.embedText mergedText with
    | some embedding => pure embedding
    | none => throw .embedding

def continuityMetadata : ContinuityMetadata where
  memoryRole := (metadataProp input "memoryRole").bind Value.str?
  validAt := (metadataProp input "validAt").bind Value.str?
  continuitySubjectKey := (metadataProp input "continuitySubjectKey").bind Value.str?

/-- The commit of a merge: the row of the candidate takes the merged text. -/
def mergeRows (candidate : SimilarCandidate) (mergedText : String) (embedding : List ℚ) (now : Int)
    (rows : Rows) : Except StoreError Rows :=
  updateMemoryText env.host now candidate.id mergedText embedding (writeSourceOf input)
    (mergeAtomicFactAction env.host candidate.atomicFact (metadataProp input "atomicFact"))
    (continuityMetadata input) rows

def applyMergeUpdate (decision : ArbitrationDecision) (candidate : SimilarCandidate) :
    Commit ArbitrationResult := do
  let mergedText := decision.mergedText.getD input.text
  let embedding ← mergedEmbedding env input mergedText
  writeRows env .updateText
    (mergeRows env input candidate mergedText embedding (env.clock .store))
  remember env input mergedText embedding
  commitOverlay env input candidate.id mergedText .mergeUpdate
  pure
    { outcome := .mergeUpdate, memoryId := some candidate.id, mergedIntoId := some candidate.id,
      matchedMemoryId := some candidate.id, reason := decision.reason }

/-- The supersede a decision asks for; a write source that is no string is not a known one. -/
def supersedeInput (decision : ArbitrationDecision) (candidate : SimilarCandidate) :
    SupersedeInput where
  previousId := candidate.id
  previousLineageRootId := candidate.lineageRootId
  replacement :=
    { id := env.memoryId, text := input.text, userId := input.userId,
      embedding := input.embedding,
      metadata := appliedMetadataWithProvenance decision input.metadata,
      scope := input.scope, sessionId := input.sessionId,
      writeSource := (writeSourceOf input).str?.getD "" }

def applySupersede (decision : ArbitrationDecision) (candidate : SimilarCandidate) :
    Commit ArbitrationResult := do
  writeRows env .supersede
    (supersedeMemory env.host (env.clock .store) env.cycleGuardFailed
      (supersedeInput env input decision candidate))
  remember env input input.text input.embedding
  commitOverlay env input env.memoryId input.text .supersede
  emitJudgeLedgerAfterApplied env input decision
  pure
    { outcome := .supersede, memoryId := some env.memoryId,
      matchedMemoryId := some candidate.id, reason := decision.reason }

def createMeta (decision : ArbitrationDecision) : Option Metadata :=
  appliedMetadataWithProvenance decision
    (some (spread (input.metadata.getD .empty)
      (.ofList [("writeSource", writeSourceOf input), ("arbitrationOutcome", .str "create")])))

/-- The commit of a create: a row under a fresh id. -/
def createRows (decision : ArbitrationDecision) (now : Int) (rows : Rows) :
    Except StoreError Rows :=
  upsertMemory env.host now env.memoryId input.text input.userId input.embedding
    (createMeta input decision) input.scope input.sessionId { active := true } rows

def applyCreate (decision : ArbitrationDecision) : Commit ArbitrationResult := do
  writeRows env .upsert (createRows env input decision (env.clock .store))
  remember env input input.text input.embedding
  commitOverlay env input env.memoryId input.text .create
  emitJudgeLedgerAfterApplied env input decision
  pure { outcome := .create, memoryId := some env.memoryId, reason := decision.reason }

/-! ### The history only grows -/

/-- How much has been changed. -/
def Applied.changes (s : Applied) : Nat := s.history.length

variable {env input}

open Prog

theorem raises_writeRows (query : StoreQuery) (f : Rows → Except StoreError Rows) :
    Raises Applied.changes (writeRows env query f) := by
  unfold writeRows
  split
  · exact .throw _
  · refine .bind .get fun s => .bind (.ofExcept _) fun rows => .bind (.modify fun s => ?_) fun _ => ?_
    · simp [Applied.changes, Applied.setRows]
    · split
      · exact .throw _
      · exact .pure ()

theorem raises_writeCache (f : RecentWrites → RecentWrites) :
    Raises Applied.changes (writeCache f) :=
  .modify fun s => by simp [Applied.changes, Applied.setRecentWrites]

theorem raises_remember (text : String) (embedding : List ℚ) :
    Raises Applied.changes (remember env input text embedding) :=
  raises_writeCache _

theorem raises_commitOverlay (memoryId text : String) (outcome : OverlayOutcome) :
    Raises Applied.changes (commitOverlay env input memoryId text outcome) := by
  unfold commitOverlay
  split
  · exact .modify fun s => le_refl s.changes
  · exact .pure ()

theorem raises_ledger (decision : ArbitrationDecision) :
    Raises Applied.changes (emitJudgeLedgerAfterApplied env input decision) := by
  unfold emitJudgeLedgerAfterApplied
  split
  · exact .pure ()
  · simp only
    split
    · exact .pure ()
    · exact .modify fun s => le_refl s.changes

theorem raises_applySkip (decision : ArbitrationDecision) :
    Raises Applied.changes (applySkip env input decision) :=
  .bind (raises_remember _ _) fun _ => .bind (raises_ledger _) fun _ => .pure _

theorem raises_mergedEmbedding (mergedText : String) :
    Raises Applied.changes (mergedEmbedding env input mergedText) := by
  unfold mergedEmbedding
  split
  · exact .pure _
  · split
    · exact .pure _
    · exact .throw _

theorem raises_applyMergeUpdate (decision : ArbitrationDecision) (candidate : SimilarCandidate) :
    Raises Applied.changes (applyMergeUpdate env input decision candidate) :=
  .bind (raises_mergedEmbedding _) fun _ => .bind (raises_writeRows _ _) fun _ =>
    .bind (raises_remember _ _) fun _ => .bind (raises_commitOverlay _ _ _) fun _ => .pure _

theorem raises_applySupersede (decision : ArbitrationDecision) (candidate : SimilarCandidate) :
    Raises Applied.changes (applySupersede env input decision candidate) :=
  .bind (raises_writeRows _ _) fun _ => .bind (raises_remember _ _) fun _ =>
    .bind (raises_commitOverlay _ _ _) fun _ => .bind (raises_ledger _) fun _ => .pure _

theorem raises_applyCreate (decision : ArbitrationDecision) :
    Raises Applied.changes (applyCreate env input decision) :=
  .bind (raises_writeRows _ _) fun _ => .bind (raises_remember _ _) fun _ =>
    .bind (raises_commitOverlay _ _ _) fun _ => .bind (raises_ledger _) fun _ => .pure _

end

end Runir
