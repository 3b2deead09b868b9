import Runir.Lib.Host
import Runir.Store.SourceTurns

/-!
# Store — Links to source turns

`src/storage/surreal/source-turn-link-store.ts`, and the sweep of expired turns in
`src/storage/surreal/session-turn-store.ts`, statement by statement.

* `SourceStore`: the turns with their chunks, how long they are retained, and the facts and the
  evidence that name them.
* `markFactSourceLink`, `linkTurn`, `releaseFact`, `eraseTurns`, `eraseUser`, `deleteExpired`: what
  the transactions do.
* `SourceCall`: a call, from its beginning to its end.
-/

namespace Runir

/-! ### Tables -/

inductive SourceLinkState where
  | pending | linked | unavailable | legacy
  deriving DecidableEq

/-- The columns of a row of `semiote` that name a turn. -/
structure FactLink where
  userId : String
  scope : Option String := none
  turnId : Option String := none
  hmac : Option String := none
  keyFingerprint : Option String := none
  state : Option SourceLinkState := none
  redactionVersion : Option Nat := none
  deriving DecidableEq

/-- A row of `source_turn_evidence`. -/
structure EvidenceRow where
  userId : String
  factId : String
  turnId : String
  scope : String
  contentHmac : String
  keyFingerprint : String
  state : SourceLinkState
  deriving DecidableEq

/-- The tables of turns, every chunk of the user of its turn. -/
structure OwnedTables extends SourceTables where
  owned : ∀ chunk ∈ chunks.values, ∀ row, turns.get? chunk.turnId = some row →
    chunk.userId = row.userId

/-- `retain_until` is kept apart from the other columns of a turn; a turn that is not there has
none. -/
structure SourceStore where
  tables : OwnedTables
  retainUntil : OrdMap String Int
  facts : OrdMap String FactLink
  evidence : OrdMap String EvidenceRow

/-- A turn with a digest for an id, as `prepareSourceTurn` makes it. -/
structure IdentifiedTurn extends SourceTurn where
  id_ne : id ≠ ""

/-- The row is of the user, the content and the key of the turn. -/
def SourceTurn.owns (turn : SourceTurn) (row : TurnRow) : Bool :=
  row.userId = turn.userId ∧ row.contentHmac = some turn.contentHmac ∧
    row.keyFingerprint = some turn.keyFingerprint

/-! ### Marks -/

/-- How `markFactSourceLink` marks a fact. -/
inductive MarkState where
  | pending | unavailable
  deriving DecidableEq

def MarkState.linkState : MarkState → SourceLinkState
  | .pending => .pending
  | .unavailable => .unavailable

/-- The arguments of `markFactSourceLink`. -/
structure MarkCall where
  factId : String
  userId : String
  turn : Option IdentifiedTurn
  state : MarkState
  evidenceOnly : Bool := false
  /-- `assertSourceKeyFingerprint` returns. -/
  keyAllowed : Bool := true

/-- The turn that evidence is to be written of. -/
def MarkCall.evidenceTurn (call : MarkCall) : Option IdentifiedTurn :=
  if call.state = .unavailable then none else call.turn

/-- The record id of the evidence of a fact for a turn. -/
def evidenceId (crypto : Crypto) (userId factId turnId : String) : String :=
  crypto.sha256 (String.ofList (Json.arr (.cons (.str userId) (.cons (.str factId)
    (.cons (.str turnId) .nil)))).stringify)

/-- What a fact says when it is marked. -/
def MarkCall.apply (call : MarkCall) (f : FactLink) : FactLink :=
  { f with
    turnId := call.turn.map (·.id)
    hmac := call.turn.map (·.contentHmac)
    keyFingerprint := call.turn.map (·.keyFingerprint)
    state := some call.state.linkState
    redactionVersion := call.turn.map (·.redactionVersion) }

/-! ### Turns with their chunks -/

namespace OwnedTables

def empty : OwnedTables := ⟨.empty, fun _ h => nomatch h⟩

/-- Rows are rewritten, of the same users. -/
def update (t : OwnedTables) (f : String → TurnRow → TurnRow)
    (hf : ∀ id row, (f id row).userId = row.userId) : OwnedTables where
  turns := t.turns.mapEntries f
  chunks := t.chunks
  sound chunk hchunk := by
    rw [OrdMap.get?_mapEntries, Option.isSome_map]
    exact t.sound chunk hchunk
  owned chunk hchunk row hrow := by
    rw [OrdMap.get?_mapEntries] at hrow
    obtain ⟨old, hold, rfl⟩ := Option.map_eq_some_iff.mp hrow
    rw [hf]
    exact t.owned chunk hchunk old hold

/-- Turns are deleted, with at least the chunks of them. -/
def delete (t : OwnedTables) (gone : String → TurnRow → Bool) (goneChunk : ChunkRow → Bool)
    (h : ∀ chunk ∈ t.chunks.values, ∀ row, t.turns.get? chunk.turnId = some row →
      gone chunk.turnId row = true → goneChunk chunk = true) : OwnedTables where
  turns := t.turns.filter fun id row => !gone id row
  chunks := t.chunks.filter fun _ chunk => !goneChunk chunk
  sound chunk hchunk := by
    obtain ⟨id, hid⟩ := OrdMap.mem_values.mp hchunk
    rw [OrdMap.get?_filter, Option.filter_eq_some_iff] at hid
    have hmem := OrdMap.mem_values.mpr ⟨id, hid.1⟩
    obtain ⟨row, hrow⟩ := Option.isSome_iff_exists.mp (t.sound chunk hmem)
    have hstays : gone chunk.turnId row = false := by
      by_contra hgone
      have hchunk := h chunk hmem row hrow (Bool.not_eq_false _ ▸ hgone)
      rw [hchunk] at hid
      exact nomatch hid.2
    rw [OrdMap.get?_filter, hrow, Option.filter_some, hstays]
    rfl
  owned chunk hchunk row hrow := by
    obtain ⟨id, hid⟩ := OrdMap.mem_values.mp hchunk
    rw [OrdMap.get?_filter, Option.filter_eq_some_iff] at hid
    rw [OrdMap.get?_filter, Option.filter_eq_some_iff] at hrow
    exact t.owned chunk (OrdMap.mem_values.mpr ⟨id, hid.1⟩) row hrow.1

/-- `upsertSourceTurn`: a new turn comes with chunks of its user. -/
def upsert (rh : Redaction.RedactionHost) (call : UpsertCall) (t : OwnedTables) : OwnedTables where
  toSourceTables := (upsertSourceTurn rh call t.toSourceTables).1
  owned chunk hchunk row hrow := by
    rcases upsertSourceTurn_cases rh call t.toSourceTables with ⟨hsame, -⟩ | ⟨hnone, hnew⟩
    · rw [hsame] at hchunk hrow
      exact t.owned chunk hchunk row hrow
    · obtain ⟨hturns, hchunks⟩ := createTurn_eq hnew
      rw [hturns, OrdMap.get?_set] at hrow
      rw [hchunks, List.mem_append] at hchunk
      rcases hchunk with hold | hnew
      · have hsome := t.sound chunk hold
        by_cases hid : chunk.turnId = call.turn.id
        · rw [hid, hnone] at hsome
          exact nomatch hsome
        · rw [if_neg hid] at hrow
          exact t.owned chunk hold row hrow
      · rw [if_pos (turnId_of_mem_chunkRows hnew)] at hrow
        obtain rfl := Option.some.inj hrow
        obtain ⟨e, he, rfl⟩ := List.mem_map.mp hnew
        obtain ⟨p, -, rfl⟩ := List.mem_map.mp he
        rfl

end OwnedTables

namespace SourceStore

/-! ### What names a turn -/

/-- The facts in a state that name a turn. -/
def factsIn (state : SourceLinkState) (userId turnId : String) (s : SourceStore) : Bool :=
  s.facts.any fun f => f.userId = userId ∧ f.turnId = some turnId ∧ f.state = some state

/-- What a transaction counts before it changes the class of a turn. -/
def linkedTo (userId turnId : String) (s : SourceStore) : Bool :=
  s.factsIn .linked userId turnId ||
    s.evidence.any fun e => e.userId = userId ∧ e.turnId = turnId ∧ e.state = .linked

/-- The facts of a user that name a turn, or any of some turns, no longer do. -/
def unlinkFacts (userId : String) (names : String → FactLink → Bool) (s : SourceStore) :
    SourceStore :=
  { s with facts := s.facts.mapEntries fun id f =>
      if f.userId = userId ∧ names id f then
        { f with turnId := none, hmac := none, state := some .unavailable }
      else f }

/-- The retention of a turn, where `p` holds of its row. -/
def setRetention (turnId : String) (p : TurnRow → Bool) (retentionClass : String)
    (retainUntil : Option Int) (s : SourceStore) : SourceStore :=
  { s with
    tables := s.tables.update
      (fun id row => if id = turnId ∧ p row then
        { row with retentionClass := some retentionClass } else row)
      fun id row => by split <;> rfl
    retainUntil :=
      if (s.tables.turns.get? turnId).any p then
        match retainUntil with
        | some ms => s.retainUntil.set turnId ms
        | none => s.retainUntil.erase turnId
      else s.retainUntil }

/-- Turns are deleted, with their chunks. -/
def deleteTurns (gone : String → TurnRow → Bool) (goneChunk : ChunkRow → Bool) (s : SourceStore)
    (h : ∀ chunk ∈ s.tables.chunks.values, ∀ row, s.tables.turns.get? chunk.turnId = some row →
      gone chunk.turnId row = true → goneChunk chunk = true) : SourceStore :=
  { s with
    tables := s.tables.delete gone goneChunk h
    retainUntil := s.retainUntil.filter fun id _ => !(s.tables.turns.get? id).any (gone id) }

/-! ### Storing a turn -/

/-- `365 * 24 * 3600 * 1000`. -/
def retention : Int := 365 * 24 * 3600 * 1000

/-- `upsertSourceTurn`, with the time the turn is retained until.  A date that is none makes the
call throw. -/
def upsert (host : Host) (rh : Redaction.RedactionHost) (call : UpsertCall) (s : SourceStore) :
    SourceStore × UpsertResult :=
  match (upsertSourceTurn rh call s.tables.toSourceTables).2 with
  | .created =>
      match host.dateParse call.turn.occurredAt with
      | none => (s, .failed)
      | some occurred =>
          ({ s with
              tables := s.tables.upsert rh call
              retainUntil := s.retainUntil.set call.turn.id (occurred + retention) }, .created)
  | result => (s, result)

/-! ### Marking a fact -/

def markFactSourceLink (crypto : Crypto) (call : MarkCall) (s : SourceStore) : SourceStore :=
  if call.turn.isSome && !call.keyAllowed then s
  else if call.evidenceOnly then
    match call.evidenceTurn with
    | none => s
    | some turn =>
        let row : EvidenceRow :=
          { userId := call.userId
            factId := call.factId
            turnId := turn.id
            scope := turn.scope.name
            contentHmac := turn.contentHmac
            keyFingerprint := turn.keyFingerprint
            state := .pending }
        { s with
          evidence := s.evidence.set (evidenceId crypto call.userId call.factId turn.id) row }
  else
    { s with facts := s.facts.mapEntries fun id f =>
        if id = call.factId ∧ f.userId = call.userId then call.apply f else f }

/-! ### Reconciling a turn -/

/-- The turn is stored as it is given. -/
def isStored (turn : SourceTurn) (s : SourceStore) : Bool :=
  (s.tables.turns.get? turn.id).any fun row =>
    row.userId = turn.userId ∧ row.scope = some turn.scope.name ∧
      row.contentHmac = some turn.contentHmac ∧ row.keyFingerprint = some turn.keyFingerprint

/-- The pending links to a turn become linked. -/
def linkPending (turn : SourceTurn) (s : SourceStore) : SourceStore :=
  { s with
    facts := s.facts.mapEntries fun _ f =>
      if f.userId = turn.userId ∧ f.turnId = some turn.id ∧ f.hmac = some turn.contentHmac ∧
          f.state = some .pending ∧ f.keyFingerprint = some turn.keyFingerprint ∧
          f.scope = some turn.scope.name then
        { f with state := some .linked }
      else f
    evidence := s.evidence.mapEntries fun _ e =>
      if e.userId = turn.userId ∧ e.turnId = turn.id ∧ e.contentHmac = turn.contentHmac ∧
          e.keyFingerprint = turn.keyFingerprint ∧ e.scope = turn.scope.name ∧
          e.state = .pending then
        { e with state := .linked }
      else e }

/-- The transaction of `reconcileSourceTurnLinks`. -/
def linkTurn (turn : SourceTurn) (s : SourceStore) : SourceStore :=
  let s := s.linkPending turn
  if s.linkedTo turn.userId turn.id then
    s.setRetention turn.id turn.owns "linked" none
  else s

def reconcileSourceTurnLinks (turn : SourceTurn) (keyAllowed : Bool) (s : SourceStore) :
    SourceStore :=
  if keyAllowed && s.isStored turn then s.linkTurn turn else s

/-! ### Unlinking a fact -/

/-- The turns a fact of a user names, itself or by its evidence. -/
def affectedTurnIds (userId factId : String) (s : SourceStore) : List String :=
  (((s.facts.get? factId).filter fun f => f.userId = userId).bind fun f =>
    f.turnId.filter Text.truthy).toList ++
  (s.evidence.values.filter fun e => e.userId = userId ∧ e.factId = factId).map (·.turnId)

/-- A turn that is not linked to is to expire. -/
def release (userId : String) (retainUntil : Int) (s : SourceStore) (turnId : String) :
    SourceStore :=
  if s.linkedTo userId turnId then s
  else s.setRetention turnId (fun row => row.userId = userId) "unlinked" (some retainUntil)

/-- A fact of a user names no turn, and has no evidence. -/
def dropFact (userId factId : String) (s : SourceStore) : SourceStore :=
  { s.unlinkFacts userId fun id _ => id = factId with
    evidence := s.evidence.filter fun _ e => !decide (e.userId = userId ∧ e.factId = factId) }

/-- The transaction of `unlinkFactSource`. -/
def releaseFact (userId factId : String) (affected : List String) (retainUntil : Int)
    (s : SourceStore) : SourceStore :=
  affected.foldl (release userId retainUntil) (s.dropFact userId factId)

/-- A date that is none makes the call throw. -/
def unlinkFactSource (host : Host) (userId factId nowIso : String) (s : SourceStore) : SourceStore :=
  match host.dateParse nowIso with
  | none => s
  | some now => s.releaseFact userId factId (s.affectedTurnIds userId factId) (now + retention)

/-! ### Erasing -/

/-- The ids of the turns of a user, of one session or of all. -/
def turnIdsOf (userId : String) (sessionId : Option String) (s : SourceStore) : List String :=
  (s.tables.turns.entries.filter fun e =>
    e.2.userId = userId ∧ sessionId.all fun id => e.2.sessionId = id).map (·.1)

/-- Of a user, the turns with such ids go, with what names them. -/
def erase (userId : String) (gone : String → Bool) (s : SourceStore) : SourceStore :=
  let s := s.unlinkFacts userId fun _ f => f.turnId.any gone
  { s with evidence := s.evidence.filter fun _ e =>
      !(decide (e.userId = userId) && gone e.turnId) }.deleteTurns
    (fun id row => decide (row.userId = userId) && gone id)
    (fun chunk => decide (chunk.userId = userId) && gone chunk.turnId)
    fun chunk hchunk row hrow hgone => by
      rw [s.tables.owned chunk hchunk row hrow]
      exact hgone

/-- The transaction of `forgetSourceSession`. -/
def eraseTurns (userId : String) (ids : List String) (s : SourceStore) : SourceStore :=
  s.erase userId ids.contains

/-- The transaction of `forgetSourceUser`. -/
def eraseUser (userId : String) (s : SourceStore) : SourceStore := s.erase userId fun _ => true

/-! ### Expiry -/

/-- A turn that no link retains, and whose time has passed. -/
def expired (cutoff : Int) (s : SourceStore) (id : String) (row : TurnRow) : Bool :=
  decide (row.retentionClass = some "unlinked") &&
    (s.retainUntil.get? id).any fun ms => decide (ms < cutoff)

/-- `deleteExpiredSessionTurns`. -/
def deleteExpired (cutoff : Int) (s : SourceStore) : SourceStore :=
  s.deleteTurns (s.expired cutoff)
    (fun chunk => (s.tables.turns.get? chunk.turnId).any (s.expired cutoff chunk.turnId))
    fun _ _ row hrow hgone => by
      rw [hrow]
      exact hgone

end SourceStore

end Runir
