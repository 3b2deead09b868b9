import Runir.Lib.Distinct
import Runir.Recall.Excerpts
import Runir.Store.SourceTurns

/-!
# Recall — Verified sources

`src/storage/surreal/verified-source-turns.ts`: the turn a memory was taken from, read back.

* `verifiedSourceEligible`: whether a turn may be shown for a fact.
* `readVerifiedSourceTurns`: the chunks of the turn of each fact, joined and checked.
* `readVerifiedSourceTurns_stored`: what was stored is read, where it has between one and
  64 chunks.
-/

namespace Runir
open Recall (VerifiedSource)

/-- The columns of `semiote` that are read. -/
structure SourceFactRow where
  userId : String
  active : Bool
  invalidAt : Option String := none
  supersededBy : Option String := none
  payloadInvalidAt : Option String := none
  payloadIsStale : Bool := false
  payloadSupersededById : Option String := none
  sourceTurnId : Option String
  sourceTurnLinkState : Option String
  sourceTurnHmac : Option String
  sourceTurnKeyFingerprint : Option String
  scope : Option String
  teamId : Option String := none
  projectKey : Option String := none
  path : Option String := none
  sessionId : Option String := none

structure SourceBoundary where
  userId : String
  sessionId : Option String := none

def scopeOf (v : Option String) : String :=
  match v.filter Text.truthy with
  | none => "user"
  | some s => if s = "NONE" then "user" else s

/-- A fact that is current, by its columns and by its payload. -/
def SourceFactRow.isCurrent (fact : SourceFactRow) : Bool :=
  fact.active && (fact.invalidAt.or fact.payloadInvalidAt).isNone && fact.supersededBy.isNone &&
    !fact.payloadIsStale && fact.payloadSupersededById.isNone

section
variable (crypto : Crypto)

/-- `verifiedSourceEligible`, for a fact and the turn its link names. -/
def verifiedSourceEligible (fact : SourceFactRow) (turn : TurnRow) (text : List Char)
    (boundary : SourceBoundary) (hmacKey : String) : Bool :=
  let linked := fact.sourceTurnLinkState = some "linked"
  let legacy := fact.sourceTurnLinkState = some "legacy"
  let fingerprint := sourceKeyFingerprint crypto hmacKey
  decide (hmacKey ≠ "") && decide (boundary.userId ≠ "") && fact.isCurrent &&
    decide (linked ∨ legacy) &&
    decide (legacy → turn.identityQuality = some "legacy_payload" ∧
      turn.retentionClass = some "linked") &&
    decide (fact.userId = boundary.userId) && decide (turn.userId = fact.userId) &&
    decide (turn.role = "user" ∨ turn.role = "assistant") &&
    decide (scopeOf fact.scope = scopeOf turn.scope) &&
    decide (fact.teamId.isSome → fact.teamId = turn.teamId) &&
    decide (fact.projectKey.isSome → fact.projectKey = turn.projectKey) &&
    decide (turn.path.isSome → turn.path = fact.path) &&
    decide (scopeOf turn.scope = "session" → boundary.sessionId.any Text.truthy ∧
      some turn.sessionId = boundary.sessionId ∧ some turn.sessionId = fact.sessionId) &&
    decide (fact.sourceTurnKeyFingerprint = some fingerprint) &&
    decide (turn.keyFingerprint = some fingerprint) &&
    decide (fact.sourceTurnHmac = turn.contentHmac) &&
    decide (turn.contentHmac = some (crypto.hmac hmacKey (String.ofList text)))

/-- The tables a source is read from. -/
structure SourceDb where
  facts : OrdMap String SourceFactRow
  tables : SourceTables

/-- The first 200 ids that are asked for. -/
def askedIds (factIds : List String) : List String :=
  (distinct (factIds.filter Text.truthy)).take 200

/-- The chunks of a turn, in order, where all of them are there and there are not too many. -/
def chunkTexts (turn : TurnRow) (rows : List ChunkRow) : Option (List (List Char)) :=
  let rows := rows.insertionSort fun a b => a.chunkIndex ≤ b.chunkIndex
  match turn.chunkCount with
  | none => none
  | some count =>
      if count < 1 ∨ 64 < count ∨ rows.length ≠ count then none
      else if rows.map (·.chunkIndex) = List.range rows.length then some (rows.map (·.content))
      else none

/-- The source of one fact. -/
def verifiedSource (db : SourceDb) (boundary : SourceBoundary) (hmacKey factId : String) :
    Option VerifiedSource := do
  let fact ← (db.facts.get? factId).filter fun fact =>
    fact.isCurrent && decide (fact.userId = boundary.userId) &&
      decide (fact.sourceTurnLinkState = some "linked" ∨ fact.sourceTurnLinkState = some "legacy")
  let turnId ← fact.sourceTurnId.filter Text.truthy
  let turn ← (db.tables.turns.get? turnId).filter fun turn => turn.userId = boundary.userId
  let texts ← chunkTexts turn ((db.tables.chunksOf turnId).filter fun chunk =>
    chunk.userId = boundary.userId)
  if verifiedSourceEligible crypto fact turn texts.flatten boundary hmacKey then
    some
      { factId := factId
        turnId := turnId
        text := texts.flatten
        client := turn.client.getD ""
        role := turn.role
        occurredAt :=
          if turn.identityQuality = some "content_only" ∨
              turn.identityQuality = some "legacy_payload" then none else turn.occurredAt
        identityQuality := turn.identityQuality.getD ""
        truncated := turn.truncated }
  else none

def readVerifiedSourceTurns (db : SourceDb) (factIds : List String) (boundary : SourceBoundary)
    (hmacKey : String) : OrdMap String VerifiedSource :=
  if hmacKey = "" then .empty
  else
    .ofList ((askedIds factIds).filterMap fun factId =>
      (verifiedSource crypto db boundary hmacKey factId).map fun source => (factId, source))

end

/-! ### What was stored is read -/

/-- Keys that are kept are those there were, some left out. -/
theorem sublist_keys {κ ν : Type*} (f : κ → Option ν) (ks : List κ) :
    ((ks.filterMap fun k => (f k).map fun v => (k, v)).map Prod.fst).Sublist ks := by
  induction ks with
  | nil => exact List.Sublist.slnil
  | cons k ks ih =>
      rw [List.filterMap_cons]
      cases f k with
      | none => exact ih.cons k
      | some v => exact ih.cons_cons k

variable {crypto : Crypto}

/-- A fact that is asked for is answered by its source. -/
theorem get?_readVerifiedSourceTurns {db : SourceDb} {factIds : List String}
    {boundary : SourceBoundary} {hmacKey factId : String} (hkey : hmacKey ≠ "")
    (hasked : factId ∈ askedIds factIds) :
    (readVerifiedSourceTurns crypto db factIds boundary hmacKey).get? factId =
      verifiedSource crypto db boundary hmacKey factId := by
  unfold readVerifiedSourceTurns
  rw [if_neg hkey]
  refine Option.ext fun source => ⟨fun h => ?_, fun h => ?_⟩
  · obtain ⟨id, -, hsource⟩ := List.mem_filterMap.mp (OrdMap.mem_of_get?_ofList h)
    obtain ⟨source', hsource', heq⟩ := Option.map_eq_some_iff.mp hsource
    obtain ⟨rfl, rfl⟩ := Prod.mk.inj heq
    exact hsource'
  · have hnodup : (((askedIds factIds).filterMap fun factId =>
        (verifiedSource crypto db boundary hmacKey factId).map fun source =>
          (factId, source)).map Prod.fst).Nodup := by
      have hasked : (askedIds factIds).Nodup := (nodup_distinct _).sublist (List.take_sublist _ _)
      exact hasked.sublist (sublist_keys _ _)
    rw [OrdMap.get?_ofList_of_nodup hnodup, OrdMap.find_eq_some hnodup]
    exact List.mem_filterMap.mpr ⟨factId, hasked, by rw [h]; rfl⟩

/-- A current fact of the same user, scope, project and path, which is linked to a turn under its
key; and who reads it. -/
structure LinkedTo (fact : SourceFactRow) (turn : SourceTurn) (boundary : SourceBoundary) :
    Prop where
  current : fact.isCurrent = true
  user : fact.userId = turn.userId
  reader : boundary.userId = turn.userId
  link : fact.sourceTurnLinkState = some "linked"
  turnId : fact.sourceTurnId = some turn.id
  scope : scopeOf fact.scope = scopeOf (some turn.scope.name)
  team : fact.teamId.isSome → fact.teamId = turn.teamId
  project : fact.projectKey = turn.projectKey
  path : fact.path = turn.path
  session : turn.scope = .session →
    boundary.sessionId = some turn.sessionId ∧ fact.sessionId = some turn.sessionId
  hmac : fact.sourceTurnHmac = some turn.contentHmac
  key : fact.sourceTurnKeyFingerprint = some turn.keyFingerprint

theorem scopeOf_eq_session (scope : TurnScope) :
    scopeOf (some scope.name) = "session" → scope = .session := by
  cases scope <;> decide

/-- The stored turn may be shown for a fact that is linked to it. -/
theorem eligible_of_linked {rh : Redaction.RedactionHost} {input : SourceTurnInput rh}
    {hmacKey : String} {turn : SourceTurn} {fact : SourceFactRow} {boundary : SourceBoundary}
    (hturn : prepareSourceTurn crypto input hmacKey = some turn)
    (hlinked : LinkedTo fact turn boundary) :
    verifiedSourceEligible crypto fact (turnRow turn) turn.content.toList boundary hmacKey =
      true := by
  obtain ⟨hkey, huser, hsession, -, hhmac, hfingerprint⟩ := prepareSourceTurn_some hturn
  unfold verifiedSourceEligible
  simp only [Bool.and_eq_true, decide_eq_true_eq]
  have hrole : (turnRow turn).role = "user" ∨ (turnRow turn).role = "assistant" := by
    unfold turnRow
    cases turn.role
    · exact .inl rfl
    · exact .inr rfl
  have hlegacy : fact.sourceTurnLinkState ≠ some "legacy" := by
    rw [hlinked.link]
    decide
  refine ⟨⟨⟨⟨⟨⟨⟨⟨⟨⟨⟨⟨⟨⟨⟨⟨hkey, hlinked.reader ▸ huser⟩, hlinked.current⟩, .inl hlinked.link⟩,
    fun h => absurd h hlegacy⟩, hlinked.user.trans hlinked.reader.symm⟩, hlinked.user.symm⟩, hrole⟩,
    hlinked.scope⟩, hlinked.team⟩, fun _ => hlinked.project⟩, fun _ => hlinked.path.symm⟩,
    fun hscope => ?_⟩, ?_⟩, ?_⟩, hlinked.hmac⟩, ?_⟩
  · obtain ⟨hreader, hfact⟩ := hlinked.session (scopeOf_eq_session turn.scope hscope)
    refine ⟨?_, hreader.symm, hfact.symm⟩
    rw [hreader]
    exact bne_iff_ne.mpr hsession
  · rw [hlinked.key, hfingerprint]
  · exact congrArg some hfingerprint
  · rw [String.ofList_toList]
    exact congrArg some hhmac

theorem chunkIndex_chunkRows (turn : SourceTurn) :
    ((chunkRows turn).map (·.2)).map (·.chunkIndex) =
      List.range (chunkSourceTurn turn.content).length := by
  unfold chunkRows
  rw [List.map_map, List.map_map, List.range_eq_range', ← List.zipIdx_map_snd 0]
  rfl

theorem content_chunkRows (turn : SourceTurn) :
    ((chunkRows turn).map (·.2)).map (·.content) = chunkSourceTurn turn.content := by
  unfold chunkRows
  rw [List.map_map, List.map_map]
  exact List.zipIdx_map_fst 0 _

theorem length_chunkRows (turn : SourceTurn) :
    ((chunkRows turn).map (·.2)).length = (chunkSourceTurn turn.content).length := by
  exact (List.length_map _).symm.trans (congrArg List.length (content_chunkRows turn))

/-- The chunks of a turn are read in the order they were written. -/
theorem chunkTexts_chunkRows (turn : SourceTurn) :
    chunkTexts (turnRow turn) ((chunkRows turn).map (·.2)) =
      if 1 ≤ (chunkSourceTurn turn.content).length ∧ (chunkSourceTurn turn.content).length ≤ 64 then
        some (chunkSourceTurn turn.content)
      else none := by
  have hsorted : ((chunkRows turn).map (·.2)).Pairwise fun a b => a.chunkIndex ≤ b.chunkIndex := by
    rw [← List.pairwise_map (f := ChunkRow.chunkIndex) (R := (· ≤ ·)), chunkIndex_chunkRows]
    exact List.pairwise_le_range
  unfold chunkTexts
  dsimp only [turnRow]
  rw [hsorted.insertionSort_eq, length_chunkRows, chunkIndex_chunkRows, content_chunkRows,
    if_pos rfl]
  by_cases hrange : 1 ≤ (chunkSourceTurn turn.content).length ∧
      (chunkSourceTurn turn.content).length ≤ 64
  · rw [if_pos hrange, if_neg (by omega)]
  · rw [if_neg hrange, if_pos (by omega)]

/-- A turn that is kept is read, where it has between one and 64 chunks. -/
theorem text_of_kept {rh : Redaction.RedactionHost} {input : SourceTurnInput rh} {hmacKey : String}
    {turn : SourceTurn} {db : SourceDb} {factId : String} {fact : SourceFactRow}
    {boundary : SourceBoundary} (hturn : prepareSourceTurn crypto input hmacKey = some turn)
    (hkept : Kept db.tables turn) (hfact : db.facts.get? factId = some fact)
    (hlinked : LinkedTo fact turn boundary) :
    (verifiedSource crypto db boundary hmacKey factId).map (·.text) =
      if 1 ≤ (chunkSourceTurn turn.content).length ∧ (chunkSourceTurn turn.content).length ≤ 64 then
        some turn.content.toList
      else none := by
  have hcurrent : (fact.isCurrent && decide (fact.userId = boundary.userId) &&
      decide (fact.sourceTurnLinkState = some "linked" ∨
        fact.sourceTurnLinkState = some "legacy")) = true := by
    rw [hlinked.current, hlinked.user, hlinked.reader, hlinked.link]
    simp
  have hrows : ((db.tables.chunksOf turn.id).filter fun chunk => chunk.userId = boundary.userId) =
      (chunkRows turn).map (·.2) := by
    rw [hkept.chunks, hlinked.reader]
    refine List.filter_eq_self.mpr fun chunk hchunk => ?_
    unfold chunkRows at hchunk
    rw [List.map_map] at hchunk
    obtain ⟨p, -, rfl⟩ := List.mem_map.mp hchunk
    exact decide_eq_true rfl
  have hid : Text.truthy turn.id = true := bne_iff_ne.mpr (prepareSourceTurn_some hturn).2.2.2.1
  have huser : (turnRow turn).userId = boundary.userId := hlinked.reader.symm
  unfold verifiedSource
  simp only [hfact, Option.filter_some, if_pos hcurrent, hlinked.turnId, if_pos hid, hkept.row,
    if_pos (decide_eq_true huser), hrows, chunkTexts_chunkRows, Option.bind_eq_bind,
    Option.bind_some]
  by_cases hrange : 1 ≤ (chunkSourceTurn turn.content).length ∧
      (chunkSourceTurn turn.content).length ≤ 64
  · rw [if_pos hrange, if_pos hrange, Option.bind_some, flatten_chunkSourceTurn,
      if_pos (eligible_of_linked hturn hlinked)]
    rfl
  · rw [if_neg hrange, if_neg hrange]
    rfl

theorem kept_storeTurns {rh : Redaction.RedactionHost} {before after : List UpsertCall}
    {call : UpsertCall}
    (hcreated : (upsertSourceTurn rh call (storeTurns rh before .empty)).2 = .created) :
    Kept (storeTurns rh (before ++ call :: after) .empty) call.turn := by
  unfold storeTurns
  rw [List.foldl_append, List.foldl_cons]
  exact (kept_of_created hcreated).storeTurns after

/-- Whatever is stored before it and after it, a turn is read back where it has between one and
64 chunks, and only there. -/
theorem readVerifiedSourceTurns_stored {crypto : Crypto} {rh : Redaction.RedactionHost}
    {input : SourceTurnInput rh} {hmacKey : String} (before after : List UpsertCall)
    {call : UpsertCall} (hturn : prepareSourceTurn crypto input hmacKey = some call.turn)
    (hcreated : (upsertSourceTurn rh call (storeTurns rh before .empty)).2 = .created)
    {facts : OrdMap String SourceFactRow} {factId : String} {fact : SourceFactRow}
    (hfact : facts.get? factId = some fact) {boundary : SourceBoundary}
    (hlinked : LinkedTo fact call.turn boundary) {factIds : List String}
    (hasked : factId ∈ askedIds factIds) :
    ((readVerifiedSourceTurns crypto ⟨facts, storeTurns rh (before ++ call :: after) .empty⟩ factIds
        boundary hmacKey).get? factId).map (·.text) = some call.turn.content.toList ↔
      1 ≤ (chunkSourceTurn call.turn.content).length ∧
        (chunkSourceTurn call.turn.content).length ≤ 64 := by
  rw [get?_readVerifiedSourceTurns (prepareSourceTurn_some hturn).1 hasked,
    text_of_kept hturn (kept_storeTurns hcreated) hfact hlinked]
  by_cases hrange : 1 ≤ (chunkSourceTurn call.turn.content).length ∧
      (chunkSourceTurn call.turn.content).length ≤ 64
  · rw [if_pos hrange]
    exact iff_of_true rfl hrange
  · rw [if_neg hrange]
    exact iff_of_false (fun h => nomatch h) hrange

/-! ### A text of more than 64 chunks -/

/-- A message of some user. -/
def messageInput (content : List Char) : SourceTurnInput plainRedactionHost where
  userId := "u"
  client := "c"
  sessionId := "s"
  role := .user
  content := String.ofList content
  occurredAt := "2026-01-01T00:00:00.000Z"
  scope := .user

/-- A memory that is linked to a turn. -/
def factOfTurn (turn : SourceTurn) : SourceFactRow where
  userId := turn.userId
  active := true
  sourceTurnId := some turn.id
  sourceTurnLinkState := some "linked"
  sourceTurnHmac := some turn.contentHmac
  sourceTurnKeyFingerprint := some turn.keyFingerprint
  scope := some turn.scope.name
  teamId := turn.teamId
  projectKey := turn.projectKey
  path := turn.path
  sessionId := some turn.sessionId

def boundaryOfTurn (turn : SourceTurn) : SourceBoundary := ⟨turn.userId, some turn.sessionId⟩

theorem linkedTo_factOfTurn (turn : SourceTurn) :
    LinkedTo (factOfTurn turn) turn (boundaryOfTurn turn) where
  current := rfl
  user := rfl
  reader := rfl
  link := rfl
  turnId := rfl
  scope := rfl
  team _ := rfl
  project := rfl
  path := rfl
  session _ := ⟨rfl, rfl⟩
  hmac := rfl
  key := rfl

/-- The tables with one turn, and one memory that is linked to it. -/
def dbOfTurn (turn : SourceTurn) : SourceDb where
  facts := OrdMap.set .empty "f" (factOfTurn turn)
  tables := storeTurns plainRedactionHost [{ turn := turn }] .empty

/-- A message without anything to redact, which is not too long, is stored as it is. -/
theorem exists_prepared {A : List Char} (h : Redaction.Untouched A)
    (hnul : A.contains (Char.ofNat 0) = false) {content : List Char} (hover : Regex.Over A content)
    (hshort : utf8Length content ≤ maxSourceBytes) :
    ∃ turn, prepareSourceTurn plainCrypto (messageInput content) "k" = some turn ∧
      turn.content = String.ofList content := by
  have hredacted : redactedContent (messageInput content) = some content := by
    unfold redactedContent messageInput
    rw [String.toList_ofList, Redaction.redactSourceTurn_of_untouched plainRedactionHost h hover]
    rfl
  have hplain : (messageInput content).content.toList.contains (Char.ofNat 0) = false := by
    unfold messageInput
    rw [String.toList_ofList, Bool.eq_false_iff]
    intro hmem
    rw [List.contains_iff_mem.mpr (hover _ (List.contains_iff_mem.mp hmem))] at hnul
    exact nomatch hnul
  have hwhole : truncateSource content = content := if_neg (Nat.not_lt.mpr hshort)
  unfold prepareSourceTurn
  have hgiven : ¬("k" = "" ∨ (messageInput content).userId = "" ∨
      (messageInput content).sessionId = "" ∨ (messageInput content).client = "") := by
    unfold messageInput
    dsimp only
    decide
  rw [if_neg hgiven, hplain, if_neg Bool.false_ne_true, hredacted]
  exact ⟨_, rfl, congrArg String.ofList hwhole⟩

/-- A message whose content is read back. -/
theorem readVerifiedSourceTurns_hello :
    ∃ turn, prepareSourceTurn plainCrypto (messageInput "hello".toList) "k" = some turn ∧
      ((readVerifiedSourceTurns plainCrypto (dbOfTurn turn) ["f"] (boundaryOfTurn turn) "k").get?
        "f").map (·.text) = some "hello".toList := by
  have huntouched : Redaction.Untouched "helo".toList := ⟨by decide, by decide, by decide⟩
  have hover : Regex.Over "helo".toList "hello".toList := by decide
  obtain ⟨turn, hturn, hcontent⟩ := exists_prepared huntouched (by decide) hover (by decide)
  have hcreated : (upsertSourceTurn plainRedactionHost { turn := turn }
      (storeTurns plainRedactionHost [] .empty)).2 = .created :=
    upsertSourceTurn_empty plainRedactionHost turn
  have hfact : (dbOfTurn turn).facts.get? "f" = some (factOfTurn turn) :=
    OrdMap.get?_set_self .empty "f" (factOfTurn turn)
  have hasked : "f" ∈ askedIds ["f"] := by decide
  have hread := readVerifiedSourceTurns_stored [] [] hturn hcreated hfact (linkedTo_factOfTurn turn)
    hasked
  have hchunks : 1 ≤ (chunkSourceTurn turn.content).length ∧
      (chunkSourceTurn turn.content).length ≤ 64 := by
    rw [hcontent]
    decide
  refine ⟨turn, hturn, ?_⟩
  have htext := hread.mpr hchunks
  rwa [hcontent, String.toList_ofList] at htext

/-- A text of one character, which takes three bytes. -/
def cjkText (n : Nat) : List Char := List.replicate n '中'

theorem utf8Length_cjkText (n : Nat) : utf8Length (cjkText n) = 3 * n := by
  induction n with
  | zero => rfl
  | succ n ih =>
      have hsize : '中'.utf8Size = 3 := by decide
      unfold cjkText at ih ⊢
      rw [List.replicate_succ, utf8Length_cons, ih, hsize]
      omega

theorem takeBytes_cjkText (max n : Nat) :
    takeBytes max (cjkText n) = cjkText (min n (max / 3)) := by
  induction n generalizing max with
  | zero => rw [Nat.zero_min]; rfl
  | succ n ih =>
      have hsize : '中'.utf8Size = 3 := by decide
      unfold cjkText at ih ⊢
      rw [List.replicate_succ, takeBytes, hsize]
      split
      · rename_i hlt
        have hmin : min (n + 1) (max / 3) = 0 := by omega
        rw [hmin]
        rfl
      · rename_i hle
        have hmin : min (n + 1) (max / 3) = min n ((max - 3) / 3) + 1 := by omega
        rw [ih, hmin, List.replicate_succ]

/-- There is no boundary in it. -/
theorem boundary_cjkText (n : Nat) : boundary (cjkText n) = none := by
  have hlast : ∀ {needle : List Char}, needle ≠ [] → needle.head? ≠ some '中' →
      lastIndexOf needle (cjkText n) = none := by
    intro needle hne hhead
    unfold cjkText
    induction n with
    | zero => exact if_neg hne
    | succ n ih =>
        rw [List.replicate_succ, lastIndexOf, ih]
        refine if_neg fun hpre => hhead ?_
        cases needle with
        | nil => exact absurd rfl hne
        | cons c cs => rw [(List.cons_prefix_cons.mp hpre).1]; rfl
  unfold boundary
  rw [hlast (by decide) (by decide), hlast (by decide) (by decide)]
  rfl

/-- Every chunk but the last has 1365 characters. -/
theorem length_chunksFrom_cjkText (k : Nat) {r fuel : Nat} (hr : 1 ≤ r) (hr' : r ≤ 1365)
    (hfuel : k ≤ fuel) : (chunksFrom 4096 fuel (cjkText (1365 * k + r))).length = k + 1 := by
  have hsome : ∀ n, cjkText (n + 1) ≠ [] := fun n => List.cons_ne_nil _ _
  induction k generalizing fuel with
  | zero =>
      have hne : cjkText (1365 * 0 + r) ≠ [] := by
        obtain ⟨m, rfl⟩ := Nat.exists_eq_add_of_le' hr
        rw [Nat.mul_zero, Nat.zero_add]
        exact hsome m
      cases fuel with
      | zero =>
          unfold chunksFrom
          rw [if_neg hne]
          rfl
      | succ fuel =>
          unfold chunksFrom
          rw [utf8Length_cjkText, if_neg (by omega), if_neg hne]
          rfl
  | succ k ih =>
      obtain ⟨fuel, rfl⟩ := Nat.exists_eq_add_of_le' (Nat.le_trans (Nat.succ_pos k) hfuel)
      have hfront : takeBytes 4096 (cjkText (1365 * (k + 1) + r)) = cjkText 1365 := by
        have hmin : min (1365 * (k + 1) + r) (4096 / 3) = 1365 := by omega
        rw [takeBytes_cjkText, hmin]
      have hsplit : splitPoint (cjkText 1365) = 1365 := by
        unfold splitPoint
        rw [boundary_cjkText]
        exact List.length_replicate
      have hdrop : (cjkText (1365 * (k + 1) + r)).drop 1365 = cjkText (1365 * k + r) := by
        have hrest : 1365 * (k + 1) + r - 1365 = 1365 * k + r := by omega
        unfold cjkText
        rw [List.drop_replicate, hrest]
      unfold chunksFrom
      rw [utf8Length_cjkText, if_pos (by omega), hfront]
      dsimp only
      rw [hsplit, hdrop, List.length_cons, ih (by omega)]

/-- A text that is not too long, and has 65 chunks, is stored and never read. -/
theorem readVerifiedSourceTurns_cjk :
    ∃ turn, prepareSourceTurn plainCrypto (messageInput (cjkText 87381)) "k" = some turn ∧
      (upsertSourceTurn plainRedactionHost { turn := turn } .empty).2 = .created ∧
        (readVerifiedSourceTurns plainCrypto (dbOfTurn turn) ["f"] (boundaryOfTurn turn) "k").get?
          "f" = none := by
  have huntouched : Redaction.Untouched ['中'] := ⟨by decide, by decide, by decide⟩
  have hover : Regex.Over ['中'] (cjkText 87381) := fun c hc =>
    List.mem_singleton.mpr (List.eq_of_mem_replicate hc)
  have hshort : utf8Length (cjkText 87381) ≤ maxSourceBytes := by
    rw [utf8Length_cjkText]
    decide
  obtain ⟨turn, hturn, hcontent⟩ := exists_prepared huntouched (by decide) hover hshort
  have hcreated := upsertSourceTurn_empty plainRedactionHost turn
  refine ⟨turn, hturn, hcreated, ?_⟩
  have hchunks : (chunkSourceTurn turn.content).length = 65 := by
    have hlength : (cjkText 87381).length = 87381 := List.length_replicate
    unfold chunkSourceTurn
    rw [hcontent, String.toList_ofList, hlength]
    exact length_chunksFrom_cjkText 64 (r := 21) (by decide) (by decide) (by decide)
  have hasked : "f" ∈ askedIds ["f"] := by decide
  have hkept : Kept (dbOfTurn turn).tables turn := kept_of_created hcreated
  have hfact : (dbOfTurn turn).facts.get? "f" = some (factOfTurn turn) :=
    OrdMap.get?_set_self .empty "f" (factOfTurn turn)
  have htext := text_of_kept hturn hkept hfact (linkedTo_factOfTurn turn)
  rw [if_neg (by omega)] at htext
  rw [get?_readVerifiedSourceTurns (by decide) hasked]
  exact Option.map_eq_none_iff.mp htext

end Runir
