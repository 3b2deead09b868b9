import Runir.Capture.SourceTurn

/-!
# Store — Source turns

`src/storage/surreal/session-turn-store.ts`: the rows of `session_turn` and `session_turn_chunk`.

* `SourceTables`: every chunk belongs to a turn that is there.
* `upsertSourceTurn`: the only writer of a retained turn.
* `Kept`: the rows of a turn are there as they were written; `kept_of_created`, `Kept.upsert`.

Of a turn's row the columns that are read are kept.
-/

namespace Runir

/-- A row of `session_turn`. -/
structure TurnRow where
  userId : String
  role : String
  scope : Option String
  teamId : Option String
  projectKey : Option String
  path : Option String
  sessionId : String
  identityQuality : Option String
  retentionClass : Option String
  keyFingerprint : Option String
  contentHmac : Option String
  chunkCount : Option Nat
  client : Option String
  occurredAt : Option String
  truncated : Bool

/-- A row of `session_turn_chunk`. -/
structure ChunkRow where
  userId : String
  turnId : String
  chunkIndex : Nat
  content : List Char

/-- The two tables, by record id. -/
structure SourceTables where
  turns : OrdMap String TurnRow
  chunks : OrdMap String ChunkRow
  sound : ∀ chunk ∈ chunks.values, (turns.get? chunk.turnId).isSome

def SourceTables.empty : SourceTables := ⟨.empty, .empty, fun _ h => nomatch h⟩

/-! ### Writing a turn -/

def turnRow (turn : SourceTurn) : TurnRow where
  userId := turn.userId
  role := turn.role.name
  scope := some turn.scope.name
  teamId := turn.teamId
  projectKey := turn.projectKey
  path := turn.path
  sessionId := turn.sessionId
  identityQuality := some turn.identityQuality.name
  retentionClass := some "unlinked"
  keyFingerprint := some turn.keyFingerprint
  contentHmac := some turn.contentHmac
  chunkCount := some (chunkSourceTurn turn.content).length
  client := some turn.client
  occurredAt := some turn.occurredAt
  truncated := turn.truncated

/-- The chunks of a turn, with their record ids. -/
def chunkRows (turn : SourceTurn) : List (String × ChunkRow) :=
  (chunkSourceTurn turn.content).zipIdx.map fun p =>
    (turn.id ++ "_" ++ toString p.2, ⟨turn.userId, turn.id, p.2, p.1⟩)

/-- `CREATE`, row by row; none of the ids may be taken. -/
def createChunks : List (String × ChunkRow) → OrdMap String ChunkRow →
    Option (OrdMap String ChunkRow)
  | [], m => some m
  | e :: es, m => if (m.get? e.1).isSome then none else createChunks es (m.set e.1 e.2)

theorem values_createChunks {es : List (String × ChunkRow)} {m m' : OrdMap String ChunkRow}
    (h : createChunks es m = some m') : m'.values = m.values ++ es.map (·.2) := by
  induction es generalizing m with
  | nil =>
      obtain rfl := Option.some.inj h
      rw [List.map_nil, List.append_nil]
  | cons e es ih =>
      unfold createChunks at h
      split at h
      · exact nomatch h
      · rename_i hfree
        have hnone : m.get? e.1 = none := Option.not_isSome_iff_eq_none.mp hfree
        have hset : (m.set e.1 e.2).values = m.values ++ [e.2] := by
          unfold OrdMap.values
          rw [OrdMap.entries_set_of_none hnone, List.map_append]
          rfl
        rw [ih h, hset, List.append_assoc]
        rfl

theorem turnId_of_mem_chunkRows {turn : SourceTurn} {chunk : ChunkRow}
    (h : chunk ∈ (chunkRows turn).map (·.2)) : chunk.turnId = turn.id := by
  unfold chunkRows at h
  rw [List.map_map] at h
  obtain ⟨p, -, rfl⟩ := List.mem_map.mp h
  rfl

/-- The transaction that creates a turn with its chunks. -/
def createTurn (turn : SourceTurn) (t : SourceTables) : Option SourceTables :=
  match h : createChunks (chunkRows turn) t.chunks with
  | none => none
  | some chunks =>
      some
        { turns := t.turns.set turn.id (turnRow turn)
          chunks := chunks
          sound := by
            intro chunk hchunk
            rw [values_createChunks h] at hchunk
            rw [OrdMap.get?_set]
            split
            · rfl
            · rename_i hother
              rcases List.mem_append.mp hchunk with hchunk | hchunk
              · exact t.sound chunk hchunk
              · exact absurd (turnId_of_mem_chunkRows hchunk) hother }

inductive UpsertResult where
  | created | seen | keyMismatch | unredacted | conflict | failed
  deriving DecidableEq

/-- A call of `upsertSourceTurn`, and how what it waits for ends. -/
structure UpsertCall where
  turn : SourceTurn
  /-- `isProvenSourceTurn(turn)`. -/
  proven : Bool := true
  /-- `assertSourceKeyFingerprint` returns. -/
  keyAllowed : Bool := true
  /-- Nothing but a row that is there stands against the transaction. -/
  commits : Bool := true

section
variable (rh : Redaction.RedactionHost)

def upsertSourceTurn (call : UpsertCall) (t : SourceTables) : SourceTables × UpsertResult :=
  let turn := call.turn
  if !call.keyAllowed then (t, .keyMismatch)
  else if !call.proven && decide (Redaction.redactSourceTurn rh turn.content.toList ≠
      some turn.content.toList) then (t, .unredacted)
  else
    match t.turns.get? turn.id with
    | some row =>
        if row.keyFingerprint ≠ some turn.keyFingerprint then (t, .keyMismatch)
        else if row.userId ≠ turn.userId ∨ row.contentHmac ≠ some turn.contentHmac then
          (t, .conflict)
        else (t, .seen)
    | none =>
        match createTurn turn t with
        | some t' => if call.commits then (t', .created) else (t, .failed)
        | none => (t, .failed)

/-- The tables after some calls. -/
def storeTurns (calls : List UpsertCall) (t : SourceTables) : SourceTables :=
  calls.foldl (fun t call => (upsertSourceTurn rh call t).1) t

end

/-! ### The ids of the chunks -/

theorem toString_injective : Function.Injective (toString : Nat → String) := by
  intro m n h
  have hdigits : Nat.toDigits 10 m = Nat.toDigits 10 n := by
    have hlist := congrArg String.toList h
    rwa [Nat.toString_eq_repr, Nat.toString_eq_repr, Nat.repr_eq_ofList_toDigits,
      Nat.repr_eq_ofList_toDigits, String.toList_ofList, String.toList_ofList] at hlist
  have hread := congrArg Json.natural hdigits
  rw [Json.natural_toDigits, Json.natural_toDigits] at hread
  exact Option.some.inj hread

theorem nodup_chunkRows (turn : SourceTurn) : ((chunkRows turn).map (·.1)).Nodup := by
  have hids : (chunkRows turn).map (·.1) =
      (List.range (chunkSourceTurn turn.content).length).map fun i =>
        turn.id ++ "_" ++ toString i := by
    unfold chunkRows
    rw [List.map_map, List.range_eq_range', ← List.zipIdx_map_snd 0, List.map_map]
    rfl
  rw [hids]
  refine List.Nodup.map (fun i j h => ?_) List.nodup_range
  exact toString_injective (String.append_right_inj _ |>.mp h)

theorem exists_createChunks {es : List (String × ChunkRow)} {m : OrdMap String ChunkRow}
    (hnodup : (es.map (·.1)).Nodup) (hfree : ∀ e ∈ es, m.get? e.1 = none) :
    ∃ m', createChunks es m = some m' := by
  induction es generalizing m with
  | nil => exact ⟨m, rfl⟩
  | cons e es ih =>
      obtain ⟨hnew, hrest⟩ := List.nodup_cons.mp hnodup
      unfold createChunks
      rw [hfree e List.mem_cons_self]
      refine ih hrest fun other hother => ?_
      have hne : other.1 ≠ e.1 := fun heq => hnew (List.mem_map.mpr ⟨other, hother, heq⟩)
      rw [OrdMap.get?_set_ne _ _ hne]
      exact hfree other (List.mem_cons_of_mem _ hother)

/-- In empty tables a turn can be created. -/
theorem upsertSourceTurn_empty (rh : Redaction.RedactionHost) (turn : SourceTurn) :
    (upsertSourceTurn rh { turn := turn } .empty).2 = .created := by
  obtain ⟨chunks, hchunks⟩ := exists_createChunks (m := OrdMap.empty) (nodup_chunkRows turn)
    fun _ _ => rfl
  have hcreate : (createTurn turn .empty).isSome := by
    unfold createTurn
    split
    · rename_i hnone
      exact nomatch hnone.symm.trans hchunks
    · rfl
  obtain ⟨t', ht'⟩ := Option.isSome_iff_exists.mp hcreate
  unfold upsertSourceTurn
  have hnone : SourceTables.empty.turns.get? turn.id = none := rfl
  simp only [Bool.not_true, Bool.false_and, Bool.false_eq_true, if_false, hnone, ht', if_true]

/-! ### What is kept of a turn -/

/-- The chunks of a turn id, in the order they were created. -/
def SourceTables.chunksOf (t : SourceTables) (turnId : String) : List ChunkRow :=
  t.chunks.values.filter fun chunk => chunk.turnId = turnId

/-- The rows of a turn are as they were written. -/
structure Kept (t : SourceTables) (turn : SourceTurn) : Prop where
  row : t.turns.get? turn.id = some (turnRow turn)
  chunks : t.chunksOf turn.id = (chunkRows turn).map (·.2)

variable {rh : Redaction.RedactionHost} {turn : SourceTurn} {t : SourceTables}

variable (rh) in
/-- What a call does: nothing, or a turn that was not there is. -/
theorem upsertSourceTurn_cases (call : UpsertCall) (t : SourceTables) :
    (upsertSourceTurn rh call t).1 = t ∧ (upsertSourceTurn rh call t).2 ≠ .created ∨
      t.turns.get? call.turn.id = none ∧
        createTurn call.turn t = some (upsertSourceTurn rh call t).1 := by
  unfold upsertSourceTurn
  dsimp only
  split
  · exact .inl ⟨rfl, fun h => nomatch h⟩
  · split
    · exact .inl ⟨rfl, fun h => nomatch h⟩
    · split
      · split
        · exact .inl ⟨rfl, fun h => nomatch h⟩
        · split <;> exact .inl ⟨rfl, fun h => nomatch h⟩
      · rename_i hnone
        split
        · rename_i t' hcreate
          split
          · exact .inr ⟨hnone, hcreate⟩
          · exact .inl ⟨rfl, fun h => nomatch h⟩
        · exact .inl ⟨rfl, fun h => nomatch h⟩

theorem createTurn_eq {t' : SourceTables} (h : createTurn turn t = some t') :
    t'.turns = t.turns.set turn.id (turnRow turn) ∧
      t'.chunks.values = t.chunks.values ++ (chunkRows turn).map (·.2) := by
  unfold createTurn at h
  split at h
  · exact nomatch h
  · rename_i chunks hchunks
    obtain rfl := Option.some.inj h
    exact ⟨rfl, values_createChunks hchunks⟩

/-- A turn that is not there has no chunks. -/
theorem chunksOf_eq_nil (h : t.turns.get? turn.id = none) : t.chunksOf turn.id = [] := by
  refine List.filter_eq_nil_iff.mpr fun chunk hchunk hid => ?_
  have hsome := t.sound chunk hchunk
  rw [of_decide_eq_true hid, h] at hsome
  exact nomatch hsome

theorem filter_chunkRows (turn : SourceTurn) :
    ((chunkRows turn).map (·.2)).filter (fun chunk => chunk.turnId = turn.id) =
      (chunkRows turn).map (·.2) :=
  List.filter_eq_self.mpr fun _ hchunk => decide_eq_true (turnId_of_mem_chunkRows hchunk)

theorem kept_of_created {call : UpsertCall} (h : (upsertSourceTurn rh call t).2 = .created) :
    Kept (upsertSourceTurn rh call t).1 call.turn := by
  rcases upsertSourceTurn_cases rh call t with ⟨-, hno⟩ | ⟨hnone, hcreate⟩
  · exact absurd h hno
  · obtain ⟨hturns, hchunks⟩ := createTurn_eq hcreate
    refine ⟨?_, ?_⟩
    · rw [hturns, OrdMap.get?_set_self]
    · unfold SourceTables.chunksOf
      rw [hchunks, List.filter_append, filter_chunkRows]
      exact (congrArg (· ++ _) (chunksOf_eq_nil hnone)).trans (List.nil_append _)

/-- Another call leaves a turn that is there. -/
theorem Kept.upsert (h : Kept t turn) (call : UpsertCall) :
    Kept (upsertSourceTurn rh call t).1 turn := by
  rcases upsertSourceTurn_cases rh call t with ⟨hsame, -⟩ | ⟨hnone, hcreate⟩
  · rwa [hsame]
  · obtain ⟨hturns, hchunks⟩ := createTurn_eq hcreate
    have hother : call.turn.id ≠ turn.id := fun hid => by
      rw [hid, h.row] at hnone
      exact nomatch hnone
    refine ⟨?_, ?_⟩
    · rw [hturns, OrdMap.get?_set_ne _ _ hother.symm]
      exact h.row
    · have hnil : ((chunkRows call.turn).map (·.2)).filter
          (fun chunk => chunk.turnId = turn.id) = [] :=
        List.filter_eq_nil_iff.mpr fun chunk hchunk hid =>
          hother ((turnId_of_mem_chunkRows hchunk).symm.trans (of_decide_eq_true hid))
      unfold SourceTables.chunksOf
      rw [hchunks, List.filter_append, hnil, List.append_nil]
      exact h.chunks

theorem Kept.storeTurns (h : Kept t turn) (calls : List UpsertCall) :
    Kept (storeTurns rh calls t) turn := by
  induction calls generalizing t with
  | nil => exact h
  | cons call calls ih => exact ih (h.upsert call)

end Runir
