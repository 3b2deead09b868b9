import Runir.Capture.Spool
import Runir.Lib.Json

/-!
# Capture — The lines of the spool

How an entry is written on a line of the journal: `JSON.stringify`, in UTF-8, and a newline.

* `SourceTurn.toJson`, `SpoolEntry.toJson`: what is printed; a property that is undefined is left
  out.
* `SourceTurn.ofJson`, `SpoolEntry.ofJson`: what is made of a line.
* `spoolFormat`: the format; its laws are that of `JSON.parse` and `JSON.stringify`.
-/

namespace Runir

/-! ### Words -/

def TurnRole.name : TurnRole → String
  | .user => "user"
  | .assistant => "assistant"

def TurnRole.ofName (s : String) : Option TurnRole :=
  [TurnRole.user, .assistant].find? (·.name = s)

def IdentityQuality.name : IdentityQuality → String
  | .native => "native"
  | .ordinal => "ordinal"
  | .contentOnly => "content_only"

def IdentityQuality.ofName (s : String) : Option IdentityQuality :=
  [IdentityQuality.native, .ordinal, .contentOnly].find? (·.name = s)

def TurnScope.name : TurnScope → String
  | .user => "user"
  | .session => "session"
  | .project => "project"
  | .team => "team"

def TurnScope.ofName (s : String) : Option TurnScope :=
  [TurnScope.user, .session, .project, .team].find? (·.name = s)

@[simp] theorem TurnRole.ofName_name (role : TurnRole) : ofName role.name = some role := by
  cases role <;> decide

@[simp] theorem IdentityQuality.ofName_name (quality : IdentityQuality) :
    ofName quality.name = some quality := by
  cases quality <;> decide

@[simp] theorem TurnScope.ofName_name (scope : TurnScope) : ofName scope.name = some scope := by
  cases scope <;> decide

/-! ### Printing -/

def SourceTurn.fields (turn : SourceTurn) : List (String × Option Json) :=
  [("id", some (.str turn.id)),
    ("userId", some (.str turn.userId)),
    ("client", some (.str turn.client)),
    ("sessionId", some (.str turn.sessionId)),
    ("sessionEpoch", some (.str turn.sessionEpoch)),
    ("turnKey", some (.str turn.turnKey)),
    ("turnIndex", turn.turnIndex.map .int),
    ("role", some (.str turn.role.name)),
    ("content", some (.str turn.content)),
    ("contentHmac", some (.str turn.contentHmac)),
    ("keyFingerprint", some (.str turn.keyFingerprint)),
    ("redactionVersion", some (.int turn.redactionVersion)),
    ("sourceFormat", some (.int turn.sourceFormat)),
    ("identityQuality", some (.str turn.identityQuality.name)),
    ("occurredAt", some (.str turn.occurredAt)),
    ("scope", some (.str turn.scope.name)),
    ("teamId", turn.teamId.map .str),
    ("projectKey", turn.projectKey.map .str),
    ("path", turn.path.map .str),
    ("truncated", some (.bool turn.truncated)),
    ("originalBytes", some (.int turn.originalBytes))]

def SourceTurn.toJson (turn : SourceTurn) : Json := .record turn.fields

def SpoolEntry.toJson : SpoolEntry → Json
  | .put turn queuedAt => .record
      [("op", some (.str "put")), ("turn", some turn.toJson), ("queuedAt", queuedAt.map .str)]
  | .done id => .record [("op", some (.str "done")), ("id", some (.str id))]
  | .forget id => .record [("op", some (.str "forget")), ("id", some (.str id))]
  | .extracted id marker => .record
      [("op", some (.str "extracted")), ("id", some (.str id)),
        ("userId", some (.str marker.userId)), ("sessionId", some (.str marker.sessionId)),
        ("hmac", some (.str marker.hmac)), ("keyFingerprint", some (.str marker.keyFingerprint))]

/-! ### Reading -/

def textOf (k : String) (j : Json) : Option String := (j.prop? k).bind Json.str?

def intOf (k : String) (j : Json) : Option Int := (j.prop? k).bind Json.int?

def SourceTurn.ofJson (j : Json) : Option SourceTurn := do
  let id ← textOf "id" j
  let userId ← textOf "userId" j
  let client ← textOf "client" j
  let sessionId ← textOf "sessionId" j
  let sessionEpoch ← textOf "sessionEpoch" j
  let turnKey ← textOf "turnKey" j
  let role ← (textOf "role" j).bind TurnRole.ofName
  let content ← textOf "content" j
  let contentHmac ← textOf "contentHmac" j
  let keyFingerprint ← textOf "keyFingerprint" j
  let redactionVersion ← intOf "redactionVersion" j
  let sourceFormat ← intOf "sourceFormat" j
  let identityQuality ← (textOf "identityQuality" j).bind IdentityQuality.ofName
  let occurredAt ← textOf "occurredAt" j
  let scope ← (textOf "scope" j).bind TurnScope.ofName
  let truncated ← (j.prop? "truncated").bind Json.bool?
  let originalBytes ← intOf "originalBytes" j
  some
    { id, userId, client, sessionId, sessionEpoch, turnKey, turnIndex := intOf "turnIndex" j, role,
      content, contentHmac, keyFingerprint, redactionVersion := redactionVersion.toNat,
      sourceFormat := sourceFormat.toNat, identityQuality, occurredAt, scope,
      teamId := textOf "teamId" j, projectKey := textOf "projectKey" j, path := textOf "path" j,
      truncated, originalBytes := originalBytes.toNat }

def ExtractedMarker.ofJson (j : Json) : Option ExtractedMarker := do
  let userId ← textOf "userId" j
  let sessionId ← textOf "sessionId" j
  let hmac ← textOf "hmac" j
  let keyFingerprint ← textOf "keyFingerprint" j
  some ⟨userId, sessionId, hmac, keyFingerprint⟩

def SpoolEntry.ofJson (j : Json) : Option SpoolEntry := do
  let op ← textOf "op" j
  if op = "put" then
    let turn ← (j.prop? "turn").bind SourceTurn.ofJson
    some (.put turn (textOf "queuedAt" j))
  else
    let id ← textOf "id" j
    if op = "done" then some (.done id)
    else if op = "forget" then some (.forget id)
    else if op = "extracted" then (ExtractedMarker.ofJson j).map (.extracted id)
    else none

/-! ### The format -/

variable {k : String}

variable {fs : List (String × Option Json)}

theorem textOf_record {x : Option String}
    (h : (fs.map Prod.fst).Nodup) (hmem : (k, x.map .str) ∈ fs) : textOf k (.record fs) = x := by
  unfold textOf
  rw [Json.prop?_record h hmem]
  cases x <;> rfl

theorem intOf_record {x : Option Int}
    (h : (fs.map Prod.fst).Nodup) (hmem : (k, x.map .int) ∈ fs) : intOf k (.record fs) = x := by
  unfold intOf
  rw [Json.prop?_record h hmem]
  cases x <;> rfl

theorem SourceTurn.nodup_fields (turn : SourceTurn) : (turn.fields.map Prod.fst).Nodup := by
  change ["id", "userId", "client", "sessionId", "sessionEpoch", "turnKey", "turnIndex", "role",
    "content", "contentHmac", "keyFingerprint", "redactionVersion", "sourceFormat",
    "identityQuality", "occurredAt", "scope", "teamId", "projectKey", "path", "truncated",
    "originalBytes"].Nodup
  decide

/-- A property of a turn, by its place. -/
theorem SourceTurn.textOf_toJson (turn : SourceTurn) {x : Option String} (i : Nat)
    (h : turn.fields[i]? = some (k, x.map .str)) : textOf k turn.toJson = x :=
  textOf_record (SourceTurn.nodup_fields turn) (List.mem_of_getElem? h)

theorem SourceTurn.intOf_toJson (turn : SourceTurn) {x : Option Int} (i : Nat)
    (h : turn.fields[i]? = some (k, x.map .int)) : intOf k turn.toJson = x :=
  intOf_record (SourceTurn.nodup_fields turn) (List.mem_of_getElem? h)

theorem SourceTurn.ofJson_toJson (turn : SourceTurn) : SourceTurn.ofJson turn.toJson = some turn := by
  have htruncated : (turn.toJson.prop? "truncated").bind Json.bool? = some turn.truncated := by
    unfold SourceTurn.toJson
    rw [Json.prop?_record (x := some (.bool turn.truncated)) (SourceTurn.nodup_fields turn)
      (List.mem_of_getElem? (i := 19) rfl)]
    rfl
  unfold SourceTurn.ofJson
  rw [SourceTurn.textOf_toJson turn (x := some turn.id) 0 rfl,
    SourceTurn.textOf_toJson turn (x := some turn.userId) 1 rfl,
    SourceTurn.textOf_toJson turn (x := some turn.client) 2 rfl,
    SourceTurn.textOf_toJson turn (x := some turn.sessionId) 3 rfl,
    SourceTurn.textOf_toJson turn (x := some turn.sessionEpoch) 4 rfl,
    SourceTurn.textOf_toJson turn (x := some turn.turnKey) 5 rfl,
    SourceTurn.intOf_toJson turn (x := turn.turnIndex) 6 rfl,
    SourceTurn.textOf_toJson turn (x := some turn.role.name) 7 rfl,
    SourceTurn.textOf_toJson turn (x := some turn.content) 8 rfl,
    SourceTurn.textOf_toJson turn (x := some turn.contentHmac) 9 rfl,
    SourceTurn.textOf_toJson turn (x := some turn.keyFingerprint) 10 rfl,
    SourceTurn.intOf_toJson turn (x := some turn.redactionVersion) 11 rfl,
    SourceTurn.intOf_toJson turn (x := some turn.sourceFormat) 12 rfl,
    SourceTurn.textOf_toJson turn (x := some turn.identityQuality.name) 13 rfl,
    SourceTurn.textOf_toJson turn (x := some turn.occurredAt) 14 rfl,
    SourceTurn.textOf_toJson turn (x := some turn.scope.name) 15 rfl,
    SourceTurn.textOf_toJson turn (x := turn.teamId) 16 rfl,
    SourceTurn.textOf_toJson turn (x := turn.projectKey) 17 rfl,
    SourceTurn.textOf_toJson turn (x := turn.path) 18 rfl,
    SourceTurn.intOf_toJson turn (x := some turn.originalBytes) 20 rfl, htruncated]
  simp only [Option.bind_eq_bind, Option.bind_some, TurnRole.ofName_name,
    IdentityQuality.ofName_name, TurnScope.ofName_name, Int.toNat_natCast]

theorem SpoolEntry.ofJson_toJson (e : SpoolEntry) : SpoolEntry.ofJson e.toJson = some e := by
  cases e with
  | put turn queuedAt =>
      have hnodup : ((["op", "turn", "queuedAt"] : List String)).Nodup := by decide
      have hop : textOf "op" (toJson (.put turn queuedAt)) = some "put" :=
        textOf_record hnodup (List.mem_of_getElem? (i := 0) rfl)
      have hturn : (toJson (.put turn queuedAt)).prop? "turn" = some turn.toJson :=
        Json.prop?_record hnodup (List.mem_of_getElem? (i := 1) rfl)
      have hqueued : textOf "queuedAt" (toJson (.put turn queuedAt)) = queuedAt :=
        textOf_record hnodup (List.mem_of_getElem? (i := 2) rfl)
      unfold ofJson
      rw [hop, hturn, hqueued]
      simp only [Option.bind_eq_bind, Option.bind_some, SourceTurn.ofJson_toJson, if_true]
  | done id =>
      have hnodup : ((["op", "id"] : List String)).Nodup := by decide
      have hop : textOf "op" (toJson (.done id)) = some "done" :=
        textOf_record hnodup (List.mem_of_getElem? (i := 0) rfl)
      have hid : textOf "id" (toJson (.done id)) = some id :=
        textOf_record hnodup (List.mem_of_getElem? (i := 1) rfl)
      unfold ofJson
      rw [hop, hid]
      rfl
  | forget id =>
      have hnodup : ((["op", "id"] : List String)).Nodup := by decide
      have hop : textOf "op" (toJson (.forget id)) = some "forget" :=
        textOf_record hnodup (List.mem_of_getElem? (i := 0) rfl)
      have hid : textOf "id" (toJson (.forget id)) = some id :=
        textOf_record hnodup (List.mem_of_getElem? (i := 1) rfl)
      unfold ofJson
      rw [hop, hid]
      rfl
  | extracted key marker =>
      have hnodup : (["op", "id", "userId", "sessionId", "hmac", "keyFingerprint"] :
          List String).Nodup := by decide
      have hproperty : ∀ {k x} (i : Nat), ([("op", some "extracted"), ("id", some key),
          ("userId", some marker.userId), ("sessionId", some marker.sessionId),
          ("hmac", some marker.hmac), ("keyFingerprint", some marker.keyFingerprint)])[i]? =
            some (k, x) → textOf k (toJson (.extracted key marker)) = x := by
        intro k x i h
        refine textOf_record hnodup ?_
        have hmem := List.mem_map_of_mem (f := Prod.map id (Option.map Json.str))
          (List.mem_of_getElem? h)
        exact hmem
      unfold ofJson ExtractedMarker.ofJson
      rw [hproperty 0 rfl, hproperty 1 rfl, hproperty 2 rfl, hproperty 3 rfl, hproperty 4 rfl,
        hproperty 5 rfl]
      rfl

/-- The format of the journal. -/
def spoolFormat : LineFormat SpoolEntry UInt8 where
  sep := 10
  stringify e := Utf8.encode e.toJson.stringify
  parse bytes := (Utf8.decode bytes).bind fun cs => (Json.parse cs).bind SpoolEntry.ofJson
  sep_notMem e := Utf8.newline_notMem_encode (Json.newline_notMem_stringify e.toJson)
  parse_stringify e := by
    have hparse := Json.parse_stringify e.toJson [] rfl
    rw [List.append_nil] at hparse
    rw [Utf8.decode_encode, Option.bind_some, hparse, Option.bind_some, SpoolEntry.ofJson_toJson]
  parse_line e := by
    have hline : Utf8.encode e.toJson.stringify ++ [10] =
        Utf8.encode (e.toJson.stringify ++ [Json.newline]) := by
      rw [Utf8.encode_append]
      rfl
    rw [hline, Utf8.decode_encode, Option.bind_some, Json.parse_stringify e.toJson _ rfl,
      Option.bind_some, SpoolEntry.ofJson_toJson]

end Runir
