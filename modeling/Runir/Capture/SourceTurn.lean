import Mathlib.Data.List.DropRight
import Runir.Capture.Redaction
import Runir.Capture.SpoolFormat

/-!
# Capture — Source turns

`src/capture/source-turn-identity.ts`.

* `prepareSourceTurn`: the turn that is stored for a message, or nothing where it throws.
* `chunkSourceTurn`: its text in pieces of at most 4096 bytes.
* `flatten_chunkSourceTurn`: the pieces are the text.

The hashes are parameters.
-/

namespace Runir
open Regex

/-- `createHmac("sha256", key).update(text).digest("hex")` and `createHash`. -/
structure Crypto where
  hmac : String → String → String
  sha256 : String → String
  sha256_ne_empty : ∀ text, sha256 text ≠ ""

/-- Hashes that keep all of their input. -/
def plainCrypto : Crypto where
  hmac key text := key ++ ":" ++ text
  sha256 text := "#" ++ text
  sha256_ne_empty text h := by
    have hlist := congrArg String.toList h
    rw [String.toList_append] at hlist
    exact nomatch hlist

/-- A host whose redactor knows no URLs and no addresses. -/
def plainRedactionHost : Redaction.RedactionHost := ⟨fun _ => none, fun _ => false⟩

/-- A proof of redaction: the text it was made for, which the redactor returned. -/
structure RedactedSourceProof (rh : Redaction.RedactionHost) where
  text : String
  made : ∃ raw, Redaction.redactSourceTurn rh raw = some text.toList

structure SourceTurnInput (rh : Redaction.RedactionHost) where
  userId : String
  client : String
  sessionId : String
  sessionEpoch : Option String := none
  turnKey : Option String := none
  turnIndex : Option Int := none
  role : TurnRole
  content : String
  redactionProof : Option (RedactedSourceProof rh) := none
  occurredAt : String
  scope : TurnScope
  teamId : Option String := none
  projectKey : Option String := none
  path : Option String := none

/-! ### Bytes -/

def utf8Length (cs : List Char) : Nat := (cs.map Char.utf8Size).sum

/-- The UTF-16 code units of a text. -/
def unitLength (cs : List Char) : Nat := (cs.map fun c => if c.toNat < 0x10000 then 1 else 2).sum

/-- The longest front of whole characters with at most so many bytes. -/
def takeBytes : Nat → List Char → List Char
  | _, [] => []
  | max, c :: cs => if max < c.utf8Size then [] else c :: takeBytes (max - c.utf8Size) cs

/-! ### Preparing a turn -/

def maxSourceBytes : Nat := 256 * 1024

def omission : List Char := "\n[TRUNCATED_SOURCE_TURN]".toList

/-- A text that is too long is cut, and what the cut leaves of a character goes. -/
def truncateSource (redacted : List Char) : List Char :=
  if maxSourceBytes < utf8Length redacted then
    (takeBytes (maxSourceBytes - utf8Length omission) redacted).rdropWhile
      (· = Char.ofNat 0xFFFD) ++ omission
  else redacted

/-- `/^[A-Za-z0-9._:-]{1,128}$/`. -/
def isEpoch (epoch : String) : Bool :=
  epoch.toList.all (fun c => isAlphaChar c || isDigitChar c || "._:-".toList.contains c) &&
    decide (1 ≤ epoch.length) && decide (epoch.length ≤ 128)

/-- `Number.isSafeInteger(n) && n >= 0`. -/
def isOrdinal (n : Int) : Bool := decide (0 ≤ n) && decide (n ≤ 2 ^ 53 - 1)

def sourceFormat : Nat := 1

def sourceRedactionVersion : Nat := 1

section
variable (crypto : Crypto)

/-- `sourceKeyFingerprint`. -/
def sourceKeyFingerprint (hmacKey : String) : String :=
  Text.sliceTo (crypto.hmac hmacKey "runir-source-key-id") 16

variable {rh : Redaction.RedactionHost}

/-- What is stored of the content; `none` where the redactor throws. -/
def redactedContent (input : SourceTurnInput rh) : Option (List Char) :=
  if input.redactionProof.any fun proof => decide (proof.text = input.content) then
    some input.content.toList
  else Redaction.redactSourceTurn rh input.content.toList

def hasNative (input : SourceTurnInput rh) : Bool :=
  input.turnKey.any fun key => Text.truthy key && decide (Text.length key ≤ 512)

def hasOrdinal (input : SourceTurnInput rh) : Bool :=
  input.turnIndex.any isOrdinal && input.sessionEpoch.any isEpoch

/-- `prepareSourceTurn`. -/
def prepareSourceTurn (input : SourceTurnInput rh) (hmacKey : String) : Option SourceTurn :=
  if hmacKey = "" ∨ input.userId = "" ∨ input.sessionId = "" ∨ input.client = "" then none
  else if input.content.toList.contains (Char.ofNat 0) then none
  else
    (redactedContent input).map fun redacted =>
      let content := String.ofList (truncateSource redacted)
      let contentHmac := crypto.hmac hmacKey content
      let native := hasNative input
      let ordinal := hasOrdinal input
      let sessionEpoch :=
        if native || ordinal then (input.sessionEpoch.filter isEpoch).getD "native" else "legacy"
      let turnKey :=
        if native then "native:" ++ crypto.sha256 (input.turnKey.getD "")
        else if ordinal then "ordinal:" ++ toString (input.turnIndex.getD 0)
        else "legacy:" ++ input.role.name ++ ":" ++ contentHmac
      let identity := Json.arr (.cons (.str input.userId) (.cons (.str input.client)
        (.cons (.str input.sessionId) (.cons (.str sessionEpoch) (.cons (.str turnKey) .nil)))))
      { id := crypto.sha256 (String.ofList identity.stringify)
        userId := input.userId
        client := input.client
        sessionId := input.sessionId
        sessionEpoch := sessionEpoch
        turnKey := turnKey
        turnIndex := if native || ordinal then input.turnIndex else none
        role := input.role
        content := content
        contentHmac := contentHmac
        keyFingerprint := sourceKeyFingerprint crypto hmacKey
        redactionVersion := sourceRedactionVersion
        sourceFormat := sourceFormat
        identityQuality := if native then .native else if ordinal then .ordinal else .contentOnly
        occurredAt := input.occurredAt
        scope := input.scope
        teamId := input.teamId
        projectKey := input.projectKey
        path := input.path
        truncated := decide (maxSourceBytes < utf8Length redacted)
        originalBytes := utf8Length redacted }

end

/-- What a turn that is prepared takes from its input. -/
theorem prepareSourceTurn_some {crypto : Crypto} {rh : Redaction.RedactionHost}
    {input : SourceTurnInput rh} {hmacKey : String} {turn : SourceTurn}
    (h : prepareSourceTurn crypto input hmacKey = some turn) :
    hmacKey ≠ "" ∧ turn.userId ≠ "" ∧ turn.sessionId ≠ "" ∧ turn.id ≠ "" ∧
      turn.contentHmac = crypto.hmac hmacKey turn.content ∧
        turn.keyFingerprint = sourceKeyFingerprint crypto hmacKey := by
  unfold prepareSourceTurn at h
  split at h
  · exact nomatch h
  · rename_i hgiven
    split at h
    · exact nomatch h
    · obtain ⟨redacted, -, rfl⟩ := Option.map_eq_some_iff.mp h
      rw [not_or, not_or, not_or] at hgiven
      exact ⟨hgiven.1, hgiven.2.1, hgiven.2.2.1, crypto.sha256_ne_empty _, rfl, rfl⟩

/-! ### Chunks -/

/-- The last place a text starts at in another. -/
def lastIndexOf (needle : List Char) : List Char → Option Nat
  | [] => if needle = [] then some 0 else none
  | c :: cs =>
      match lastIndexOf needle cs with
      | some i => some (i + 1)
      | none => if needle <+: c :: cs then some 0 else none

/-- `Math.max(prefix.lastIndexOf("\n\n"), prefix.lastIndexOf("\n```"))`. -/
def boundary (front : List Char) : Option Nat :=
  (lastIndexOf "\n\n".toList front).merge max (lastIndexOf "\n```".toList front)

/-- Where the front of a text is cut: after its last boundary, where that is in its second half. -/
def splitPoint (front : List Char) : Nat :=
  match boundary front with
  | some i => if unitLength front < 2 * unitLength (front.take i) then i + 2 else front.length
  | none => front.length

/-- The loop of `chunkSourceTurn`; every round takes a character, so that as many rounds as there
are characters are enough. -/
def chunksFrom (maxBytes : Nat) : Nat → List Char → List (List Char)
  | 0, rest => if rest = [] then [] else [rest]
  | fuel + 1, rest =>
      if maxBytes < utf8Length rest then
        let split := splitPoint (takeBytes maxBytes rest)
        rest.take split :: chunksFrom maxBytes fuel (rest.drop split)
      else if rest = [] then [] else [rest]

/-- `chunkSourceTurn`. -/
def chunkSourceTurn (content : String) : List (List Char) :=
  chunksFrom 4096 content.toList.length content.toList

/-! ### The pieces are the text -/

@[simp] theorem utf8Length_cons (c : Char) (cs : List Char) :
    utf8Length (c :: cs) = c.utf8Size + utf8Length cs := by
  unfold utf8Length
  rw [List.map_cons, List.sum_cons]

theorem flatten_chunksFrom (maxBytes fuel : Nat) (rest : List Char) :
    (chunksFrom maxBytes fuel rest).flatten = rest := by
  have hlast : ∀ rest : List Char, (if rest = [] then [] else [rest]).flatten = rest := by
    intro rest
    split
    · rename_i hnil
      exact hnil.symm
    · exact List.flatten_singleton
  induction fuel generalizing rest with
  | zero => exact hlast rest
  | succ fuel ih =>
      unfold chunksFrom
      split
      · rw [List.flatten_cons, ih, List.take_append_drop]
      · exact hlast rest

theorem flatten_chunkSourceTurn (content : String) :
    (chunkSourceTurn content).flatten = content.toList :=
  flatten_chunksFrom 4096 _ _

end Runir
