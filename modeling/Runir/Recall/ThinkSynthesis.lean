import Runir.Capture.FactValues
import Runir.Lib.Anchored
import Runir.Lib.JsonLexemes
import Runir.Lib.UniqueIndex

/-!
# Recall — Think synthesis

`parseThinkResponse` of `src/recall/orchestrator/think-synthesis.ts`: what is made of a model's
answer, and which of the strings it cites stand for an item of the evidence.

* `resolveCitation`: the three lookups of a cited string.
* `readClaim`, `resolveClaim`: the two halves of `normalizeClaim`, what a claim cites and what of
  it is found.
* `Denotes`: a string is the id of an item, or its short id where no other item has that.
* `citations_denoted_iff`: what is returned was cited by a string that denotes it, and every other
  string is dropped, if and only if no cited string is cut down to a short id it is not.

The reading of JSON and its repair are parameters; `none` where one of them throws.
-/

namespace Runir
open Regex

structure ThinkEvidenceItem where
  id : String
  text : String
  deriving DecidableEq

structure ThinkCitation where
  id : String
  index : Nat
  deriving DecidableEq

structure ThinkClaim where
  text : String
  citations : List ThinkCitation
  droppedCitations : List String
  deriving DecidableEq

inductive ParseClassification where
  | valid | repaired | wrongSchema | unparseable
  deriving DecidableEq

structure ThinkSynthesis where
  answer : Option String
  claims : List ThinkClaim
  citations : List ThinkCitation
  gaps : List String
  droppedCitations : List String
  schemaValid : Bool
  parseClassification : ParseClassification
  deriving DecidableEq

/-- The first eight code units of the id without its table and its brackets. -/
def shortId (fullId : String) : List Nat :=
  let bare := Text.dropFirst (seqs [atStart, plus (.cls (· != ':')), chr ':']) fullId
  (utf16 (bare.toList.filter fun c => !(c == '⟨' || c == '⟩'))).take 8

/-! ### Citations -/

section
variable (evidence : List ThinkEvidenceItem)

def evidenceCitations : List ThinkCitation :=
  evidence.zipIdx.map fun e => ⟨e.1.id, e.2⟩

/-- `byFull`. -/
def byFull : OrdMap String ThinkCitation :=
  .ofList ((evidenceCitations evidence).map fun c => (c.id, c))

/-- `byShort`: a short id that has come up before is of no item. -/
def byShort : OrdMap (List Nat) (Option ThinkCitation) :=
  (evidenceCitations evidence).foldl (fun m c =>
    m.set (shortId c.id) (if m.has (shortId c.id) then none else some c)) .empty

def resolveCitation (rawId : String) : Option ThinkCitation :=
  match (byFull evidence).get? rawId with
  | some full => some full
  | none =>
      match ((byShort evidence).get? (utf16 rawId.toList)).join with
      | some directShort => some directShort
      | none => ((byShort evidence).get? (shortId rawId)).join

/-- The loop over the citations of a claim. -/
def resolveClaim (claim : String × List String) : ThinkClaim :=
  claim.2.foldl (fun out key =>
    match resolveCitation evidence key with
    | some hit =>
        if hit.id ∈ out.citations.map (·.id) then out
        else { out with citations := out.citations ++ [hit] }
    | none => { out with droppedCitations := out.droppedCitations ++ [key] })
    ⟨claim.1, [], []⟩

end

/-! ### Claims -/

section
variable (host : Host)

/-- The string a citation is read as; `none` where `String` throws. -/
def citationKey (rawCitation : Value) : Option String :=
  let citationValue := match rawCitation with
    | .obj fs => fs.get? "id"
    | v => some v
  match citationValue with
  | none | some .null => some ""
  | some v => if v.converts then some (Text.trim (host.stringOf v)) else none

/-- The text of a claim and the strings it cites, where it is one. -/
def readClaim (value : Value) : Option (Option (String × List String)) :=
  match (value.prop? "text").bind Value.str?, value.prop? "citations" with
  | some text, some (.arr citations) =>
      if Text.truthy (Text.trim text) then
        (citations.toList.mapM (citationKey host)).map fun keys => some (Text.trim text, keys)
      else some none
  | _, _ => some none

/-- `parsed[k]` where that is an array. -/
def arrayOf (k : String) (parsed : Value) : Option (List Value) :=
  match parsed.prop? k with
  | some (.arr xs) => some xs.toList
  | _ => none

def answerOf (parsed : Value) : Option String :=
  (((parsed.prop? "answer").bind Value.str?).map Text.trim).filter Text.truthy

/-- The claims the model makes: those of its list, or else its answer with the citations at the
top.  `none` where `String` throws. -/
def readClaims (parsed : Value) : Option (List (String × List String)) := do
  let parsedClaims ← ((arrayOf "claims" parsed).getD []).mapM (readClaim host)
  match parsedClaims.reduceOption, answerOf parsed with
  | [], some answer => do
      let legacy ← ((arrayOf "citations" parsed).getD []).mapM (citationKey host)
      return [(answer, legacy)]
  | claims, _ => return claims

/-- `schemaValid`, for an object whose claims can be read. -/
def isSchemaValid (parsed : Value) : Bool :=
  (match arrayOf "claims" parsed with
    | some rawClaims => rawClaims.all fun c => ((readClaim host c).join).isSome
    | none => false) &&
  (arrayOf "gaps" parsed).isSome &&
  (match parsed.prop? "answer" with
    | some .null => true
    | some (.str _) => true
    | _ => false)

def gapsOf (parsed : Value) : List String :=
  (((arrayOf "gaps" parsed).getD []).filterMap Value.str?).take 12

/-- A synthesis with no answer. -/
def noAnswer (gap : String) (classification : ParseClassification) : ThinkSynthesis :=
  ⟨none, [], [], [gap], [], false, classification⟩

/-- The citations of all claims, each item once. -/
def allCitations (claims : List ThinkClaim) : List ThinkCitation :=
  (claims.flatMap (·.citations)).foldl
    (fun seen c => if c.id ∈ seen.map (·.id) then seen else seen ++ [c]) []

def isObject : Value → Bool
  | .arr _ => true
  | .obj _ => true
  | _ => false

/-- What is made of a document; `none` where it throws. -/
def synthesize (evidence : List ThinkEvidenceItem) (parsed : Value)
    (parseClassification : ParseClassification) : Option ThinkSynthesis :=
  if !isObject parsed then
    some (noAnswer "synthesis output had no JSON object" .wrongSchema)
  else
    (readClaims host parsed).map fun read =>
      let claims := read.map (resolveClaim evidence)
      { answer := answerOf parsed
        claims := claims
        citations := allCitations claims
        gaps := gapsOf parsed
        droppedCitations := claims.flatMap (·.droppedCitations)
        schemaValid := isSchemaValid host parsed
        parseClassification :=
          if isSchemaValid host parsed then parseClassification else .wrongSchema }

/-- `JSON.parse` and `repair`. -/
structure ThinkReader where
  parse : String → Option Value
  repair : String → Option String

/-- The document of an answer, and whether it had to be repaired. -/
def ThinkReader.read (reader : ThinkReader) (raw : String) :
    Option (Value × ParseClassification) :=
  let text := jsonText (Text.trim raw)
  match reader.parse text with
  | some parsed => some (parsed, .valid)
  | none => ((reader.repair text).bind reader.parse).map fun parsed => (parsed, .repaired)

def parseThinkResponse (reader : ThinkReader) (evidence : List ThinkEvidenceItem) (raw : String) :
    Option ThinkSynthesis :=
  match reader.read raw with
  | none => some (noAnswer "synthesis output was not parseable JSON — no answer produced"
      .unparseable)
  | some (parsed, classification) => synthesize host evidence parsed classification

end

/-! ### What a string denotes -/

section
variable (evidence : List ThinkEvidenceItem)

/-- No other item has the short id of `c`. -/
def SoleShort (c : ThinkCitation) : Prop :=
  c ∈ evidenceCitations evidence ∧
    ∀ c' ∈ evidenceCitations evidence, shortId c'.id = shortId c.id → c' = c

/-- The string is the id of the item, or its short id where no other item has that. -/
def Denotes (key : String) (c : ThinkCitation) : Prop :=
  c ∈ evidenceCitations evidence ∧
    (key = c.id ∨ utf16 key.toList = shortId c.id ∧ SoleShort evidence c)

/-- As `Denotes`, where the id of an item comes before the short id of another. -/
def StandsFor (key : String) (c : ThinkCitation) : Prop :=
  c ∈ evidenceCitations evidence ∧
    (key = c.id ∨ (∀ c' ∈ evidenceCitations evidence, key ≠ c'.id) ∧
      utf16 key.toList = shortId c.id ∧ SoleShort evidence c)

/-- The string is of no item, and is cut down to the short id of this one. -/
def CutTo (key : String) (c : ThinkCitation) : Prop :=
  (∀ d, ¬Denotes evidence key d) ∧ shortId key = shortId c.id ∧ SoleShort evidence c

def Invented (key : String) : Prop := ∃ c, CutTo evidence key c

end

section
variable {evidence : List ThinkEvidenceItem} {key : String} {c : ThinkCitation}

theorem evidenceCitations_nodup (evidence : List ThinkEvidenceItem) :
    (evidenceCitations evidence).Nodup := by
  refine List.Nodup.of_map ThinkCitation.index ?_
  have hindices : (evidenceCitations evidence).map ThinkCitation.index =
      evidence.zipIdx.map Prod.snd := by
    rw [evidenceCitations, List.map_map]
    rfl
  rw [hindices, List.zipIdx_map_snd]
  exact List.nodup_range'

theorem byFull_some (h : (byFull evidence).get? key = some c) :
    c ∈ evidenceCitations evidence ∧ key = c.id := by
  obtain ⟨c', hc', heq⟩ := List.mem_map.mp (OrdMap.mem_of_get?_ofList h)
  cases heq
  exact ⟨hc', rfl⟩

theorem isSome_byFull (hc : c ∈ evidenceCitations evidence) :
    ∃ c', (byFull evidence).get? c.id = some c' := by
  rw [byFull, OrdMap.get?_ofList]
  have hmem : (c.id, c) ∈ (evidenceCitations evidence).map fun c => (c.id, c) :=
    List.mem_map.mpr ⟨c, hc, rfl⟩
  cases hlatest : latest (fun e => decide (e.1 = c.id))
      ((evidenceCitations evidence).map fun c => (c.id, c)) with
  | some e => exact ⟨e.2, rfl⟩
  | none =>
      rw [latest, List.getLast?_eq_none_iff, List.filter_eq_nil_iff] at hlatest
      exact absurd (decide_eq_true rfl) (hlatest _ hmem)

theorem byShort_some {short : List Nat} :
    ((byShort evidence).get? short).join = some c ↔ shortId c.id = short ∧ SoleShort evidence c := by
  have hindex : byShort evidence = OrdMap.soleIndex (fun c : ThinkCitation => shortId c.id)
    (evidenceCitations evidence) := rfl
  rw [hindex, OrdMap.join_get?_soleIndex (evidenceCitations_nodup evidence)]
  constructor
  · rintro ⟨hc, rfl, honly⟩
    exact ⟨rfl, hc, honly⟩
  · rintro ⟨rfl, hc, honly⟩
    exact ⟨hc, rfl, honly⟩

theorem StandsFor.denotes (h : StandsFor evidence key c) : Denotes evidence key c :=
  ⟨h.1, h.2.imp id And.right⟩

/-- **The three lookups.**  What a string stands for is found; what is found for a string of no item
is what that is cut down to. -/
theorem resolveCitation_cases (evidence : List ThinkEvidenceItem) (key : String) :
    (∃ c, resolveCitation evidence key = some c ∧ StandsFor evidence key c) ∨
    (∃ c, resolveCitation evidence key = some c ∧ CutTo evidence key c) ∨
    (resolveCitation evidence key = none ∧ (∀ c, ¬Denotes evidence key c) ∧
      ∀ c, ¬CutTo evidence key c) := by
  rw [resolveCitation]
  cases hfull : (byFull evidence).get? key with
  | some c =>
      obtain ⟨hc, hkey⟩ := byFull_some hfull
      exact Or.inl ⟨c, rfl, hc, Or.inl hkey⟩
  | none =>
      have hno : ∀ c ∈ evidenceCitations evidence, key ≠ c.id := by
        rintro c hc rfl
        obtain ⟨c', hc'⟩ := isSome_byFull hc
        rw [hfull] at hc'
        cases hc'
      cases hshort : ((byShort evidence).get? (utf16 key.toList)).join with
      | some c =>
          obtain ⟨heq, hsole⟩ := byShort_some.mp hshort
          exact Or.inl ⟨c, rfl, hsole.1, Or.inr ⟨hno, heq.symm, hsole⟩⟩
      | none =>
          have hnone : ∀ c, ¬Denotes evidence key c := by
            rintro c ⟨hc, hid | ⟨hid, hsole⟩⟩
            · exact hno c hc hid
            · rw [byShort_some.mpr ⟨hid.symm, hsole⟩] at hshort
              cases hshort
          cases hcut : ((byShort evidence).get? (shortId key)).join with
          | some c =>
              obtain ⟨heq, hsole⟩ := byShort_some.mp hcut
              exact Or.inr (Or.inl ⟨c, rfl, hnone, heq.symm, hsole⟩)
          | none =>
              refine Or.inr (Or.inr ⟨rfl, hnone, ?_⟩)
              rintro c ⟨-, heq, hsole⟩
              rw [byShort_some.mpr ⟨heq.symm, hsole⟩] at hcut
              cases hcut

theorem resolve_of_cutTo (h : CutTo evidence key c) : resolveCitation evidence key = some c := by
  rcases resolveCitation_cases evidence key with ⟨d, -, hd⟩ | ⟨d, hd, -, heq, hsole⟩ | ⟨-, -, hno⟩
  · exact absurd hd.denotes (h.1 d)
  · have hcd : c = d := hsole.2 c h.2.2.1 (h.2.1.symm.trans heq)
    rw [hcd]
    exact hd
  · exact absurd h (hno c)

theorem denotes_of_resolve (hinvented : ¬Invented evidence key)
    (h : resolveCitation evidence key = some c) : Denotes evidence key c := by
  rcases resolveCitation_cases evidence key with ⟨c', hc', hd⟩ | ⟨c', -, hcut⟩ | ⟨hnone, -⟩
  · cases h.symm.trans hc'
    exact hd.denotes
  · exact absurd ⟨c', hcut⟩ hinvented
  · cases h.symm.trans hnone

theorem resolve_eq_none_of_not_denotes (hinvented : ¬Invented evidence key)
    (h : ∀ c, ¬Denotes evidence key c) : resolveCitation evidence key = none := by
  rcases resolveCitation_cases evidence key with ⟨c, -, hd⟩ | ⟨c, -, hcut⟩ | ⟨hnone, -⟩
  · exact absurd hd.denotes (h c)
  · exact absurd ⟨c, hcut⟩ hinvented
  · exact hnone

end

/-! ### What a claim keeps -/

section
variable (evidence : List ThinkEvidenceItem)

/-- **A claim**: its text, what its strings are found to be, each item once, and the strings that
are not found. -/
theorem resolveClaim_eq (claim : String × List String) : resolveClaim evidence claim =
    ⟨claim.1, distinctOn ThinkCitation.id (claim.2.filterMap (resolveCitation evidence)),
      claim.2.filter fun key => resolveCitation evidence key = none⟩ := by
  have hgen : ∀ (keys : List String) (out : ThinkClaim),
      keys.foldl (fun out key =>
        match resolveCitation evidence key with
        | some hit =>
            if hit.id ∈ out.citations.map (·.id) then out
            else { out with citations := out.citations ++ [hit] }
        | none => { out with droppedCitations := out.droppedCitations ++ [key] }) out =
      ⟨out.text, (keys.filterMap (resolveCitation evidence)).foldl (fun seen c =>
          if c.id ∈ seen.map (·.id) then seen else seen ++ [c]) out.citations,
        out.droppedCitations ++ keys.filter fun key => resolveCitation evidence key = none⟩ := by
    intro keys
    induction keys with
    | nil =>
        intro out
        simp
    | cons key keys ih =>
        intro out
        rw [List.foldl_cons, ih]
        cases hkey : resolveCitation evidence key with
        | none => simp [hkey]
        | some hit =>
            rw [List.filterMap_cons_some hkey, List.foldl_cons,
              List.filter_cons_of_neg (by simp [hkey])]
            by_cases hseen : hit.id ∈ out.citations.map (·.id)
            · simp only [if_pos hseen]
            · simp only [if_neg hseen]
  rw [resolveClaim, hgen]
  rfl

variable {claim : String × List String}

theorem mem_resolveClaim_citations {c : ThinkCitation}
    (h : c ∈ (resolveClaim evidence claim).citations) :
    ∃ key ∈ claim.2, resolveCitation evidence key = some c := by
  rw [resolveClaim_eq] at h
  exact List.mem_filterMap.mp (mem_of_mem_distinctOn h)

theorem mem_resolveClaim_dropped {key : String} :
    key ∈ (resolveClaim evidence claim).droppedCitations ↔
      key ∈ claim.2 ∧ resolveCitation evidence key = none := by
  rw [resolveClaim_eq]
  simp

end

/-! ### Every citation was made -/

section
variable (host : Host)

/-- The claims an answer makes, with the strings they cite; `none` where one of these cannot be read
as a string. -/
def citedBy (reader : ThinkReader) (raw : String) : Option (List (String × List String)) :=
  match reader.read raw with
  | none => some []
  | some (parsed, _) => if !isObject parsed then some [] else readClaims host parsed

/-- What is returned for some claims: citations that a string of them denotes, and the strings that
denote nothing dropped, in each claim alike. -/
structure CitesFaithfully (evidence : List ThinkEvidenceItem) (read : List (String × List String))
    (synthesis : ThinkSynthesis) : Prop where
  claims : synthesis.claims.map (·.text) = read.map Prod.fst
  cited : ∀ e ∈ synthesis.claims.zip read, ∀ c ∈ e.1.citations,
    ∃ key ∈ e.2.2, Denotes evidence key c
  allCited : ∀ c ∈ synthesis.citations, ∃ claim ∈ read, ∃ key ∈ claim.2, Denotes evidence key c
  dropped : ∀ claim ∈ read, ∀ key ∈ claim.2, (∀ c, ¬Denotes evidence key c) →
    key ∈ synthesis.droppedCitations
  alike : ∀ e ∈ synthesis.claims.zip read, ∀ key ∈ e.2.2,
    key ∈ synthesis.droppedCitations → key ∈ e.1.droppedCitations

variable {host} {reader : ThinkReader} {raw : String} {read : List (String × List String)}

/-- The claims of a synthesis are those of the answer, resolved. -/
theorem exists_parse_of_citedBy (evidence : List ThinkEvidenceItem)
    (h : citedBy host reader raw = some read) :
    ∃ synthesis, parseThinkResponse host reader evidence raw = some synthesis ∧
      synthesis.claims = read.map (resolveClaim evidence) ∧
      synthesis.citations = allCitations synthesis.claims ∧
      synthesis.droppedCitations = synthesis.claims.flatMap (·.droppedCitations) := by
  rw [citedBy] at h
  rw [parseThinkResponse]
  split at h
  · next hread =>
      cases h
      exact ⟨_, rfl, rfl, rfl, rfl⟩
  · next parsed classification hread =>
      simp only [synthesize]
      split at h
      · next hobject =>
          cases h
          rw [if_pos hobject]
          exact ⟨_, rfl, rfl, rfl, rfl⟩
      · next hobject =>
          rw [if_neg hobject, h]
          exact ⟨_, rfl, rfl, rfl, rfl⟩

theorem mem_zip_map {α β : Type*} {f : α → β} {xs : List α} {e : β × α}
    (h : e ∈ (xs.map f).zip xs) : e.1 = f e.2 ∧ e.2 ∈ xs := by
  induction xs with
  | nil => simp at h
  | cons x xs ih =>
      rcases List.mem_cons.mp h with rfl | h
      · exact ⟨rfl, List.mem_cons_self⟩
      · exact ⟨(ih h).1, List.mem_cons_of_mem x (ih h).2⟩

/-- **No invented citation is resolved** if and only if no string that is cited is cut down to a
short id it is not. -/
theorem citations_denoted_iff (host : Host) (reader : ThinkReader)
    (evidence : List ThinkEvidenceItem) (raw : String) :
    (∀ read synthesis, citedBy host reader raw = some read →
      parseThinkResponse host reader evidence raw = some synthesis →
      CitesFaithfully evidence read synthesis) ↔
    ∀ read, citedBy host reader raw = some read →
      ∀ claim ∈ read, ∀ key ∈ claim.2, ¬Invented evidence key := by
  constructor
  · rintro h read hread claim hclaim key hkey ⟨c, hcut⟩
    obtain ⟨synthesis, hparse, hclaims, -, hdropped⟩ := exists_parse_of_citedBy evidence hread
    have hmem := (h read synthesis hread hparse).dropped claim hclaim key hkey hcut.1
    rw [hdropped, hclaims] at hmem
    obtain ⟨out, hout, hmem⟩ := List.mem_flatMap.mp hmem
    obtain ⟨claim', -, rfl⟩ := List.mem_map.mp hout
    cases (resolve_of_cutTo hcut).symm.trans ((mem_resolveClaim_dropped evidence).mp hmem).2
  · intro h read synthesis hread hparse
    obtain ⟨synthesis', hparse', hclaims, hcitations, hdropped⟩ :=
      exists_parse_of_citedBy evidence hread
    cases hparse.symm.trans hparse'
    have hcited : ∀ claim ∈ read, ∀ c ∈ (resolveClaim evidence claim).citations,
        ∃ key ∈ claim.2, Denotes evidence key c := by
      intro claim hclaim c hc
      obtain ⟨key, hkey, hresolve⟩ := mem_resolveClaim_citations evidence hc
      exact ⟨key, hkey, denotes_of_resolve (h read hread claim hclaim key hkey) hresolve⟩
    refine ⟨?_, fun e he c hc => ?_, fun c hc => ?_, fun claim hclaim key hkey hno => ?_,
      fun e he key hkey hmem => ?_⟩
    · rw [hclaims, List.map_map]
      refine List.map_congr_left fun claim _ => ?_
      simp [resolveClaim_eq]
    · rw [hclaims] at he
      obtain ⟨heq, hclaim⟩ := mem_zip_map he
      rw [heq] at hc
      exact hcited e.2 hclaim c hc
    · rw [hcitations, hclaims] at hc
      have hmem : c ∈ (read.map (resolveClaim evidence)).flatMap (·.citations) :=
        mem_of_mem_distinctOn hc
      obtain ⟨out, hout, hc⟩ := List.mem_flatMap.mp hmem
      obtain ⟨claim, hclaim, rfl⟩ := List.mem_map.mp hout
      exact ⟨claim, hclaim, hcited claim hclaim c hc⟩
    · rw [hdropped, hclaims]
      refine List.mem_flatMap.mpr ⟨_, List.mem_map_of_mem hclaim, ?_⟩
      refine (mem_resolveClaim_dropped evidence).mpr ⟨hkey, ?_⟩
      exact resolve_eq_none_of_not_denotes (h read hread claim hclaim key hkey) hno
    · rw [hclaims] at he
      obtain ⟨heq, -⟩ := mem_zip_map he
      rw [hdropped, hclaims] at hmem
      obtain ⟨out, hout, hmem⟩ := List.mem_flatMap.mp hmem
      obtain ⟨claim', -, rfl⟩ := List.mem_map.mp hout
      rw [heq]
      exact (mem_resolveClaim_dropped evidence).mpr
        ⟨hkey, ((mem_resolveClaim_dropped evidence).mp hmem).2⟩

end

/-- An answer that cites a memory there is no evidence of, next to one of the same beginning. -/
def lookAlikeEvidence : List ThinkEvidenceItem := [⟨"memory:k3f9a0b2c4", "The port is 3000."⟩]

def lookAlikeAnswer : String :=
  "\x7b\"answer\":null,\"claims\":[\x7b\"text\":\"The port is 4000.\"," ++
    "\"citations\":[\"memory:k3f9a0b2zz\"]\x7d],\"gaps\":[]\x7d"

/-- What is cited is cut down to eight characters, and those are of the memory there is. -/
theorem look_alike_resolves : ¬∀ read synthesis,
    citedBy Host.ascii ⟨Json.reader.parse, fun _ => none⟩ lookAlikeAnswer = some read →
    parseThinkResponse Host.ascii ⟨Json.reader.parse, fun _ => none⟩ lookAlikeEvidence
      lookAlikeAnswer = some synthesis →
    CitesFaithfully lookAlikeEvidence read synthesis := by
  intro h
  have hread : citedBy Host.ascii ⟨Json.reader.parse, fun _ => none⟩ lookAlikeAnswer =
      some [("The port is 4000.", ["memory:k3f9a0b2zz"])] := by decide +kernel
  obtain ⟨synthesis, hparse, hclaims, hcitations, -⟩ :=
    exists_parse_of_citedBy lookAlikeEvidence hread
  have hresolve : allCitations (([("The port is 4000.", ["memory:k3f9a0b2zz"])]).map
      (resolveClaim lookAlikeEvidence)) = [⟨"memory:k3f9a0b2c4", 0⟩] := by decide +kernel
  have hmem : (⟨"memory:k3f9a0b2c4", 0⟩ : ThinkCitation) ∈ synthesis.citations := by
    rw [hcitations, hclaims, hresolve]
    exact List.mem_singleton.mpr rfl
  obtain ⟨claim, hclaim, key, hkey, -, hdenotes⟩ := (h _ synthesis hread hparse).allCited _ hmem
  cases List.mem_singleton.mp hclaim
  cases List.mem_singleton.mp hkey
  rcases hdenotes with hid | ⟨hshort, -⟩
  · exact absurd hid (by decide)
  · exact absurd hshort (by decide +kernel)

end Runir
