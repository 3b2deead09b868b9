import Runir.Lib.Occurs
import Runir.Lib.Words
import Runir.Recall.ThinkSynthesis

/-!
# Recall — Think parsing

What `parseThinkResponse` makes of the JSON text of a response of its schema, bare or in one code
fence.

* `TwoFences`: the text has two fences, one after the other; the search for a wrapper finds none
  where it has not.
* `ReadsAs`: a value is a response.  `Wrapping`: how its text is sent.
* `ParsesFaithfully`: the answer, the claims, the gaps and the citations come back.
* `parsesFaithfully_iff`: they do if and only if the text has no fence that is taken for the
  wrapper, the answer is not blank and has a claim, the gaps are trimmed, and what a made-up
  citation is cut down to is cited next to it.

A fence of the text stands in one of its strings, so what is cut out at fences is scanned from
inside of a string: an object that is read from it has no property of the schema's name.
-/

namespace Runir
open Text (OccursAt)

/-! ### Fences -/

/-- Two fences, one after the other. -/
def TwoFences (cs : List Char) : Prop :=
  ∃ i j, OccursAt fence cs i ∧ i + 3 ≤ j ∧ OccursAt fence cs j

section
variable {cs : List Char}

theorem beforeFence_eq (cs : List Char) :
    beforeFence cs = (Text.indexOfChars fence cs).map cs.take := by
  induction cs with
  | nil => rfl
  | cons c cs ih =>
      rw [beforeFence, Text.indexOfChars]
      by_cases hhere : fence <+: c :: cs
      · rw [if_pos hhere, if_pos (List.isPrefixOf_iff_prefix.mpr hhere)]
        rfl
      · rw [if_neg hhere, if_neg fun h => hhere (List.isPrefixOf_iff_prefix.mp h), ih,
          Option.map_map, Option.map_map]
        rfl

/-- What follows the first fence, and the word of the language there. -/
theorem afterFence_eq (cs : List Char) :
    afterFence cs = (Text.indexOfChars fence cs).map fun i =>
      if "json".toList <+: cs.drop (i + 3) then cs.drop (i + 7) else cs.drop (i + 3) := by
  induction cs with
  | nil => rfl
  | cons c cs ih =>
      rw [afterFence, Text.indexOfChars]
      by_cases hhere : fence <+: c :: cs
      · rw [if_pos hhere, if_pos (List.isPrefixOf_iff_prefix.mpr hhere)]
        simp only [List.drop_drop]
        rfl
      · rw [if_neg hhere, if_neg fun h => hhere (List.isPrefixOf_iff_prefix.mp h), ih,
          Option.map_map]
        rfl

theorem occursAt_drop {m k : Nat} : OccursAt fence (cs.drop m) k ↔ OccursAt fence cs (m + k) := by
  rw [OccursAt, OccursAt, List.drop_drop]

/-- No fence begins in the word of the language. -/
theorem four_le_of_occursAt {k : Nat} (hword : "json".toList <+: cs) (h : OccursAt fence cs k) :
    4 ≤ k := by
  obtain ⟨rest, rfl⟩ := hword
  by_contra hk
  have hcases : k = 0 ∨ k = 1 ∨ k = 2 ∨ k = 3 := by omega
  rcases hcases with rfl | rfl | rfl | rfl <;> simp [OccursAt, fence] at h

/-- **A wrapper is found** where there are two fences. -/
theorem wrapper_eq_none_iff : (afterFence cs).bind beforeFence = none ↔ ¬TwoFences cs := by
  rw [afterFence_eq]
  cases hfirst : Text.indexOfChars fence cs with
  | none =>
      refine ⟨fun _ => ?_, fun _ => rfl⟩
      rintro ⟨i, -, hi, -⟩
      exact Text.indexOfChars_eq_none_iff.mp hfirst i hi
  | some i =>
      obtain ⟨hi, hbefore⟩ := Text.indexOfChars_eq_some_iff.mp hfirst
      rw [Option.map_some, Option.bind_some, beforeFence_eq, Option.map_eq_none_iff,
        Text.indexOfChars_eq_none_iff]
      constructor
      · rintro hno ⟨i', j, hi', hij, hj⟩
        have hle : i ≤ i' := Nat.le_of_not_lt fun hlt => hbefore i' hlt hi'
        obtain ⟨k, rfl⟩ := Nat.exists_eq_add_of_le (show i + 3 ≤ j by omega)
        split at hno
        · next hword =>
            have hk := four_le_of_occursAt hword (occursAt_drop.mpr hj)
            obtain ⟨k, rfl⟩ := Nat.exists_eq_add_of_le hk
            refine hno k (occursAt_drop.mpr ?_)
            rwa [show i + 7 + k = i + 3 + (4 + k) by omega]
        · exact hno k (occursAt_drop.mpr hj)
      · intro hno k hk
        split at hk
        · exact hno ⟨i, i + 7 + k, hi, by omega, occursAt_drop.mp hk⟩
        · exact hno ⟨i, i + 3 + k, hi, by omega, occursAt_drop.mp hk⟩

/-- What is found begins after a fence, and ends before one. -/
theorem exists_of_wrapper {inner : List Char}
    (h : (afterFence cs).bind beforeFence = some inner) :
    ∃ front word back, cs = front ++ (fence ++ (word ++ (inner ++ back))) ∧
      (word = [] ∨ word = "json".toList) := by
  rw [afterFence_eq] at h
  obtain ⟨rest, hrest, hinner⟩ := Option.bind_eq_some_iff.mp h
  obtain ⟨i, hi, rfl⟩ := Option.map_eq_some_iff.mp hrest
  rw [beforeFence_eq] at hinner
  obtain ⟨j, -, rfl⟩ := Option.map_eq_some_iff.mp hinner
  obtain ⟨tail, htail⟩ := (Text.indexOfChars_eq_some_iff.mp hi).1
  have hdrop : cs.drop (i + 3) = tail := by
    rw [← List.drop_drop, ← htail]
    exact List.drop_left' rfl
  have hcs : cs = cs.take i ++ (fence ++ tail) := by
    rw [htail, List.take_append_drop]
  split
  · next hword =>
      obtain ⟨tail', htail'⟩ := hword
      rw [hdrop] at htail'
      have hdrop' : cs.drop (i + 7) = tail' := by
        rw [show i + 7 = i + 3 + 4 from rfl, ← List.drop_drop, hdrop, ← htail']
        exact List.drop_left' rfl
      refine ⟨cs.take i, "json".toList, tail'.drop j, ?_, Or.inr rfl⟩
      rw [hdrop', List.take_append_drop, htail']
      exact hcs
  · refine ⟨cs.take i, [], tail.drop j, ?_, Or.inl rfl⟩
    rw [hdrop, List.nil_append, List.take_append_drop]
    exact hcs

theorem beforeFence_fence : beforeFence fence = some [] := by decide

/-- A part without a fence that does not end in a piece of one. -/
def Fenceless (cs : List Char) : Prop :=
  ¬fence <:+: cs ∧ ∀ c, cs.getLast? = some c → c ∉ fence

theorem Fenceless.of_cons {c : Char} (h : Fenceless (c :: cs)) : Fenceless cs := by
  refine ⟨fun hin => h.1 (hin.trans (List.suffix_cons c cs).isInfix), fun d hd => h.2 d ?_⟩
  cases cs with
  | nil => cases hd
  | cons e cs => rwa [List.getLast?_cons_cons]

/-- No fence begins in such a part. -/
theorem Fenceless.not_prefix {c : Char} (h : Fenceless (c :: cs)) (back : List Char) :
    ¬fence <+: c :: (cs ++ back) := by
  intro hfence
  have hticks : fence = [Char.ofNat 96, Char.ofNat 96, Char.ofNat 96] := by decide
  match cs with
  | [] =>
      have hc : Char.ofNat 96 = c := by
        rw [hticks] at hfence
        exact (List.cons_prefix_cons.mp hfence).1
      exact h.2 c rfl (by rw [← hc, hticks]; exact List.mem_cons_self)
  | [d] =>
      have hd : Char.ofNat 96 = d := by
        rw [hticks] at hfence
        exact (List.cons_prefix_cons.mp (List.cons_prefix_cons.mp hfence).2).1
      exact h.2 d rfl (by rw [← hd, hticks]; exact List.mem_cons_self)
  | d :: e :: rest =>
      have hshort : fence <+: c :: d :: e :: rest :=
        List.prefix_of_prefix_length_le hfence (List.prefix_append (c :: d :: e :: rest) back)
          (by rw [hticks]; simp)
      exact h.1 hshort.isInfix

theorem beforeFence_append {front : List Char} (h : Fenceless front) (back : List Char) :
    beforeFence (front ++ back) = (beforeFence back).map (front ++ ·) := by
  induction front with
  | nil => simp
  | cons c front ih =>
      rw [List.cons_append, beforeFence, if_neg (h.not_prefix back), ih h.of_cons, Option.map_map]
      rfl

/-- The text up to its first fence, whatever follows. -/
theorem exists_beforeFence_append (h : fence <:+: cs) : ∃ front rest,
    cs = front ++ (fence ++ rest) ∧ ∀ back, beforeFence (cs ++ back) = some front := by
  induction cs with
  | nil =>
      obtain ⟨front, rest, heq⟩ := h
      simp [fence] at heq
  | cons c cs ih =>
      by_cases hhere : fence <+: c :: cs
      · obtain ⟨rest, hrest⟩ := hhere
        refine ⟨[], rest, hrest.symm, fun back => ?_⟩
        have hlonger : fence <+: c :: (cs ++ back) := by
          rw [← List.cons_append, ← hrest, List.append_assoc]
          exact List.prefix_append _ _
        rw [List.cons_append, beforeFence, if_pos hlonger]
      · obtain ⟨front, rest, hcs, hbefore⟩ :=
          ih ((List.infix_cons_iff.mp h).resolve_left hhere)
        refine ⟨c :: front, rest, by rw [hcs, List.cons_append], fun back => ?_⟩
        have hlength : fence.length ≤ (c :: cs).length := by
          rw [hcs]
          simp only [List.length_cons, List.length_append]
          omega
        have hnot : ¬fence <+: c :: (cs ++ back) := fun hlonger =>
          hhere (List.prefix_of_prefix_length_le hlonger
            (List.prefix_append (c :: cs) back) hlength)
        rw [List.cons_append, beforeFence, if_neg hnot, hbefore back, Option.map_some]

theorem Fenceless.of_blanks (h : ∀ c ∈ cs, Text.isSpace c = true) : Fenceless cs := by
  have hnot : ∀ c ∈ fence, Text.isSpace c = false :=
    List.forall_mem_iff_forall_getElem.mpr (by decide)
  refine ⟨?_, fun c hc hmem => ?_⟩
  · rintro ⟨front, back, rfl⟩
    have hspace := h (Char.ofNat 96) (by simp [fence])
    exact absurd hspace (by decide)
  · have hspace := h c (List.mem_of_getLast? hc)
    rw [hnot c hmem] at hspace
    cases hspace

end

/-! ### Fences of a JSON text -/

section
open Runir.Lex

variable {cs : List Char}

/-- A scan that goes over a fence is inside of a string. -/
theorem scan_fence {l l' : Lex} (h : l.scan (fence ++ cs) = some l') :
    scan .inside cs = some l' := by
  have hfence : fence = List.replicate 3 (Char.ofNat 96) := by decide
  rw [hfence] at h
  cases l with
  | outside => cases h
  | inside => exact h
  | escaped => exact h

/-- A scan goes over blanks as it is. -/
theorem scan_blanks {l l' : Lex} (hl : l ≠ .escaped)
    (hcs : ∀ c ∈ cs, Text.isSpace c = true) (h : l.scan cs = some l') : l' = l := by
  induction cs with
  | nil => exact (Option.some.inj h).symm
  | cons c cs ih =>
      obtain ⟨hc, hcs⟩ := List.forall_mem_cons.mp hcs
      have hquote : c ≠ Json.quote := by
        rintro rfl
        exact absurd hc (by decide)
      have hbackslash : c ≠ Json.backslash := by
        rintro rfl
        exact absurd hc (by decide)
      have hnext : ∀ l₁, l.next c = some l₁ → l₁ = l := by
        intro l₁ h₁
        cases l with
        | outside =>
            rw [next, if_neg hquote] at h₁
            split at h₁
            · exact (Option.some.inj h₁).symm
            · cases h₁
        | inside =>
            rw [next, if_neg hquote, if_neg hbackslash] at h₁
            exact (Option.some.inj h₁).symm
        | escaped => exact absurd rfl hl
      obtain ⟨l₁, hl₁, hrest⟩ := Option.bind_eq_some_iff.mp h
      rw [hnext l₁ hl₁] at hrest
      exact ih hcs hrest

/-- A scan that goes over a text goes over what is left of it when it is trimmed. -/
theorem exists_scan_trim {l l' : Lex} (hl : l ≠ .escaped) (h : l.scan cs = some l') :
    ∃ m, l.scan (Text.trimChars cs) = some m ∧ (m ≠ .escaped → l' = m) := by
  obtain ⟨front, back, hfront, hback, hcs⟩ := Text.exists_trimWith (p := Text.isSpace) cs
  rw [hcs] at h
  obtain ⟨l₁, hl₁, h⟩ := exists_scan_of_append h
  rw [scan_blanks hl hfront hl₁] at h
  obtain ⟨m, hm, h⟩ := exists_scan_of_append h
  exact ⟨m, hm, fun hne => scan_blanks hne hback h⟩

/-- What is cut out of a JSON text is scanned from inside of a string. -/
theorem exists_scan_inner {text inner : List Char} {l : Lex}
    (htext : scan .outside text = some l) (h : (afterFence text).bind beforeFence = some inner) :
    ∃ m, scan .inside (Text.trimChars inner) = some m := by
  obtain ⟨front, word, back, rfl, hword⟩ := exists_of_wrapper h
  obtain ⟨l₁, -, hrest⟩ := exists_scan_of_append htext
  have hinside := scan_fence hrest
  have hinner : ∃ l₂, scan .inside (inner ++ back) = some l₂ := by
    rcases hword with rfl | rfl
    · exact ⟨l, hinside⟩
    · exact ⟨l, hinside⟩
  obtain ⟨l₂, hl₂⟩ := hinner
  obtain ⟨l₃, hl₃, -⟩ := exists_scan_of_append hl₂
  obtain ⟨m, hm, -⟩ := exists_scan_trim (by decide) hl₃
  exact ⟨m, hm⟩

/-- A JSON text does not end in a piece of a fence. -/
theorem Fenceless.of_scan (hscan : scan .outside cs = some .outside)
    (h : ¬fence <:+: cs) : Fenceless cs := by
  refine ⟨h, fun c hc hmem => ?_⟩
  have hc' : c = Char.ofNat 96 := by
    have hticks : fence = [Char.ofNat 96, Char.ofNat 96, Char.ofNat 96] := by decide
    rw [hticks] at hmem
    simpa using hmem
  obtain ⟨front, rfl⟩ := List.getLast?_eq_some_iff.mp hc
  obtain ⟨l, -, hlast⟩ := exists_scan_of_append hscan
  rw [hc'] at hlast
  cases l <;> cases hlast

/-- **What is read of the inside of a string** has no claims. -/
theorem arrayOf_claims_of_scan_inside {reader : JsonReader} {u : String} {v : Value} {m : Lex}
    (hread : reader.parse u = some v) (hu : scan .inside u.toList = some m) :
    arrayOf "claims" v = none := by
  cases v with
  | obj fs =>
      have hnone : fs.get? "claims" = none := by
        cases hget : fs.get? "claims" with
        | none => rfl
        | some x =>
            have htoken := reader.tokens u fs hread "claims" (Fields.mem_keys_of_get? hget)
            have hplain := plain_of_token htoken hu 'c' (by decide)
            exact absurd hplain (by decide)
      rw [arrayOf, Value.prop?, hnone]
  | _ => rfl

/-- The end of a text that is cut short at a fence: it cannot be read. -/
theorem parse_cut_eq_none {reader : JsonReader} {front rest : List Char} {l : Lex}
    (htext : scan .outside (front ++ (fence ++ rest)) = some l) :
    reader.parse (String.ofList (Text.trimChars front)) = none := by
  cases hread : reader.parse (String.ofList (Text.trimChars front)) with
  | none => rfl
  | some v =>
      have hscan := reader.scans _ v hread
      rw [String.toList_ofList] at hscan
      obtain ⟨l₁, hl₁, hrest⟩ := exists_scan_of_append htext
      obtain ⟨m, hm, hend⟩ := exists_scan_trim (by decide) hl₁
      cases hscan.symm.trans hm
      rw [hend (by decide)] at hrest
      cases hrest

end

/-! ### Responses -/

/-- A response of the schema. -/
structure ThinkOutput where
  answer : Option String
  claims : List (String × List String)
  gaps : List String
  texts : ∀ claim ∈ claims, Text.truthy (Text.trim claim.1) = true
  gaps_le : gaps.length ≤ 12

/-- The value is the object of a response. -/
structure ReadsAs (v : Value) (o : ThinkOutput) : Prop where
  answer : v.prop? "answer" = some (o.answer.elim .null .str)
  claims : ∃ xs, v.prop? "claims" = some (.arr xs) ∧ List.Forall₂ (fun x claim =>
    x.prop? "text" = some (.str claim.1) ∧ x.prop? "citations" = some (.ofStrings claim.2))
    xs.toList o.claims
  gaps : v.prop? "gaps" = some (.ofStrings o.gaps)

structure Blanks where
  chars : List Char
  blank : ∀ c ∈ chars, Text.isSpace c = true

/-- How a text is sent: as it is, or in a fence of the language, with the blanks before and after
it there. -/
inductive Wrapping where
  | bare
  | fenced (before after : Blanks)

def Wrapping.around (t : String) : Wrapping → List Char
  | .bare => t.toList
  | .fenced before after =>
      fence ++ ("json".toList ++ (before.chars ++ (t.toList ++ (after.chars ++ fence))))

/-- The output of the model. -/
def Wrapping.raw (lead trail : Blanks) (w : Wrapping) (t : String) : String :=
  String.ofList (lead.chars ++ (w.around t ++ trail.chars))

/-- No fence of the text is taken for the wrapper. -/
def Wrapping.Stands (t : String) : Wrapping → Prop
  | .bare => ¬TwoFences t.toList
  | .fenced _ _ => ¬fence <:+: t.toList

/-- The response comes back: each claim has, once each, the items that its strings stand for. -/
structure Recovered (evidence : List ThinkEvidenceItem) (o : ThinkOutput) (s : ThinkSynthesis) :
    Prop where
  valid : s.parseClassification = .valid
  answer : s.answer = o.answer.map Text.trim
  texts : s.claims.map (·.text) = o.claims.map fun claim => Text.trim claim.1
  gaps : s.gaps = o.gaps.map Text.trim
  cited : ∀ e ∈ s.claims.zip o.claims, (e.1.citations.map (·.id)).Nodup ∧
    (∀ c ∈ e.1.citations, c ∈ evidenceCitations evidence) ∧
    ∀ id, id ∈ e.1.citations.map (·.id) ↔
      ∃ key ∈ e.2.2, ∃ c, StandsFor evidence (Text.trim key) c ∧ c.id = id

def ParsesFaithfully (evidence : List ThinkEvidenceItem) (o : ThinkOutput)
    (result : Option ThinkSynthesis) : Prop :=
  ∃ s, result = some s ∧ Recovered evidence o s

/-- What a response must keep to. -/
structure Plainly (evidence : List ThinkEvidenceItem) (o : ThinkOutput) (w : Wrapping)
    (t : String) : Prop where
  stands : w.Stands t
  answer : ∀ answer, o.answer = some answer → Text.truthy (Text.trim answer) = true
  claimed : o.claims = [] → o.answer = none
  gaps : ∀ gap ∈ o.gaps, Text.trim gap = gap
  cited : ∀ claim ∈ o.claims, ∀ key ∈ claim.2, ∀ c, CutTo evidence (Text.trim key) c →
    ∃ key' ∈ claim.2, ∃ d, StandsFor evidence (Text.trim key') d ∧ d.id = c.id

/-! ### Finding the text -/

section
variable {t : String} {lead trail : Blanks} {w : Wrapping} {reader : JsonReader} {v : Value}

theorem trim_eq_iff : Text.trim t = t ↔ Text.trimChars t.toList = t.toList := by
  rw [Text.trim, ← String.toList_inj, String.toList_ofList]

/-- What surrounds the output is trimmed. -/
theorem trim_raw (htrim : Text.trim t = t) :
    Text.trim (w.raw lead trail t) = String.ofList (w.around t) := by
  rw [Text.trim, Wrapping.raw, String.toList_ofList, Text.trimChars_eq]
  have hticks : fence = [Char.ofNat 96, Char.ofNat 96, Char.ofNat 96] := by decide
  have hends : (∀ c, (w.around t).head? = some c → Text.isSpace c = false) ∧
      ∀ c, (w.around t).getLast? = some c → Text.isSpace c = false := by
    cases w with
    | bare =>
        rw [Wrapping.around, ← trim_eq_iff.mp htrim, Text.trimChars_eq]
        exact Text.trimWith_ends Text.isSpace t.toList
    | fenced before after =>
        rw [Wrapping.around, hticks]
        refine ⟨fun c hc => ?_, fun c hc => ?_⟩
        · cases hc
          decide
        · simp only [← List.append_assoc] at hc
          rw [List.getLast?_append_of_ne_nil _ (by simp)] at hc
          cases hc
          decide
  rw [Text.trimWith_around lead.blank trail.blank hends.1 hends.2]

/-- What follows the fence that a wrapped text begins with. -/
theorem afterFence_json (rest : List Char) :
    afterFence (fence ++ ("json".toList ++ rest)) = some rest := by
  have hfirst : Text.indexOfChars fence (fence ++ ("json".toList ++ rest)) = some 0 :=
    Text.indexOfChars_eq_some_iff.mpr
      ⟨List.prefix_append _ _, fun j hj => absurd hj (Nat.not_lt_zero j)⟩
  have hword : (fence ++ ("json".toList ++ rest)).drop (0 + 3) = "json".toList ++ rest :=
    List.drop_left' rfl
  have hrest : (fence ++ ("json".toList ++ rest)).drop (0 + 7) = rest := by
    rw [← List.append_assoc]
    exact List.drop_left' rfl
  rw [afterFence_eq, hfirst, Option.map_some, hword, hrest, if_pos (List.prefix_append _ _)]

/-- The text is found. -/
theorem jsonText_of_stands (htrim : Text.trim t = t) (hread : reader.parse t = some v)
    (h : w.Stands t) : jsonText (Text.trim (w.raw lead trail t)) = t := by
  rw [trim_raw htrim, jsonText, String.toList_ofList]
  cases w with
  | bare =>
      rw [Wrapping.around, wrapper_eq_none_iff.mpr h]
      exact String.ofList_toList
  | fenced before after =>
      have htext : Fenceless t.toList := Fenceless.of_scan (reader.scans t v hread) h
      rw [Wrapping.around, afterFence_json, Option.bind_some,
        beforeFence_append (Fenceless.of_blanks before.blank), beforeFence_append htext,
        beforeFence_append (Fenceless.of_blanks after.blank), beforeFence_fence]
      simp only [Option.map_some, List.append_nil]
      have hends := Text.trimWith_ends Text.isSpace t.toList
      rw [← Text.trimChars_eq, trim_eq_iff.mp htrim] at hends
      rw [Text.trim, String.toList_ofList, Text.trimChars_eq,
        Text.trimWith_around before.blank after.blank hends.1 hends.2]
      exact String.ofList_toList

/-- A text is cut out that cannot be read, or has no claims. -/
theorem claims_of_not_stands (htrim : Text.trim t = t) (hread : reader.parse t = some v)
    (h : ¬w.Stands t) {x : Value}
    (hx : reader.parse (jsonText (Text.trim (w.raw lead trail t))) = some x) :
    arrayOf "claims" x = none := by
  have hscan := reader.scans t v hread
  rw [trim_raw htrim, jsonText, String.toList_ofList] at hx
  cases w with
  | bare =>
      have hfound := mt wrapper_eq_none_iff.mp h
      rw [Wrapping.around] at hx
      cases hinner : (afterFence t.toList).bind beforeFence with
      | none => exact absurd hinner hfound
      | some inner =>
          rw [hinner] at hx
          obtain ⟨m, hm⟩ := exists_scan_inner hscan hinner
          refine arrayOf_claims_of_scan_inside hx (m := m) ?_
          simpa only [Text.trim, String.toList_ofList] using hm
  | fenced before after =>
      obtain ⟨front, rest, ht, hbefore⟩ := exists_beforeFence_append (not_not.mp h)
      rw [Wrapping.around, afterFence_json, Option.bind_some,
        beforeFence_append (Fenceless.of_blanks before.blank), hbefore, Option.map_some] at hx
      have htrimmed : Text.trimChars (before.chars ++ front) = Text.trimChars front := by
        rw [Text.trimChars, Text.dropWhile_append_of_forall before.blank]
        rfl
      simp only [Text.trim, String.toList_ofList, htrimmed] at hx
      rw [ht] at hscan
      cases (parse_cut_eq_none hscan).symm.trans hx

end

/-! ### Reading the text -/

section
variable {host : Host} {reader : JsonReader} {repair : String → Option String}
  {evidence : List ThinkEvidenceItem} {v : Value} {o : ThinkOutput} {raw : String}

/-- What has no claims is not classified valid. -/
theorem not_valid_of_claims
    (h : ∀ x, reader.parse (jsonText (Text.trim raw)) = some x → arrayOf "claims" x = none)
    {s : ThinkSynthesis}
    (hs : parseThinkResponse host ⟨reader.parse, repair⟩ evidence raw = some s) :
    s.parseClassification ≠ .valid := by
  have hsynthesize : ∀ {x : Value} {classification : ParseClassification},
      isSchemaValid host x = false ∨ classification ≠ .valid →
      synthesize host evidence x classification = some s → s.parseClassification ≠ .valid := by
    intro x classification hnot hx
    rw [synthesize] at hx
    split at hx
    · cases hx
      exact ParseClassification.noConfusion
    · obtain ⟨read, -, rfl⟩ := Option.map_eq_some_iff.mp hx
      rcases hnot with hnot | hnot
      · simp [hnot]
      · split
        · exact hnot
        · exact ParseClassification.noConfusion
  rw [parseThinkResponse, ThinkReader.read] at hs
  cases hread : reader.parse (jsonText (Text.trim raw)) with
  | some x =>
      simp only [hread] at hs
      refine hsynthesize (Or.inl ?_) hs
      rw [isSchemaValid, h x hread]
      rfl
  | none =>
      simp only [hread] at hs
      cases hrepair : (repair (jsonText (Text.trim raw))).bind reader.parse with
      | some x =>
          simp only [hrepair, Option.map_some] at hs
          exact hsynthesize (Or.inr ParseClassification.noConfusion) hs
      | none =>
          simp only [hrepair, Option.map_none] at hs
          cases hs
          exact ParseClassification.noConfusion

/-- The trimmed text of a claim and the strings it cites. -/
def trimmedClaim (claim : String × List String) : String × List String :=
  (Text.trim claim.1, claim.2.map Text.trim)

theorem mapM_citationKey (host : Host) (keys : List String) :
    (keys.map Value.str).mapM (citationKey host) = some (keys.map Text.trim) := by
  induction keys with
  | nil => rfl
  | cons key keys ih =>
      rw [List.map_cons, List.mapM_cons, ih]
      rfl

theorem readClaim_of {x : Value} {claim : String × List String}
    (htext : x.prop? "text" = some (.str claim.1))
    (hcitations : x.prop? "citations" = some (.ofStrings claim.2))
    (htruthy : Text.truthy (Text.trim claim.1) = true) :
    readClaim host x = some (some (trimmedClaim claim)) := by
  simp only [readClaim, htext, hcitations, Option.bind_some, Value.str?, Value.ofStrings,
    Values.toList_ofList, mapM_citationKey, htruthy, if_true, Option.map_some]
  rfl

theorem mapM_readClaim {xs : List Value} {claims : List (String × List String)}
    (h : List.Forall₂ (fun x claim => Value.prop? "text" x = some (.str claim.1) ∧
      x.prop? "citations" = some (.ofStrings claim.2)) xs claims)
    (htexts : ∀ claim ∈ claims, Text.truthy (Text.trim claim.1) = true) :
    xs.mapM (readClaim host) = some (claims.map fun claim => some (trimmedClaim claim)) := by
  induction h with
  | nil => rfl
  | cons hx _ ih =>
      obtain ⟨htruthy, htexts⟩ := List.forall_mem_cons.mp htexts
      rw [List.mapM_cons, readClaim_of hx.1 hx.2 htruthy, ih htexts]
      rfl

namespace ReadsAs

theorem isObject (h : ReadsAs v o) : isObject v = true := by
  have hgaps := h.gaps
  cases v with
  | obj fs => rfl
  | _ => cases hgaps

theorem answerOf (h : ReadsAs v o) :
    answerOf v = (o.answer.map Text.trim).filter Text.truthy := by
  rw [Runir.answerOf, h.answer]
  cases o.answer with
  | none => rfl
  | some answer => rfl

theorem gapsOf (h : ReadsAs v o) : gapsOf v = o.gaps := by
  have hstrings : (o.gaps.map Value.str).filterMap Value.str? = o.gaps := by
    rw [List.filterMap_map]
    exact List.filterMap_some
  rw [Runir.gapsOf, arrayOf, h.gaps]
  simp only [Value.ofStrings, Values.toList_ofList, Option.getD_some, hstrings]
  exact List.take_of_length_le o.gaps_le

theorem mapM_readClaim (h : ReadsAs v o) :
    ((arrayOf "claims" v).getD []).mapM (readClaim host) =
      some (o.claims.map fun claim => some (trimmedClaim claim)) := by
  obtain ⟨xs, hxs, hclaims⟩ := h.claims
  rw [arrayOf, hxs]
  exact Runir.mapM_readClaim hclaims o.texts

theorem isSchemaValid (h : ReadsAs v o) : isSchemaValid host v = true := by
  obtain ⟨xs, hxs, hclaims⟩ := h.claims
  have hall : xs.toList.all (fun c => ((readClaim host c).join).isSome) = true := by
    refine List.all_eq_true.mpr fun x hx => ?_
    obtain ⟨i, hi, rfl⟩ := List.mem_iff_getElem.mp hx
    have hi' : i < o.claims.length := hclaims.length_eq ▸ hi
    obtain ⟨htext, hcitations⟩ := hclaims.get hi hi'
    rw [List.get_eq_getElem] at htext hcitations
    rw [readClaim_of htext hcitations (o.texts _ (List.getElem_mem hi'))]
    rfl
  rw [Runir.isSchemaValid, arrayOf, hxs, arrayOf, h.gaps, h.answer]
  simp only [hall, Value.ofStrings]
  cases o.answer with
  | none => rfl
  | some answer => rfl

theorem readClaims_of_nil (h : ReadsAs v o) (hnil : o.claims = [])
    (hanswer : Runir.answerOf v = none) : Runir.readClaims host v = some [] := by
  rw [Runir.readClaims, h.mapM_readClaim, hnil, hanswer]
  rfl

/-- Without claims the answer is made one. -/
theorem length_readClaims (h : ReadsAs v o) (hnil : o.claims = [])
    {read : List (String × List String)} (hread : Runir.readClaims host v = some read) :
    read = [] ↔ Runir.answerOf v = none := by
  rw [Runir.readClaims, h.mapM_readClaim, hnil] at hread
  cases hanswer : Runir.answerOf v with
  | none =>
      rw [hanswer] at hread
      cases hread
      simp
  | some answer =>
      rw [hanswer] at hread
      simp only [List.map_nil, Option.bind_eq_bind, Option.bind_some] at hread
      obtain ⟨legacy, -, hread⟩ := Option.bind_eq_some_iff.mp hread
      cases hread
      simp

/-- The claims of a response that has some. -/
theorem readClaims (h : ReadsAs v o) (hne : o.claims ≠ []) :
    readClaims host v = some (o.claims.map trimmedClaim) := by
  have hreduce : (o.claims.map fun claim => some (trimmedClaim claim)).reduceOption =
      o.claims.map trimmedClaim := by
    change List.filterMap id _ = _
    rw [List.filterMap_map]
    exact congrFun (List.filterMap_eq_map (f := trimmedClaim)) o.claims
  rw [Runir.readClaims, h.mapM_readClaim]
  simp only [Option.bind_eq_bind, Option.bind_some, hreduce]
  split
  · next hnil _ => exact absurd (List.map_eq_nil_iff.mp hnil) hne
  · rfl

end ReadsAs

/-- The synthesis of a response that is read. -/
theorem synthesize_of (h : ReadsAs v o) : synthesize host evidence v .valid =
    (readClaims host v).map fun read =>
      { answer := (o.answer.map Text.trim).filter Text.truthy
        claims := read.map (resolveClaim evidence)
        citations := allCitations (read.map (resolveClaim evidence))
        gaps := o.gaps
        droppedCitations := (read.map (resolveClaim evidence)).flatMap (·.droppedCitations)
        schemaValid := true
        parseClassification := .valid } := by
  rw [synthesize, h.isObject, h.answerOf, h.gapsOf, h.isSchemaValid]
  rfl

end

/-! ### The citations of a claim -/

section
variable {evidence : List ThinkEvidenceItem} {keys : List String} {id : String}

variable {key : String}

theorem resolve_mem {c : ThinkCitation}
    (h : resolveCitation evidence key = some c) : c ∈ evidenceCitations evidence := by
  rcases resolveCitation_cases evidence key with ⟨c', hc', hd⟩ | ⟨c', hc', hcut⟩ | ⟨hnone, -⟩
  · cases h.symm.trans hc'
    exact hd.1
  · cases h.symm.trans hc'
    exact hcut.2.2.1
  · cases h.symm.trans hnone

/-- What a string stands for has one id. -/
theorem StandsFor.id_eq {c d : ThinkCitation} (hc : StandsFor evidence key c)
    (hd : StandsFor evidence key d) : c.id = d.id := by
  rcases hc.2 with heq | ⟨hno, hshort, hsole⟩
  · rcases hd.2 with heq' | ⟨hno', -⟩
    · exact heq.symm.trans heq'
    · exact absurd heq (hno' c hc.1)
  · rcases hd.2 with heq' | ⟨-, hshort', -⟩
    · exact absurd heq' (hno d hd.1)
    · exact congrArg ThinkCitation.id (hsole.2 d hd.1 (hshort'.symm.trans hshort)).symm

theorem exists_resolve_of_standsFor {c : ThinkCitation} (h : StandsFor evidence key c) :
    ∃ c', resolveCitation evidence key = some c' ∧ c'.id = c.id := by
  rcases resolveCitation_cases evidence key with ⟨c', hc', hd⟩ | ⟨c', -, hcut⟩ | ⟨-, hno, -⟩
  · exact ⟨c', hc', hd.id_eq h⟩
  · exact absurd h.denotes (hcut.1 c)
  · exact absurd h.denotes (hno c)

/-- The ids found for some strings: of what these stand for, and of what they are cut down to. -/
theorem mem_resolved_ids_iff :
    id ∈ (distinctOn ThinkCitation.id (keys.filterMap (resolveCitation evidence))).map (·.id) ↔
      (∃ key ∈ keys, ∃ c, StandsFor evidence key c ∧ c.id = id) ∨
        ∃ key ∈ keys, ∃ c, CutTo evidence key c ∧ c.id = id := by
  have hids : (distinctOn ThinkCitation.id (keys.filterMap (resolveCitation evidence))).map
      (·.id) = distinct ((keys.filterMap (resolveCitation evidence)).map (·.id)) :=
    map_distinctOn ThinkCitation.id _
  rw [hids, mem_distinct, List.mem_map]
  constructor
  · rintro ⟨c, hc, rfl⟩
    obtain ⟨key, hkey, hresolve⟩ := List.mem_filterMap.mp hc
    rcases resolveCitation_cases evidence key with ⟨c', hc', hd⟩ | ⟨c', hc', hcut⟩ | ⟨hnone, -⟩
    · cases hresolve.symm.trans hc'
      exact Or.inl ⟨key, hkey, c, hd, rfl⟩
    · cases hresolve.symm.trans hc'
      exact Or.inr ⟨key, hkey, c, hcut, rfl⟩
    · cases hresolve.symm.trans hnone
  · rintro (⟨key, hkey, c, hstands, rfl⟩ | ⟨key, hkey, c, hcut, rfl⟩)
    · obtain ⟨c', hresolve, hid⟩ := exists_resolve_of_standsFor hstands
      exact ⟨c', List.mem_filterMap.mpr ⟨key, hkey, hresolve⟩, hid⟩
    · exact ⟨c, List.mem_filterMap.mpr ⟨key, hkey, resolve_of_cutTo hcut⟩, rfl⟩

/-- **A claim has what its strings stand for** if and only if what is made up is cut down to that
too. -/
theorem cited_iff (claim : String × List String) :
    (((resolveClaim evidence (trimmedClaim claim)).citations.map (·.id)).Nodup ∧
      (∀ c ∈ (resolveClaim evidence (trimmedClaim claim)).citations,
        c ∈ evidenceCitations evidence) ∧
      ∀ id, id ∈ (resolveClaim evidence (trimmedClaim claim)).citations.map (·.id) ↔
        ∃ key ∈ claim.2, ∃ c, StandsFor evidence (Text.trim key) c ∧ c.id = id) ↔
    ∀ key ∈ claim.2, ∀ c, CutTo evidence (Text.trim key) c →
      ∃ key' ∈ claim.2, ∃ d, StandsFor evidence (Text.trim key') d ∧ d.id = c.id := by
  rw [resolveClaim_eq]
  have hids := map_distinctOn ThinkCitation.id
    ((trimmedClaim claim).2.filterMap (resolveCitation evidence))
  constructor
  · rintro ⟨-, -, hiff⟩ key hkey c hcut
    refine (hiff c.id).mp (mem_resolved_ids_iff.mpr (Or.inr ⟨Text.trim key, ?_, c, hcut, rfl⟩))
    exact List.mem_map_of_mem hkey
  · intro h
    refine ⟨?_, fun c hc => ?_, fun id => ?_⟩
    · rw [show (fun c : ThinkCitation => c.id) = ThinkCitation.id from rfl, hids]
      exact nodup_distinct _
    · obtain ⟨key, -, hresolve⟩ := List.mem_filterMap.mp (mem_of_mem_distinctOn hc)
      exact resolve_mem hresolve
    · rw [mem_resolved_ids_iff]
      constructor
      · rintro (⟨key, hkey, c, hstands, rfl⟩ | ⟨key, hkey, c, hcut, rfl⟩)
        · obtain ⟨cited, hmem, rfl⟩ := List.mem_map.mp hkey
          exact ⟨cited, hmem, c, hstands, rfl⟩
        · obtain ⟨cited, hmem, rfl⟩ := List.mem_map.mp hkey
          exact h cited hmem c hcut
      · rintro ⟨key, hkey, c, hstands, rfl⟩
        exact Or.inl ⟨Text.trim key, List.mem_map_of_mem hkey, c, hstands, rfl⟩

end

/-! ### The response comes back -/

section
variable {host : Host} {reader : JsonReader} {repair : String → Option String}
  {evidence : List ThinkEvidenceItem} {v : Value} {o : ThinkOutput}

/-- The synthesis of the claims `read` from a response comes back. -/
theorem recovered_iff {s : ThinkSynthesis} (h : ReadsAs v o)
    (hs : synthesize host evidence v .valid = some s) : Recovered evidence o s ↔
    (∀ answer, o.answer = some answer → Text.truthy (Text.trim answer) = true) ∧
    (o.claims = [] → o.answer = none) ∧ (∀ gap ∈ o.gaps, Text.trim gap = gap) ∧
    ∀ claim ∈ o.claims, ∀ key ∈ claim.2, ∀ c, CutTo evidence (Text.trim key) c →
      ∃ key' ∈ claim.2, ∃ d, StandsFor evidence (Text.trim key') d ∧ d.id = c.id := by
  rw [synthesize_of h] at hs
  obtain ⟨read, hread, rfl⟩ := Option.map_eq_some_iff.mp hs
  have hanswer : (o.answer.map Text.trim).filter Text.truthy = o.answer.map Text.trim ↔
      ∀ answer, o.answer = some answer → Text.truthy (Text.trim answer) = true := by
    cases o.answer with
    | none => simp
    | some answer => simp [Option.filter_some]
  have hgaps : o.gaps = o.gaps.map Text.trim ↔ ∀ gap ∈ o.gaps, Text.trim gap = gap := by
    constructor
    · intro heq gap hgap
      rw [← List.map_id o.gaps, List.map_map] at heq
      exact (List.map_inj_left.mp heq gap hgap).symm
    · intro h
      exact ((List.map_congr_left h).trans (List.map_id _)).symm
  have hzip : ∀ e ∈ (o.claims.map (fun claim => resolveClaim evidence (trimmedClaim claim))).zip
      o.claims, e.1 = resolveClaim evidence (trimmedClaim e.2) ∧ e.2 ∈ o.claims :=
    fun e he => mem_zip_map he
  by_cases hne : o.claims = []
  · have hempty : read.map (·.1) = [] ↔ (o.answer.map Text.trim).filter Text.truthy = none := by
      rw [List.map_eq_nil_iff, h.length_readClaims hne hread, h.answerOf]
    have htexts : (read.map (resolveClaim evidence)).map (·.text) = read.map (·.1) := by
      rw [List.map_map]
      exact List.map_congr_left fun claim _ => by simp [resolveClaim_eq]
    constructor
    · rintro ⟨-, ha, ht, hg, -⟩
      refine ⟨hanswer.mp ha, fun _ => ?_, hgaps.mp hg, fun claim hclaim => ?_⟩
      · rw [htexts, hne, List.map_nil, hempty] at ht
        have hnone := ha.symm.trans ht
        simpa using hnone
      · rw [hne] at hclaim
        cases hclaim
    · rintro ⟨ha, hclaimed, hg, -⟩
      have hnone := hclaimed hne
      refine ⟨rfl, hanswer.mpr ha, ?_, hgaps.mpr hg, fun e he => ?_⟩
      · rw [htexts, hne, List.map_nil, hempty, hnone]
        rfl
      · rw [hne, List.zip_nil_right] at he
        cases he
  · rw [h.readClaims hne] at hread
    cases hread
    simp only [List.map_map]
    constructor
    · rintro ⟨-, ha, -, hg, hcited⟩
      refine ⟨hanswer.mp ha, fun hnil => absurd hnil hne, hgaps.mp hg, fun claim hclaim => ?_⟩
      refine (cited_iff claim).mp (hcited (resolveClaim evidence (trimmedClaim claim), claim) ?_)
      obtain ⟨i, hi, rfl⟩ := List.mem_iff_getElem.mp hclaim
      exact List.mem_iff_getElem.mpr ⟨i, by simpa using hi, by simp⟩
    · rintro ⟨ha, -, hg, hcited⟩
      refine ⟨rfl, hanswer.mpr ha, ?_, hgaps.mpr hg, fun e he => ?_⟩
      · rw [List.map_map]
        exact List.map_congr_left fun claim _ => by simp [resolveClaim_eq, trimmedClaim]
      · obtain ⟨heq, hclaim⟩ := hzip e he
        rw [heq]
        exact (cited_iff e.2).mpr (hcited e.2 hclaim)

/-- **Think parsing is faithful** if and only if no fence of the text is taken for its wrapper, the
answer is not blank and has a claim, the gaps are trimmed, and what a made-up citation is cut down
to is cited next to it. -/
theorem parsesFaithfully_iff {t : String} (hread : reader.parse t = some v) (h : ReadsAs v o)
    (htrim : Text.trim t = t) (lead trail : Blanks) (w : Wrapping) :
    ParsesFaithfully evidence o
      (parseThinkResponse host ⟨reader.parse, repair⟩ evidence (w.raw lead trail t)) ↔
    Plainly evidence o w t := by
  by_cases hstands : w.Stands t
  · have hparse : parseThinkResponse host ⟨reader.parse, repair⟩ evidence (w.raw lead trail t) =
        synthesize host evidence v .valid := by
      simp only [parseThinkResponse, ThinkReader.read, jsonText_of_stands htrim hread hstands,
        hread]
    rw [hparse]
    constructor
    · rintro ⟨s, hs, hfaithful⟩
      obtain ⟨ha, hclaimed, hg, hcited⟩ := (recovered_iff h hs).mp hfaithful
      exact ⟨hstands, ha, hclaimed, hg, hcited⟩
    · rintro ⟨-, ha, hclaimed, hg, hcited⟩
      have hsome : ∃ read, readClaims host v = some read := by
        by_cases hne : o.claims = []
        · exact ⟨[], h.readClaims_of_nil hne (by rw [h.answerOf, hclaimed hne]; rfl)⟩
        · exact ⟨_, h.readClaims hne⟩
      obtain ⟨read, hread'⟩ := hsome
      have hs : synthesize host evidence v .valid = _ := synthesize_of h
      rw [hread', Option.map_some] at hs
      exact ⟨_, hs, (recovered_iff h hs).mpr ⟨ha, hclaimed, hg, hcited⟩⟩
  · refine ⟨?_, fun hplain => absurd hplain.stands hstands⟩
    rintro ⟨s, hs, hfaithful⟩
    refine absurd hfaithful.valid ?_
    exact not_valid_of_claims (fun x hx => claims_of_not_stands htrim hread hstands hx) hs

end

/-- An answer about a command, in a fence of its own. -/
def commandOutput : ThinkOutput where
  answer := some "Run ```ls``` first."
  claims := [("It is listed first.", ["memory:k3f9a0b2c4"])]
  gaps := []
  texts := by decide
  gaps_le := by decide

def commandText : String :=
  "\x7b\"answer\":\"Run ```ls``` first.\",\"claims\":[\x7b\"text\":\"It is listed first.\"," ++
    "\"citations\":[\"memory:k3f9a0b2c4\"]\x7d],\"gaps\":[]\x7d"

def commandValue : Value :=
  .obj (.cons "answer" (.str "Run ```ls``` first.") (.cons "claims" (.arr (.cons (.obj
    (.cons "text" (.str "It is listed first.") (.cons "citations"
      (.ofStrings ["memory:k3f9a0b2c4"]) .nil))) .nil)) (.cons "gaps" (.ofStrings []) .nil)))

theorem commandValue_readsAs : ReadsAs commandValue commandOutput where
  answer := rfl
  claims := ⟨_, rfl, .cons ⟨rfl, rfl⟩ .nil⟩
  gaps := rfl

/-- What stands between the fences is read instead of the text around them. -/
theorem command_is_lost :
    (Json.reader.parse commandText = some commandValue ∧ ReadsAs commandValue commandOutput) ∧
    ¬ParsesFaithfully lookAlikeEvidence commandOutput
      (parseThinkResponse Host.ascii ⟨Json.reader.parse, fun _ => none⟩ lookAlikeEvidence
        commandText) := by
  refine ⟨⟨by decide +kernel, commandValue_readsAs⟩, ?_⟩
  rintro ⟨s, hs, hfaithful⟩
  have hlost : parseThinkResponse Host.ascii ⟨Json.reader.parse, fun _ => none⟩ lookAlikeEvidence
      commandText = some (noAnswer
        "synthesis output was not parseable JSON — no answer produced" .unparseable) := by
    decide +kernel
  cases hs.symm.trans hlost
  cases hfaithful.valid

/-- An answer in a fence. -/
def portOutput : ThinkOutput where
  answer := none
  claims := [("The port is 3000.", ["memory:k3f9a0b2c4"])]
  gaps := ["The host is not known."]
  texts := by decide
  gaps_le := by decide

def portText : String :=
  "\x7b\"answer\":null,\"claims\":[\x7b\"text\":\"The port is 3000.\"," ++
    "\"citations\":[\"memory:k3f9a0b2c4\"]\x7d],\"gaps\":[\"The host is not known.\"]\x7d"

def portValue : Value :=
  .obj (.cons "answer" .null (.cons "claims" (.arr (.cons (.obj
    (.cons "text" (.str "The port is 3000.") (.cons "citations"
      (.ofStrings ["memory:k3f9a0b2c4"]) .nil))) .nil))
    (.cons "gaps" (.ofStrings ["The host is not known."]) .nil)))

theorem port_comes_back : ParsesFaithfully lookAlikeEvidence portOutput
    (parseThinkResponse Host.ascii ⟨Json.reader.parse, fun _ => none⟩ lookAlikeEvidence
      (Wrapping.raw ⟨[], nofun⟩ ⟨['\n'], List.forall_mem_singleton.mpr rfl⟩
        (.fenced ⟨['\n'], List.forall_mem_singleton.mpr rfl⟩ ⟨['\n'], List.forall_mem_singleton.mpr rfl⟩) portText)) := by
  have hreads : ReadsAs portValue portOutput :=
    ⟨rfl, ⟨_, rfl, .cons ⟨rfl, rfl⟩ .nil⟩, rfl⟩
  refine (parsesFaithfully_iff (by decide +kernel) hreads (by decide +kernel) _ _ _).mpr
    ⟨?_, fun answer h => ?_, fun h => ?_, by decide +kernel, ?_⟩
  · exact (by decide +kernel : ¬fence <:+: portText.toList)
  · cases h
  · cases h
  · intro claim hclaim key hkey c hcut
    cases List.mem_singleton.mp hclaim
    cases List.mem_singleton.mp hkey
    refine absurd ⟨?_, Or.inl ?_⟩ (hcut.1 ⟨"memory:k3f9a0b2c4", 0⟩)
    · decide +kernel
    · decide +kernel

end Runir
