import Runir.Capture.FactValues
import Runir.Lib.Lists

/-!
# Capture — Fact isolation

The passes `extractMemories` makes over the facts of a reply, and what one fact does to another.

* `stampSources`, `resolveTemporalPhrases`, `repairListShapedFacts`: the passes over all facts; the
  first and the last throw where a text of a fact cannot be read as one.
* `gate`: the last loop, whose comparison throws where a confidence cannot be read as a number.
* `factsOf`: the facts of a reply.  A pass that throws ends it with what the last loop has.
* `factsOf_isolated_iff`: the facts of a reply are those of its elements alone, exactly where no
  fact that would be kept stands beside one that breaks a pass or after one that breaks the loop.
-/

namespace Runir
open RawFact Regex

/-- The elements of `facts` that are facts: a text is one, other primitives are not. -/
def rawFact? : Value → Option RawFact
  | .str s => some (.cons "l2" (.str s) (.cons "confidence" (.num 1) .nil))
  | .obj fs => some fs
  | .arr _ => some .nil
  | _ => none

section
variable (ex : FactHost) (messages : List CaptureMessage)

/-! ### The passes -/

/-- The index a fact's source is settled on, given the text of its `l2`. -/
def sourceIndex (raw : RawFact) (l2 : String) : Option ℚ :=
  chosenIndex messages
    { l2 := l2, confidence := 0, sourceTurnIndex := number? raw "source_turn_index" }

/-- The fact with its source, if one is settled on. -/
def withSource (raw : RawFact) (idx : Option ℚ) : RawFact :=
  match idx.bind fun i => (messageAt messages i).map (i, ·) with
  | some (i, message) =>
      (raw.set "raw_source_text" (.str message.content)).set "source_turn_index" (.num i)
  | none => raw.drop "raw_source_text"

def stampSource? (raw : RawFact) : Option RawFact :=
  (stringOf ex (raw.get? "l2")).map fun l2 => withSource messages raw (sourceIndex messages raw l2)

/-- A text property with its relative dates resolved. -/
def resolveText (k : String) (raw : RawFact) : RawFact :=
  match raw.get? k with
  | some (.str s) => raw.set k (.str (ex.resolveRelativeTemporalPhrases s))
  | _ => raw

def resolveTexts (raw : RawFact) : RawFact :=
  resolveText ex "l1" (resolveText ex "l0" (resolveText ex "l2" raw))

/-- The items of the list a fact's source is. -/
def sourceItems (raw : RawFact) : List String :=
  match (raw.get? "raw_source_text").bind Value.str? with
  | none => []
  | some source => if Text.truthy source then parseSourceListItems source else []

def listClaim (item : String) (index : Nat) : Value :=
  .obj (.cons "text" (.str item) (.cons "value" (.str item) (.cons "rawSpanText" (.str item)
    (.cons "order" (.num (index + 1 : Nat)) .nil))))

/-- The properties of an object, those without a value left out. -/
def fieldsOf (fs : List (String × Option Value)) : Fields :=
  fs.foldr (fun f rest => match f.2 with
    | none => rest
    | some v => .cons f.1 v rest) .nil

def listSpan (raw : RawFact) (source item : String) : Value :=
  let cursorStart := (Text.indexOf source item).map (Text.unitsBefore source)
  .obj (fieldsOf
    [ ("text", some (.str item)),
      ("sourceTurnIndex", raw.get? "source_turn_index"),
      ("kind", some (.str "list_item")),
      ("cursorStart", some (.num ((cursorStart.map fun n => (n : ℚ)).getD (-1)))),
      ("cursorEnd", cursorStart.map fun n => .num ((n + Text.length item : Nat) : ℚ)) ])

/-- `raw.l1 ?? ""`. -/
def l1Value (raw : RawFact) : Value :=
  match raw.get? "l1" with
  | none | some .null => .str ""
  | some l1 => l1

/-- The list repair of a fact whose `l1` has this text. -/
def repairWith (raw : RawFact) (l1 : String) : RawFact :=
  let items := sourceItems raw
  let source := (((raw.get? "raw_source_text").bind Value.str?).getD "")
  let existingClaims := ((RawFact.normalizeAtomicClaims (raw.get? "atomicClaims")).getD []).length
  let claimed :=
    if existingClaims < items.length then
      raw.set "atomicClaims" (.arr (.ofList (items.zipIdx.map fun p => listClaim p.1 p.2)))
    else raw
  let spanned := claimed.set "rawSpans" (.arr (.ofList (items.map (listSpan raw source))))
  let headed :=
    if Text.test (.seq lineStart listMarker) l1 then spanned
    else spanned.set "l1" (.str ("## Source List\n" ++ bullets items))
  let l2 := ((raw.get? "l2").bind Value.str?).getD ""
  let represented := (items.filter fun item => Text.includes l2 item).length
  if (represented : ℚ) / items.length < 1 / 2 then
    headed.set "l2" (.str (l2 ++ "\n\nExact source list:\n" ++ bullets items))
  else headed

def repairListShapedFact? (raw : RawFact) : Option RawFact :=
  if (sourceItems raw).length < 2 then some raw
  else (stringOf ex (some (l1Value raw))).map (repairWith raw)

/-! ### The gate -/

/-- `Math.max(CONFIDENCE_THRESHOLD, perCategoryThreshold(raw.category))`. -/
def threshold (raw : RawFact) : ℚ :=
  max ex.confidenceThreshold
    (match raw.get? "category" with
    | none => perCategoryThreshold none
    | some (.str category) => perCategoryThreshold (some category)
    | some _ => 95 / 100)

/-- `raw.confidence < min`, which a value that is no number is not. -/
def isBelow (raw : RawFact) : Option Bool :=
  (numberOf ex (raw.get? "confidence")).map fun q => q.any fun c => decide (c < threshold ex raw)

/-- The last loop, with the facts it has. -/
def gate (passed : List ExtractedFact) : List RawFact → List ExtractedFact
  | [] => passed
  | raw :: rest =>
      match isBelow ex raw with
      | none => passed
      | some true => gate passed rest
      | some false => gate (passed ++ (RawFact.normalizeExtractedFact ex raw).toList) rest

/-- `extractMemories`, of a reply with an array of facts. -/
def factsOf (facts : List Value) : List ExtractedFact :=
  match (facts.filterMap rawFact?).mapM (stampSource? ex messages) with
  | none => []
  | some stamped =>
      match (stamped.map (resolveTexts ex)).mapM (repairListShapedFact? ex) with
      | none => []
      | some repaired => gate ex [] repaired

/-! ### Properties -/

end

theorem get?_set (k : String) (v : Value) (k' : String) : ∀ fs : Fields,
    (fs.set k v).get? k' = if k' = k then some v else fs.get? k'
  | .nil => by simp [Fields.set, Fields.get?, eq_comm]
  | .cons k₀ x fs => by
      have ih := get?_set k v k' fs
      by_cases h₀ : k₀ = k
      · subst h₀
        by_cases h : k' = k₀
        · simp [Fields.set, Fields.get?, h]
        · simp [Fields.set, Fields.get?, h, Ne.symm h]
      · by_cases h : k₀ = k'
        · subst h
          simp [Fields.set, Fields.get?, h₀]
        · simp [Fields.set, Fields.get?, h₀, h, ih]

variable {k k' : String}

theorem get?_set_ne (h : k' ≠ k) (v : Value) (fs : Fields) :
    (fs.set k v).get? k' = fs.get? k' := by
  rw [get?_set, if_neg h]

theorem get?_drop_ne (h : k' ≠ k) : ∀ fs : Fields,
    (fs.drop k).get? k' = fs.get? k'
  | .nil => rfl
  | .cons k₀ x fs => by
      have ih := get?_drop_ne h fs
      by_cases h₀ : k₀ = k
      · subst h₀
        simp [Fields.drop, Fields.get?, Ne.symm h, ih]
      · simp [Fields.drop, Fields.get?, h₀, ih]

section
variable (ex : FactHost) (messages : List CaptureMessage)

/-! ### One fact -/

/-- A value has a text, and a number. -/
def Readable (v : Option Value) : Prop := ∀ x, v = some x → x.converts = true

theorem stringOf_eq_none_iff {v : Option Value} : stringOf ex v = none ↔ ¬ Readable v := by
  cases v with
  | none => simp [stringOf, Readable]
  | some x => simp [stringOf, Readable]

theorem numberOf_eq_none_iff {v : Option Value} : RawFact.numberOf ex v = none ↔ ¬ Readable v := by
  cases v with
  | none => simp [RawFact.numberOf, Readable]
  | some x =>
      cases x with
      | arr xs => simp [RawFact.numberOf, Readable, stringOf]
      | obj fs => simp [RawFact.numberOf, Readable, stringOf]
      | _ => simp [RawFact.numberOf, Readable, Value.converts]

/-- A fact after the passes. -/
def prepared (raw : RawFact) : Option RawFact :=
  (stampSource? ex messages raw).bind fun stamped =>
    repairListShapedFact? ex (resolveTexts ex stamped)

/-- The fact that is kept of an element alone. -/
def kept? (raw : RawFact) : Option ExtractedFact :=
  (prepared ex messages raw).bind fun raw =>
    if isBelow ex raw = some false then RawFact.normalizeExtractedFact ex raw else none

/-- A pass over all facts throws at this one: its `l2` has no text, or its source is a list and its
`l1` has none. -/
def BreaksPass (raw : RawFact) : Prop :=
  ¬ Readable (raw.get? "l2") ∨ ∃ l2, stringOf ex (raw.get? "l2") = some l2 ∧
    2 ≤ (sourceItems (withSource messages raw (sourceIndex messages raw l2))).length ∧
      ¬ Readable (raw.get? "l1")

/-- The last loop throws at this one. -/
def BreaksGate (raw : RawFact) : Prop := ¬ Readable (raw.get? "confidence")

/-- The properties that the stamp writes. -/
theorem get?_withSource {k : String} (h : k ≠ "raw_source_text") (h' : k ≠ "source_turn_index")
    (raw : RawFact) (idx : Option ℚ) : (withSource messages raw idx).get? k = raw.get? k := by
  unfold withSource
  split
  · rw [get?_set_ne h', get?_set_ne h]
  · exact get?_drop_ne h raw

theorem get?_resolveText_ne (h : k' ≠ k) (raw : RawFact) :
    (resolveText ex k raw).get? k' = raw.get? k' := by
  unfold resolveText
  split
  · exact get?_set_ne h _ raw
  · rfl

theorem get?_resolveTexts {k : String} (h₂ : k ≠ "l2") (h₀ : k ≠ "l0") (h₁ : k ≠ "l1")
    (raw : RawFact) : (resolveTexts ex raw).get? k = raw.get? k := by
  unfold resolveTexts
  rw [get?_resolveText_ne ex h₁, get?_resolveText_ne ex h₀, get?_resolveText_ne ex h₂]

/-- A resolved text is a text, as it was. -/
theorem readable_l1_resolveTexts (raw : RawFact) :
    Readable ((resolveTexts ex raw).get? "l1") ↔ Readable (raw.get? "l1") := by
  have hsame : (resolveText ex "l0" (resolveText ex "l2" raw)).get? "l1" = raw.get? "l1" := by
    rw [get?_resolveText_ne ex (by decide), get?_resolveText_ne ex (by decide)]
  unfold resolveTexts
  generalize resolveText ex "l0" (resolveText ex "l2" raw) = raw' at hsame
  rw [← hsame]
  unfold resolveText
  split
  · rename_i s hs
    rw [get?_set, if_pos rfl, hs]
    simp [Readable, Value.converts]
  · rfl

theorem sourceItems_resolveTexts (raw : RawFact) :
    sourceItems (resolveTexts ex raw) = sourceItems raw := by
  unfold sourceItems
  rw [get?_resolveTexts ex (by decide) (by decide) (by decide)]

variable {raw : RawFact}

theorem stringOf_l1Value_eq_none_iff :
    stringOf ex (some (l1Value raw)) = none ↔ ¬ Readable (raw.get? "l1") := by
  rw [stringOf_eq_none_iff]
  unfold l1Value
  split
  · rename_i h
    rw [h]
    simp [Readable, Value.converts]
  · rename_i h
    rw [h]
    simp [Readable, Value.converts]
  · rename_i v _ h
    rw [h]

theorem repairListShapedFact?_eq_none_iff :
    repairListShapedFact? ex raw = none ↔
      2 ≤ (sourceItems raw).length ∧ ¬ Readable (raw.get? "l1") := by
  unfold repairListShapedFact?
  split
  · rename_i h
    simp only [reduceCtorEq, false_iff, not_and]
    exact fun h' => absurd h' (not_le.mpr h)
  · rename_i h
    rw [Option.map_eq_none_iff, stringOf_l1Value_eq_none_iff, and_iff_right (not_lt.mp h)]

/-- **What breaks the passes** is in the fact and in its source. -/
theorem prepared_eq_none_iff :
    prepared ex messages raw = none ↔ BreaksPass ex messages raw := by
  unfold prepared stampSource? BreaksPass
  cases hl2 : stringOf ex (raw.get? "l2") with
  | none =>
      have hno := (stringOf_eq_none_iff ex).mp hl2
      exact ⟨fun _ => Or.inl hno, fun _ => rfl⟩
  | some l2 =>
      have hyes : ¬ ¬ Readable (raw.get? "l2") := fun hno => by
        rw [(stringOf_eq_none_iff ex).mpr hno] at hl2
        cases hl2
      rw [Option.map_some, Option.bind_some, repairListShapedFact?_eq_none_iff,
        sourceItems_resolveTexts, readable_l1_resolveTexts,
        get?_withSource messages (by decide) (by decide), or_iff_right hyes]
      constructor
      · exact fun h => ⟨l2, rfl, h⟩
      · rintro ⟨l2', heq, h⟩
        obtain rfl := Option.some.inj heq
        exact h

/-- The passes leave the confidence. -/
theorem get?_confidence_prepared {raw raw' : RawFact} (h : prepared ex messages raw = some raw') :
    raw'.get? "confidence" = raw.get? "confidence" := by
  unfold prepared stampSource? at h
  obtain ⟨stamped, hstamped, hrepair⟩ := Option.bind_eq_some_iff.mp h
  obtain ⟨l2, -, rfl⟩ := Option.map_eq_some_iff.mp hstamped
  have hsame : (resolveTexts ex (withSource messages raw (sourceIndex messages raw l2))).get?
      "confidence" = raw.get? "confidence" := by
    rw [get?_resolveTexts ex (by decide) (by decide) (by decide),
      get?_withSource messages (by decide) (by decide)]
  rw [← hsame]
  unfold repairListShapedFact? at hrepair
  split at hrepair
  · rw [Option.some.inj hrepair]
  · obtain ⟨l1, -, rfl⟩ := Option.map_eq_some_iff.mp hrepair
    unfold repairWith
    dsimp only
    split_ifs <;> simp only [get?_set_ne (show "confidence" ≠ "l2" by decide),
      get?_set_ne (show "confidence" ≠ "l1" by decide),
      get?_set_ne (show "confidence" ≠ "rawSpans" by decide),
      get?_set_ne (show "confidence" ≠ "atomicClaims" by decide)]

theorem isBelow_eq_none_iff {raw raw' : RawFact} (h : prepared ex messages raw = some raw') :
    isBelow ex raw' = none ↔ BreaksGate raw := by
  unfold isBelow BreaksGate
  rw [Option.map_eq_none_iff, numberOf_eq_none_iff, get?_confidence_prepared ex messages h]

/-! ### All facts -/

theorem gate_append (passed : List ExtractedFact) (raws : List RawFact) :
    gate ex passed raws = passed ++ gate ex [] raws := by
  induction raws generalizing passed with
  | nil => simp [gate]
  | cons raw raws ih =>
      unfold gate
      split
      · simp
      · exact ih passed
      · rw [ih, ih ([] ++ _), List.nil_append, List.append_assoc]

/-- What the last loop makes of the facts, if no pass broke. -/
theorem gate_isolated_iff {raws prepareds : List RawFact}
    (h : raws.mapM (prepared ex messages) = some prepareds) :
    gate ex [] prepareds = raws.flatMap (fun raw => (kept? ex messages raw).toList) ↔
      raws.Pairwise fun raw raw' => BreaksGate raw → kept? ex messages raw' = none := by
  induction raws generalizing prepareds with
  | nil =>
      obtain rfl := Option.some.inj h
      simp [gate]
  | cons raw raws ih =>
      rw [List.mapM_cons] at h
      obtain ⟨raw', hraw, h⟩ := Option.bind_eq_some_iff.mp h
      obtain ⟨prepareds', hraws, h⟩ := Option.bind_eq_some_iff.mp h
      obtain rfl := Option.some.inj h
      have hbreaks := isBelow_eq_none_iff ex messages hraw
      have hkept : kept? ex messages raw = if isBelow ex raw' = some false then
          RawFact.normalizeExtractedFact ex raw' else none := by
        unfold kept?
        rw [hraw]
        rfl
      rw [List.pairwise_cons, List.flatMap_cons, hkept, gate]
      cases hbelow : isBelow ex raw' with
      | none =>
          -- the loop ends here
          have hgate := hbreaks.mp hbelow
          simp only [reduceCtorEq, if_false, Option.toList_none, List.nil_append]
          constructor
          · intro hnil
            have hnone : ∀ r ∈ raws, kept? ex messages r = none := fun r hr => by
              have := List.flatMap_eq_nil_iff.mp hnil.symm r hr
              exact Option.toList_eq_nil_iff.mp this
            refine ⟨fun r hr _ => hnone r hr, List.pairwise_of_forall_mem_list ?_⟩
            exact fun _ _ r hr _ => hnone r hr
          · rintro ⟨hhead, -⟩
            refine (List.flatMap_eq_nil_iff.mpr fun r hr => ?_).symm
            rw [hhead r hr hgate]
            rfl
      | some below =>
          have hno : ¬ BreaksGate raw := fun hb => by
            rw [hbreaks.mpr hb] at hbelow
            cases hbelow
          rw [and_iff_right fun r _ hb => absurd hb hno, ← ih hraws]
          cases below with
          | true => simp
          | false =>
              simp only [if_true, List.nil_append]
              rw [gate_append, List.append_right_inj]

theorem factsOf_eq (facts : List Value) :
    factsOf ex messages facts =
      match (facts.filterMap rawFact?).mapM (prepared ex messages) with
      | none => []
      | some prepareds => gate ex [] prepareds := by
  unfold factsOf
  rw [show prepared ex messages = fun raw => (stampSource? ex messages raw).bind fun stamped =>
      repairListShapedFact? ex (resolveTexts ex stamped) from rfl, ← mapM_map_mapM]
  cases (facts.filterMap rawFact?).mapM (stampSource? ex messages) <;> rfl

/-- An element alone. -/
theorem factsOf_singleton (v : Value) :
    factsOf ex messages [v] =
      ((rawFact? v).bind (kept? ex messages)).toList := by
  rw [factsOf_eq]
  cases hv : rawFact? v with
  | none => simp [hv, gate]
  | some raw =>
      simp only [List.filterMap_cons, hv, List.filterMap_nil, List.mapM_cons, List.mapM_nil,
        Option.bind_some, kept?]
      cases prepared ex messages raw with
      | none => rfl
      | some raw' =>
          simp only [Option.pure_def, Option.bind_eq_bind, Option.bind_some, gate]
          cases hbelow : isBelow ex raw' with
          | none => rfl
          | some below => cases below <;> simp

/-- **One fact costs another nothing** exactly where no fact that is kept stands beside one that
breaks a pass, or after one that breaks the last loop. -/
theorem factsOf_isolated_iff (facts : List Value) :
    factsOf ex messages facts = facts.flatMap (fun v => factsOf ex messages [v]) ↔
      (∀ raw ∈ facts.filterMap rawFact?, BreaksPass ex messages raw →
        ∀ raw' ∈ facts.filterMap rawFact?, kept? ex messages raw' = none) ∧
      (facts.filterMap rawFact?).Pairwise fun raw raw' =>
        BreaksGate raw → kept? ex messages raw' = none := by
  have hflat : (facts.flatMap fun v => factsOf ex messages [v]) =
      (facts.filterMap rawFact?).flatMap fun raw => (kept? ex messages raw).toList := by
    induction facts with
    | nil => rfl
    | cons v facts ih =>
        rw [List.flatMap_cons, factsOf_singleton, ih]
        cases hv : rawFact? v <;> simp [hv]
  rw [hflat, factsOf_eq]
  generalize facts.filterMap rawFact? = raws
  cases hprepared : raws.mapM (prepared ex messages) with
  | none =>
      obtain ⟨raw, hraw, hnone⟩ := mapM_eq_none_iff.mp hprepared
      have hbreaks := (prepared_eq_none_iff ex messages).mp hnone
      constructor
      · intro hnil
        have hall : ∀ r ∈ raws, kept? ex messages r = none := fun r hr =>
          Option.toList_eq_nil_iff.mp (List.flatMap_eq_nil_iff.mp hnil.symm r hr)
        exact ⟨fun _ _ _ r hr => hall r hr,
          List.pairwise_of_forall_mem_list fun _ _ r hr _ => hall r hr⟩
      · rintro ⟨hpass, -⟩
        refine (List.flatMap_eq_nil_iff.mpr fun r hr => ?_).symm
        rw [hpass raw hraw hbreaks r hr]
        rfl
  | some prepareds =>
      dsimp only
      rw [gate_isolated_iff ex messages hprepared, and_iff_right]
      intro raw hraw hbreaks
      have hnone := (prepared_eq_none_iff ex messages).mpr hbreaks
      obtain ⟨raw', -, hsome⟩ := exists_of_forall₂ (forall₂_of_mapM hprepared) hraw
      rw [hnone] at hsome
      cases hsome

end

def FactHost.ascii : FactHost where
  toExtractionHost := .ascii
  numberOf _ := none

/-- A fact whose `l2` is `{"toString": null}`, and one beside it. -/
def unreadableBatch : List Value :=
  [ .obj (.cons "l2" (.obj (.cons "toString" .null .nil)) .nil),
    .obj (.cons "l2" (.str "The user prefers tea.") (.cons "category" (.str "preferences")
      (.cons "confidence" (.num (9 / 10)) .nil))) ]

/-- The fact beside it is kept alone, and not in the batch. -/
theorem unreadable_text_discards :
    factsOf .ascii [] unreadableBatch = [] ∧
      (unreadableBatch.flatMap fun v => factsOf .ascii [] [v]).map (·.l0) =
        ["The user prefers tea."] := by
  refine ⟨List.length_eq_zero_iff.mp ?_, ?_⟩
  · decide +kernel
  · decide +kernel

end Runir
