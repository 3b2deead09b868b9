import Runir.Capture.Extraction
import Runir.Lib.LineStarts

/-!
# Capture — List spans

Where `repairListShapedFact` of `src/capture/extraction/capture.ts` says the items of a list stand.

* `placedItems`: the items of a source with the places they have on their own lines, as the lines of
  the source give them.
* `parseSourceListItems_eq`: the items the code finds are these.
* `LocatesItems`: a span for each item, in order, from where the item stands to where it ends.
* `locatesItems_iff`: the spans do so if and only if no item stands in the source before its own
  place, where the search from the beginning finds it first.
-/

namespace Runir
open Regex
open Text (OccursAt)

/-! ### Code units -/

/-- The code units up to a place, and on to a further one. -/
theorem unitsBefore_add (source : String) (i k : Nat) : Text.unitsBefore source (i + k) =
    Text.unitsBefore source i + (utf16 ((source.toList.drop i).take k)).length := by
  rw [Text.unitsBefore, Text.sliceTo, ← length_utf16, Text.unitsBefore, Text.sliceTo,
    ← length_utf16, List.take_add, utf16_append, List.length_append]

theorem unitsBefore_lt {source : String} {i j : Nat} (hij : i < j)
    (hi : i < source.toList.length) : Text.unitsBefore source i < Text.unitsBefore source j := by
  obtain ⟨k, rfl⟩ := Nat.exists_eq_add_of_lt hij
  have hne : (source.toList.drop i).take (k + 1) ≠ [] := by
    rw [List.drop_eq_getElem_cons hi]
    exact List.cons_ne_nil _ _
  have hpos := List.length_pos_of_ne_nil (utf16_ne_nil hne)
  rw [Nat.add_assoc, unitsBefore_add]
  omega

/-! ### The items of a source -/

/-- What a list line holds behind its marker. -/
def lineContent (line : List Char) : Option (List Char) :=
  (exec listLine line).bind fun m => m.group? 1

/-- The item of a line, and its place. -/
def lineItem (line : Nat × List Char) : Option (Nat × String) :=
  ((lineContent line.2).map fun content =>
    (line.1 + (line.2.length - (content.dropWhile Text.isSpace).length),
      Text.trim (String.ofList content))).filter fun item => Text.truthy item.2

/-- The items of a source, each with the place it has on its own line. -/
def placedItems (source : String) : List (Nat × String) :=
  (linesFrom '\n' 0 source.toList).filterMap lineItem

/-- **The items the code finds are those of the lines.** -/
theorem parseSourceListItems_eq (source : String) :
    parseSourceListItems source = (placedItems source).map (·.2) := by
  have hitem : ∀ line : Nat × List Char, (lineItem line).map (·.2) =
      ((lineContent line.2).map fun item => Text.trim (String.ofList item)).filter
        Text.truthy := by
    intro line
    rw [lineItem]
    cases lineContent line.2 with
    | none => rfl
    | some content =>
        simp only [Option.map_some, Option.filter_some]
        split
        · rfl
        · rfl
  have hsplit : (split (plus (chr '\n')) source.toList).filterMap (fun line =>
      ((lineContent line).map fun item => Text.trim (String.ofList item)).filter Text.truthy) =
      (linesFrom '\n' 0 source.toList).filterMap fun e =>
        ((lineContent e.2).map fun item => Text.trim (String.ofList item)).filter Text.truthy :=
    filterMap_split_eq (by decide) source.toList
  rw [parseSourceListItems, Text.split, List.filterMap_map, placedItems, List.map_filterMap]
  simp only [hitem, ← hsplit]
  refine List.filterMap_congr fun line _ => ?_
  rw [Function.comp_apply, String.toList_ofList]
  rfl

/-- What a list line holds is the end of the line. -/
theorem suffix_of_lineContent {line content : List Char} (h : lineContent line = some content) :
    content <:+ line := by
  obtain ⟨m, hm, hgroup⟩ := Option.bind_eq_some_iff.mp h
  have hfound := find_some hm
  obtain ⟨p₁, hp₁, hrun⟩ := List.mem_flatMap.mp hfound.mem
  obtain ⟨p₂, hp₂, hrun⟩ := List.mem_flatMap.mp hrun
  obtain ⟨p₃, hp₃, hend⟩ := List.mem_flatMap.mp hrun
  obtain ⟨q, -, rfl⟩ := List.mem_map.mp hp₃
  -- the line ends behind the group
  have hrest : q.rest = [] ∧ m.groups = (1, p₂.rest.take (p₂.rest.length - q.rest.length)) ::
      q.groups := by
    have htest : (⟨m.before, m.rest, m.groups⟩ : Place) ∈ if q.rest.head?.isNone then
        [(⟨q.before, q.rest, (1, p₂.rest.take (p₂.rest.length - q.rest.length)) :: q.groups⟩ :
          Place)] else [] := hend
    cases hq : q.rest with
    | nil =>
        rw [hq] at htest
        exact ⟨rfl, congrArg Place.groups (List.mem_singleton.mp htest)⟩
    | cons c cs =>
        rw [hq] at htest
        cases htest
  have hcontent : content = p₂.rest := by
    rw [Match.group?, hrest.2, hrest.1] at hgroup
    simpa using hgroup.symm
  have hsuffix : p₂.rest <:+ m.text ++ m.rest :=
    (suffix_of_mem_run hp₂).trans (suffix_of_mem_run hp₁)
  rw [hcontent, hfound.parts]
  exact hsuffix.trans (List.suffix_append m.skipped _)

variable {item : Nat × String}

/-- An item stands at its place on its line. -/
theorem lineItem_spec {line : Nat × List Char}
    (h : lineItem line = some item) : item.2 ≠ "" ∧ ∃ k, item.1 = line.1 + k ∧
      item.2.toList <+: line.2.drop k ∧ k + item.2.toList.length ≤ line.2.length := by
  obtain ⟨hmap, htruthy⟩ := Option.filter_eq_some_iff.mp h
  obtain ⟨content, hcontent, rfl⟩ := Option.map_eq_some_iff.mp hmap
  obtain ⟨marker, hline⟩ := suffix_of_lineContent hcontent
  refine ⟨by simpa [Text.truthy] using htruthy, _, rfl, ?_⟩
  dsimp only
  have hdrop : line.2.drop (line.2.length - (content.dropWhile Text.isSpace).length) =
      content.dropWhile Text.isSpace := by
    have hsuffix : content.dropWhile Text.isSpace <:+ line.2 :=
      (List.dropWhile_suffix _).trans ⟨marker, hline⟩
    obtain ⟨front, hfront⟩ := hsuffix
    rw [← hfront, List.length_append, Nat.add_sub_cancel, List.drop_left]
  have hpre : (Text.trim (String.ofList content)).toList <+:
      content.dropWhile Text.isSpace := by
    rw [Text.trim, String.toList_ofList, String.toList_ofList, Text.trimChars]
    have hend := List.dropWhile_suffix Text.isSpace (l := (content.dropWhile Text.isSpace).reverse)
    have hrev := List.reverse_prefix.mpr hend
    rwa [List.reverse_reverse] at hrev
  rw [hdrop]
  refine ⟨hpre, ?_⟩
  have hle := hpre.length_le
  have hlength := congrArg List.length hdrop
  rw [List.length_drop] at hlength
  omega

section
variable {source : String}

/-- An item stands in the source at its place. -/
theorem placedItems_occurs (h : item ∈ placedItems source) :
    item.2 ≠ "" ∧ OccursAt item.2.toList source.toList item.1 ∧
      item.1 + item.2.toList.length ≤ source.toList.length := by
  obtain ⟨line, hline, hitem⟩ := List.mem_filterMap.mp h
  obtain ⟨hne, k, hplace, hpre, hle⟩ := lineItem_spec hitem
  obtain ⟨front, back, hsource, hstart⟩ := exists_of_mem_linesFrom hline
  rw [Nat.zero_add] at hstart
  refine ⟨hne, ?_, ?_⟩
  · have hk : k ≤ line.2.length := Nat.le_trans (Nat.le_add_right _ _) hle
    rw [OccursAt, hsource, hplace, hstart, ← List.drop_drop, List.drop_left,
      List.drop_append_of_le_length hk]
    exact hpre.trans (List.prefix_append _ back)
  · rw [hsource, List.length_append, List.length_append]
    omega

/-- An item ends before the next one begins. -/
theorem placedItems_pairwise (source : String) :
    (placedItems source).Pairwise fun item item' => item.1 + item.2.toList.length < item'.1 := by
  rw [placedItems, List.pairwise_filterMap]
  refine (linesFrom_pairwise '\n' 0 source.toList).imp fun {line line'} hlt item hitem item' hitem' =>
    ?_
  obtain ⟨-, k, hplace, -, hle⟩ := lineItem_spec hitem
  obtain ⟨-, k', hplace', -, -⟩ := lineItem_spec hitem'
  omega

end

/-! ### Spans -/

/-- The span of an item, from its place to its end, in code units. -/
structure StandsAt (source : String) (item : Nat × String) (span : MemoryRawSpan) : Prop where
  text : span.text = item.2
  start : span.cursorStart = some (Text.unitsBefore source item.1 : ℚ)
  stop : span.cursorEnd =
    some ((Text.unitsBefore source item.1 + Text.length item.2 : ℕ) : ℚ)

/-- The spans are those of the items, one for each in order; they are disjoint and rise, and what
the source has between the ends of each is its item. -/
structure LocatesItems (source : String) (spans : List MemoryRawSpan) : Prop where
  stand : List.Forall₂ (StandsAt source) (placedItems source) spans
  disjoint : spans.Pairwise fun span span' => ∃ stop start : ℚ, span.cursorEnd = some stop ∧
    span'.cursorStart = some start ∧ stop < start
  rising : spans.Pairwise fun span span' => ∃ start start' : ℚ, span.cursorStart = some start ∧
    span'.cursorStart = some start' ∧ start < start'
  sliced : ∀ span ∈ spans, ∃ start stop : ℕ, span.cursorStart = some (start : ℚ) ∧
    span.cursorEnd = some (stop : ℚ) ∧
    ((utf16 source.toList).drop start).take (stop - start) = utf16 span.text.toList

section
variable {source : String} {spans : List MemoryRawSpan}

/-- What stands in a text at a place, in code units. -/
theorem slice_utf16 {item : String} {i : Nat} (h : OccursAt item.toList source.toList i) :
    ((utf16 source.toList).drop (Text.unitsBefore source i)).take (Text.length item) =
      utf16 item.toList := by
  obtain ⟨back, hback⟩ := h
  have hsource : source.toList = source.toList.take i ++ (item.toList ++ back) := by
    rw [hback, List.take_append_drop]
  have hbefore : Text.unitsBefore source i = (utf16 (source.toList.take i)).length := by
    rw [Text.unitsBefore, Text.sliceTo, length_utf16]
  have hlength : Text.length item = (utf16 item.toList).length := by
    rw [length_utf16, String.ofList_toList]
  rw [hbefore, hlength]
  conv_lhs => rw [hsource, utf16_append, utf16_append]
  rw [← hsource, List.drop_left, List.take_left]

/-- An item ends, in code units, before the next one begins. -/
theorem units_lt_of_placedItems {item item' : Nat × String} (hitem : item ∈ placedItems source)
    (hitem' : item' ∈ placedItems source) (hlt : item.1 + item.2.toList.length < item'.1) :
    Text.unitsBefore source item.1 + Text.length item.2 < Text.unitsBefore source item'.1 := by
  obtain ⟨-, ⟨back, hback⟩, -⟩ := placedItems_occurs hitem
  obtain ⟨-, -, hle⟩ := placedItems_occurs hitem'
  have hunits : Text.unitsBefore source (item.1 + item.2.toList.length) =
      Text.unitsBefore source item.1 + Text.length item.2 := by
    rw [unitsBefore_add, ← hback, List.take_left, length_utf16, String.ofList_toList]
  rw [← hunits]
  exact unitsBefore_lt hlt (by omega)

/-- Spans that stand at their items are disjoint and rise. -/
theorem locatesItems_of_stand (h : List.Forall₂ (StandsAt source) (placedItems source) spans) :
    LocatesItems source spans := by
  have hget : ∀ i (hi : i < spans.length), ∃ hi' : i < (placedItems source).length,
      StandsAt source (placedItems source)[i] spans[i] := by
    intro i hi
    have hi' : i < (placedItems source).length := h.length_eq ▸ hi
    exact ⟨hi', h.get hi' hi⟩
  have hlt : ∀ i j (hi : i < spans.length) (hj : j < spans.length), i < j →
      ∃ item item', StandsAt source item spans[i] ∧ StandsAt source item' spans[j] ∧
        Text.unitsBefore source item.1 + Text.length item.2 <
          Text.unitsBefore source item'.1 := by
    intro i j hi hj hij
    obtain ⟨hi', hstands⟩ := hget i hi
    obtain ⟨hj', hstands'⟩ := hget j hj
    refine ⟨_, _, hstands, hstands', units_lt_of_placedItems (List.getElem_mem hi')
      (List.getElem_mem hj') ?_⟩
    exact List.pairwise_iff_getElem.mp (placedItems_pairwise source) i j hi' hj' hij
  refine ⟨h, List.pairwise_iff_getElem.mpr fun i j hi hj hij => ?_,
    List.pairwise_iff_getElem.mpr fun i j hi hj hij => ?_, fun span hspan => ?_⟩
  · obtain ⟨item, item', hstands, hstands', hunits⟩ := hlt i j hi hj hij
    exact ⟨_, _, hstands.stop, hstands'.start, Nat.cast_lt.mpr hunits⟩
  · obtain ⟨item, item', hstands, hstands', hunits⟩ := hlt i j hi hj hij
    exact ⟨_, _, hstands.start, hstands'.start,
      Nat.cast_lt.mpr (Nat.lt_of_le_of_lt (Nat.le_add_right _ _) hunits)⟩
  · obtain ⟨i, hi, rfl⟩ := List.mem_iff_getElem.mp hspan
    obtain ⟨hi', hstands⟩ := hget i hi
    obtain ⟨-, hoccurs, -⟩ := placedItems_occurs (List.getElem_mem hi')
    refine ⟨_, _, hstands.start, hstands.stop, ?_⟩
    rw [Nat.add_sub_cancel_left, hstands.text]
    exact slice_utf16 hoccurs

end

/-! ### The search from the beginning -/

/-- The span the code makes of an item. -/
def itemSpan (raw : FactObject) (source item : String) : MemoryRawSpan :=
  let cursorStart := (Text.indexOf source item).map (Text.unitsBefore source)
  { text := item
    sourceTurnIndex := raw.sourceTurnIndex
    kind := some .listItem
    cursorStart := some ((cursorStart.map fun n => (n : ℚ)).getD (-1))
    cursorEnd := cursorStart.map fun n => ((n + Text.length item : Nat) : ℚ) }

section
variable {raw : FactObject} {source : String}

theorem rawSpans_repairListShapedFact (hsource : raw.rawSourceText = some source)
    (hitems : 2 ≤ (parseSourceListItems source).length) :
    (repairListShapedFact raw).rawSpans =
      some ((parseSourceListItems source).map (itemSpan raw source)) := by
  have htruthy : Text.truthy source = true := by
    cases hempty : Text.truthy source with
    | true => rfl
    | false =>
        have hsource : source = "" := by simpa [Text.truthy] using hempty
        rw [hsource] at hitems
        exact absurd hitems (by decide)
  rw [repairListShapedFact, hsource, Option.filter_some, if_pos htruthy]
  simp only [if_neg (Nat.not_lt.mpr hitems)]
  rfl

/-- An item's span stands where the search finds the item first. -/
theorem itemSpan_standsAt_iff (h : item ∈ placedItems source) :
    StandsAt source item (itemSpan raw source item.2) ↔
      ∀ i < item.1, ¬OccursAt item.2.toList source.toList i := by
  obtain ⟨hne, hoccurs, hle⟩ := placedItems_occurs h
  obtain ⟨i, hfound⟩ : ∃ i, Text.indexOf source item.2 = some i := by
    cases hfind : Text.indexOf source item.2 with
    | some i => exact ⟨i, rfl⟩
    | none => exact absurd hoccurs (Text.indexOfChars_eq_none_iff.mp hfind item.1)
  obtain ⟨hi, hfirst⟩ := Text.indexOfChars_eq_some_iff.mp hfound
  have hi_le : i ≤ item.1 := Nat.le_of_not_lt fun hlt => hfirst item.1 hlt hoccurs
  constructor
  · intro hstands j hj hoccurs'
    have hstart := hstands.start
    rw [itemSpan, hfound] at hstart
    have hunits : Text.unitsBefore source i = Text.unitsBefore source item.1 :=
      Nat.cast_injective (Option.some.inj hstart)
    have hij : i ≤ j := Nat.le_of_not_lt fun hlt => hfirst j hlt hoccurs'
    have hlt := unitsBefore_lt (Nat.lt_of_le_of_lt hij hj)
      (show i < source.toList.length by omega)
    omega
  · intro hnone
    have hi_eq : i = item.1 := Nat.le_antisymm hi_le (Nat.le_of_not_lt fun hlt => hnone i hlt hi)
    rw [hi_eq] at hfound
    refine ⟨rfl, ?_, ?_⟩
    · rw [itemSpan, hfound]
      rfl
    · rw [itemSpan, hfound]
      rfl

/-- **List spans locate their items** if and only if no item stands in the source before the place
it has on its own line. -/
theorem locatesItems_iff (hsource : raw.rawSourceText = some source)
    (hitems : 2 ≤ (parseSourceListItems source).length) :
    (∃ spans, (repairListShapedFact raw).rawSpans = some spans ∧ LocatesItems source spans) ↔
      ∀ item ∈ placedItems source, ∀ i < item.1, ¬OccursAt item.2.toList source.toList i := by
  have hstand : List.Forall₂ (StandsAt source) (placedItems source)
      ((parseSourceListItems source).map (itemSpan raw source)) ↔
      ∀ item ∈ placedItems source, StandsAt source item (itemSpan raw source item.2) := by
    rw [parseSourceListItems_eq, List.map_map, List.forall₂_map_right_iff, List.forall₂_same]
    rfl
  rw [rawSpans_repairListShapedFact hsource hitems]
  constructor
  · rintro ⟨spans, hspans, hlocates⟩ item hitem
    cases hspans
    exact (itemSpan_standsAt_iff hitem).mp (hstand.mp hlocates.stand item hitem)
  · intro h
    refine ⟨_, rfl, locatesItems_of_stand (hstand.mpr fun item hitem => ?_)⟩
    exact (itemSpan_standsAt_iff hitem).mpr (h item hitem)

end

/-- A list under a sentence that names its first item. -/
def portsFact : FactObject where
  l2 := "Two ports are open."
  confidence := 1
  rawSourceText := some "Port 80 first:\n- Port 80\n- Port 443"

/-- The span of the first item is that of the sentence. -/
theorem port_in_prose : portsFact.rawSourceText = some "Port 80 first:\n- Port 80\n- Port 443" ∧
    2 ≤ (parseSourceListItems "Port 80 first:\n- Port 80\n- Port 443").length ∧
    ¬∃ spans, (repairListShapedFact portsFact).rawSpans = some spans ∧
      LocatesItems "Port 80 first:\n- Port 80\n- Port 443" spans := by
  refine ⟨rfl, by decide +kernel, ?_⟩
  rintro ⟨spans, hspans, hlocates⟩
  have hitems : placedItems "Port 80 first:\n- Port 80\n- Port 443" =
      [(17, "Port 80"), (27, "Port 443")] := by decide +kernel
  have hmade : (repairListShapedFact portsFact).rawSpans =
      some [⟨"Port 80", none, some 0, some 7, some .listItem⟩,
        ⟨"Port 443", none, some 27, some 35, some .listItem⟩] := by decide +kernel
  cases hspans.symm.trans hmade
  have hstand := hlocates.stand
  rw [hitems] at hstand
  cases hstand with
  | cons hfirst _ => exact absurd hfirst.start (by decide +kernel)

/-- Without the sentence the items are found on their lines. -/
theorem ports_alone : ∃ spans,
    (repairListShapedFact { portsFact with rawSourceText := some "- Port 80\n- Port 443" }).rawSpans =
      some spans ∧ LocatesItems "- Port 80\n- Port 443" spans := by
  have hitems : placedItems "- Port 80\n- Port 443" = [(2, "Port 80"), (12, "Port 443")] := by
    decide +kernel
  refine (locatesItems_iff rfl (by decide +kernel)).mpr ?_
  rw [hitems]
  decide +kernel

end Runir
