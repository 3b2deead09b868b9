import Runir.Domain.MinniBuilder

/-!
# Domain — What Minni's codecs write is read back

* `decodeEvent_toValue`: a decoded event is decoded again as it is.
* `unwrapEvidence_toValue`: accepted evidence is read from the builder's input as it was accepted.
* `validateContract_toValue`: a sound contract is read back from the value it is written as.
* `validated_iff_sound`: the contracts that are accepted are the sound ones.
-/

namespace Runir.Minni

/-! ### Reading back -/

theorem of_bind {α β : Type} {x : Option α} {f : α → Option β} {b : β} (h : (x >>= f) = some b) :
    ∃ a, x = some a ∧ f a = some b :=
  Option.bind_eq_some_iff.mp h

theorem of_guard_bind {α : Type} {p : Prop} [Decidable p] {f : Unit → Option α} {a : α}
    (h : (guard p >>= f) = some a) : p ∧ f () = some a := by
  obtain ⟨_, hp, h⟩ := of_bind h
  exact ⟨Option.guard_eq_some' _ |>.mp hp, h⟩

theorem bind_of_some {α β : Type} {x : Option α} {f : α → Option β} {a : α} {b : β}
    (hx : x = some a) (h : f a = some b) : (x >>= f) = some b :=
  Option.bind_eq_some_iff.mpr ⟨a, hx, h⟩

theorem guard_bind {α : Type} {p : Prop} [Decidable p] {f : Unit → Option α} {a : α} (hp : p)
    (h : f () = some a) : (guard p >>= f) = some a :=
  bind_of_some ((Option.guard_eq_some' _).mpr hp) h

variable {fs : Fields}

variable {required optional : List String}

theorem exactKeys_iff :
    exactKeys fs required optional = true ↔
      (∀ key ∈ fs.keys, key ∈ required ++ optional) ∧ ∀ key ∈ required, key ∈ fs.keys := by
  simp only [exactKeys, Bool.and_eq_true, List.all_eq_true, List.contains_iff_mem]

theorem exactKeys_ofEntries {es : List (String × Option Value)}
    (hall : ∀ key ∈ es.map Prod.fst, key ∈ required ++ optional)
    (hrequired : ∀ key ∈ required, ∃ value, (key, some value) ∈ es) :
    exactKeys (.ofEntries es) required optional = true := by
  refine exactKeys_iff.mpr ⟨fun key hkey => ?_, fun key hkey => ?_⟩
  · obtain ⟨value, hm⟩ := Fields.mem_keys_ofEntries.mp hkey
    exact hall key (List.mem_map.mpr ⟨_, hm, rfl⟩)
  · exact Fields.mem_keys_ofEntries.mpr (hrequired key hkey)

variable {value : Option Value}

theorem stringWhere_eq_some {check : String → Bool} {s : String} :
    stringWhere check value = some s ↔ value = some (.str s) ∧ check s = true := by
  rw [stringWhere, Option.filter_eq_some_iff]
  refine and_congr_left' ⟨fun h => ?_, fun h => by rw [h]; rfl⟩
  obtain ⟨v, rfl, hv⟩ := of_bind h
  cases v with
  | str t => exact congrArg (some ∘ Value.str) (Option.some.inj hv)
  | _ => cases hv

theorem stringWhere_str {check : String → Bool} {s : String} (h : check s = true) :
    stringWhere check (some (.str s)) = some s :=
  stringWhere_eq_some.mpr ⟨rfl, h⟩

theorem safeCount_num {n : Nat} (h : n ≤ maxSafeInteger) : safeCount (some (.num n)) = some n := by
  have hsafe : ((n : ℚ).den = 1 ∧ 0 ≤ (n : ℚ).num ∧ (n : ℚ).num ≤ maxSafeInteger) :=
    ⟨Rat.den_natCast n, by rw [Rat.num_natCast]; exact Int.natCast_nonneg n,
      by rw [Rat.num_natCast]; exact_mod_cast h⟩
  rw [safeCount, Option.bind_some, Value.num?]
  dsimp only
  rw [if_pos hsafe, Rat.num_natCast, Int.toNat_natCast]

theorem le_of_safeCount {n : Nat} (h : safeCount value = some n) :
    n ≤ maxSafeInteger := by
  rw [safeCount] at h
  split at h
  · cases h
  · split at h
    next hsafe =>
      obtain rfl := Option.some.inj h
      exact Int.toNat_le.mpr hsafe.2.2
    · cases h

theorem isText_of_get? {key text : String} (h : fs.get? key = some (.str text)) :
    isText fs key text = true := by
  simp [isText, h, Value.str?]

theorem mapM_str (ss : List String) : (ss.map Value.str).mapM Value.str? = some ss := by
  induction ss with
  | nil => rfl
  | cons s ss ih => rw [List.map_cons, List.mapM_cons, ih]; rfl

@[simp] theorem elements?_ofStrings (ss : List String) :
    (Value.ofStrings ss).elements? = some (ss.map .str) := by
  rw [Value.ofStrings, Value.elements?, Values.toList_ofList]

@[simp] theorem elements?_arr (xs : List Value) : (Value.arr (.ofList xs)).elements? = some xs := by
  rw [Value.elements?, Values.toList_ofList]

section
variable (jsonUtf8Length : Value → Nat)

/-- What is sure of an event that was decoded. -/
structure MinniEvent.Decoded (event : MinniEvent) : Prop where
  id : nonEmptyString event.id = true
  ts : isTimestamp event.ts = true
  source : Text.truthy event.source = true
  (end' : ∀ end' ∈ event.end', isTimestamp end' = true ∧ intervalIsOrdered event.ts end' = true)
  observation : ∀ observation ∈ event.observation,
    (event.source = "minni" ∧ event.kind = some "ocr") ∧
      observation.1.printable = true ∧ jsonUtf8Length observation.1 ≤ ocrMaxJsonUtf8Bytes

variable {jsonUtf8Length}

theorem decodeSupportedOCRObservation_eq_some {value : Value}
    {observation : SupportedOCRObservation} :
    decodeSupportedOCRObservation jsonUtf8Length value = some observation ↔
      observation.1 = value ∧ value.printable = true ∧
        jsonUtf8Length value ≤ ocrMaxJsonUtf8Bytes := by
  rw [decodeSupportedOCRObservation]
  split
  next hbounded =>
    split
    next hread =>
      rw [Option.some.injEq, Subtype.ext_iff, eq_comm]
      exact ⟨fun h => ⟨h, hbounded⟩, And.left⟩
    next hread =>
      refine ⟨nofun, fun h => absurd ?_ hread⟩
      rw [← h.1]
      exact observation.2
  next hbounded => exact ⟨nofun, fun h => absurd h.2 hbounded⟩

theorem decoded_of_decodeEvent {value : Value} {event : MinniEvent}
    (h : decodeEvent jsonUtf8Length value = some event) : event.Decoded jsonUtf8Length := by
  obtain ⟨fs, -, h⟩ := of_bind h
  obtain ⟨-, h⟩ := of_guard_bind h
  obtain ⟨id, hid, h⟩ := of_bind h
  obtain ⟨-, h⟩ := of_guard_bind h
  obtain ⟨ts, hts, h⟩ := of_bind h
  obtain ⟨source, hsource, h⟩ := of_bind h
  obtain ⟨flags, -, h⟩ := of_bind h
  obtain ⟨text, -, h⟩ := of_bind h
  obtain ⟨end', -, h⟩ := of_bind h
  obtain ⟨hend, h⟩ := of_guard_bind h
  -- the other strings are not looked at again
  obtain ⟨app, -, h⟩ := of_bind h
  obtain ⟨bundleId, -, h⟩ := of_bind h
  obtain ⟨window, -, h⟩ := of_bind h
  obtain ⟨url, -, h⟩ := of_bind h
  obtain ⟨name, -, h⟩ := of_bind h
  obtain ⟨kind, -, h⟩ := of_bind h
  obtain ⟨anchorId, -, h⟩ := of_bind h
  obtain ⟨conversationId, -, h⟩ := of_bind h
  obtain rfl := Option.some.inj h
  refine ⟨(stringWhere_eq_some.mp hid).2, (stringWhere_eq_some.mp hts).2,
    (stringWhere_eq_some.mp hsource).2, fun e he => ?_, fun observation hobservation => ?_⟩
  · obtain rfl : end' = some e := he
    exact (Bool.and_eq_true _ _).mp hend
  · dsimp only at hobservation
    split at hobservation
    next hocr =>
      obtain ⟨v, -, hv⟩ := of_bind hobservation
      obtain ⟨rfl, hbounded⟩ := decodeSupportedOCRObservation_eq_some.mp hv
      exact ⟨hocr, hbounded⟩
    · cases hobservation

theorem optionalString_of_get? {key : String} {s : Option String}
    (h : fs.get? key = s.map .str) : optionalString fs key = some s := by
  cases s with
  | none => rw [optionalString, h]; rfl
  | some s => rw [optionalString, h]; rfl

/-- The properties an event is written with. -/
def MinniEvent.entries (e : MinniEvent) : List (String × Option Value) :=
  [("id", some (.str e.id)), ("type", some (.str "event")), ("ts", some (.str e.ts)),
    ("source", some (.str e.source)), ("flags", some (.ofStrings e.flags)),
    ("text", some (.str e.text)), ("end", e.end'.map .str), ("app", e.app.map .str),
    ("bundleId", e.bundleId.map .str), ("window", e.window.map .str), ("url", e.url.map .str),
    ("name", e.name.map .str), ("kind", e.kind.map .str), ("anchorId", e.anchorId.map .str),
    ("conversationId", e.conversationId.map .str),
    ("observation", e.observation.map Subtype.val)]

def eventEntryKeys : List String :=
  ["id", "type", "ts", "source", "flags", "text", "end", "app", "bundleId", "window", "url", "name",
    "kind", "anchorId", "conversationId", "observation"]

theorem nodup_eventEntryKeys : eventEntryKeys.Nodup := by decide

theorem eventEntryKeys_subset : ∀ key ∈ eventEntryKeys, key ∈ eventKeys ++ eventOptionalKeys := by
  decide

/-- **A decoded event is decoded again as it is.** -/
theorem decodeEvent_toValue {event : MinniEvent} (h : event.Decoded jsonUtf8Length) :
    decodeEvent jsonUtf8Length event.toValue = some event := by
  have hobservation : (if event.source = "minni" ∧ event.kind = some "ocr" then
      (event.observation.map Subtype.val).bind (decodeSupportedOCRObservation jsonUtf8Length)
      else none) = event.observation := by
    cases ho : event.observation with
    | none => rw [Option.map_none, Option.bind_none, ite_self]
    | some observation =>
        obtain ⟨hocr, hbounded⟩ := h.observation observation ho
        rw [if_pos hocr]
        exact decodeSupportedOCRObservation_eq_some.mpr ⟨rfl, hbounded⟩
  have hend : event.end'.all (fun end' => isTimestamp end' && intervalIsOrdered event.ts end') := by
    cases he : event.end' with
    | none => rfl
    | some end' => exact (Bool.and_eq_true _ _).mpr (h.end' end' he)
  have hget : ∀ (i : Nat) {key value}, event.entries[i]? = some (key, value) →
      (Fields.ofEntries event.entries).get? key = value := fun i _ _ hi =>
    Fields.get?_ofEntries (by exact nodup_eventEntryKeys) (List.mem_of_getElem? hi)
  have hstring : ∀ (i : Nat) {key} {s : Option String},
      event.entries[i]? = some (key, s.map .str) →
      optionalString (.ofEntries event.entries) key = some s := fun i _ _ hi =>
    optionalString_of_get? (hget i hi)
  have hkeys : exactKeys (.ofEntries event.entries) eventKeys eventOptionalKeys = true := by
    refine exactKeys_ofEntries (by exact eventEntryKeys_subset) fun key hkey => ?_
    simp only [eventKeys, List.mem_cons, List.not_mem_nil, or_false] at hkey
    rcases hkey with rfl | rfl | rfl | rfl | rfl | rfl
    · exact ⟨_, List.mem_of_getElem? (i := 0) rfl⟩
    · exact ⟨_, List.mem_of_getElem? (i := 1) rfl⟩
    · exact ⟨_, List.mem_of_getElem? (i := 2) rfl⟩
    · exact ⟨_, List.mem_of_getElem? (i := 3) rfl⟩
    · exact ⟨_, List.mem_of_getElem? (i := 4) rfl⟩
    · exact ⟨_, List.mem_of_getElem? (i := 5) rfl⟩
  refine bind_of_some (a := .ofEntries event.entries) rfl (guard_bind hkeys ?_)
  refine bind_of_some (by rw [hget 0 rfl]; exact stringWhere_str h.id) ?_
  refine guard_bind (isText_of_get? (hget 1 rfl)) ?_
  refine bind_of_some (by rw [hget 2 rfl]; exact stringWhere_str h.ts) ?_
  refine bind_of_some (by rw [hget 3 rfl]; exact stringWhere_str h.source) ?_
  refine bind_of_some (a := event.flags) ?_ ?_
  · rw [hget 4 rfl, Option.bind_some, elements?_ofStrings, Option.bind_some, mapM_str]
  refine bind_of_some (a := event.text) (by rw [hget 5 rfl]; rfl) ?_
  refine bind_of_some (hstring 6 rfl) (guard_bind hend ?_)
  refine bind_of_some (hstring 7 rfl) ?_
  refine bind_of_some (hstring 8 rfl) ?_
  refine bind_of_some (hstring 9 rfl) ?_
  refine bind_of_some (hstring 10 rfl) ?_
  refine bind_of_some (hstring 11 rfl) ?_
  refine bind_of_some (hstring 12 rfl) ?_
  refine bind_of_some (hstring 13 rfl) ?_
  refine bind_of_some (hstring 14 rfl) ?_
  dsimp only
  rw [hget 15 rfl, hobservation]
  rfl

/-! ### The response -/

variable (jsonUtf8Length) in
/-- What is sure of evidence that was accepted. -/
structure AcceptedMinniEvidence.Accepted (accepted : AcceptedMinniEvidence) : Prop where
  items : accepted.items ≠ []
  few : accepted.items.length ≤ minniGetEventsMaxItems
  decoded : ∀ event ∈ accepted.items, event.Decoded jsonUtf8Length
  distinct : (accepted.items.map MinniEvent.id).Nodup
  returned : accepted.returnedCount = accepted.items.length
  withheld : accepted.localOnlyWithheldCount ≤ maxSafeInteger

theorem decoded_of_decodeItems {values : List Value} {seen items : List MinniEvent}
    (h : decodeItems jsonUtf8Length values seen = .ok items)
    (hseen : ∀ event ∈ seen, event.Decoded jsonUtf8Length)
    (hdistinct : (seen.map MinniEvent.id).Nodup) :
    (∀ event ∈ items, event.Decoded jsonUtf8Length) ∧ (items.map MinniEvent.id).Nodup ∧
      items.length = seen.length + values.length := by
  induction values generalizing seen with
  | nil =>
      obtain rfl := CodecResult.ok.inj h
      exact ⟨hseen, hdistinct, rfl⟩
  | cons value values ih =>
      rw [decodeItems] at h
      split at h
      · cases h
      next event hevent =>
        split at h
        · cases h
        next hnew =>
          rw [Bool.not_eq_true, List.contains_eq_mem, decide_eq_false_iff_not] at hnew
          have hnext : ((seen ++ [event]).map MinniEvent.id).Nodup := by
            rw [List.map_append, List.nodup_append]
            refine ⟨hdistinct, List.nodup_singleton _, ?_⟩
            rintro id hid _ hsame rfl
            rw [List.map_singleton, List.mem_singleton] at hsame
            exact hnew (hsame ▸ hid)
          obtain ⟨hdecoded, hnodup, hlength⟩ := ih h (fun e he => by
            rcases List.mem_append.mp he with he | he
            · exact hseen e he
            · rw [List.mem_singleton.mp he]
              exact decoded_of_decodeEvent hevent) hnext
          refine ⟨hdecoded, hnodup, ?_⟩
          rw [hlength, List.length_append, List.length_singleton, List.length_cons]
          omega

theorem decodeItems_toValue {items seen : List MinniEvent}
    (hitems : ∀ event ∈ items, event.Decoded jsonUtf8Length)
    (hdistinct : ((seen ++ items).map MinniEvent.id).Nodup) :
    decodeItems jsonUtf8Length (items.map MinniEvent.toValue) seen = .ok (seen ++ items) := by
  induction items generalizing seen with
  | nil => rw [List.append_nil]; rfl
  | cons event items ih =>
      have hnew : event.id ∉ seen.map MinniEvent.id := by
        rw [List.map_append, List.map_cons, List.nodup_append] at hdistinct
        exact fun hm => hdistinct.2.2 _ hm _ List.mem_cons_self rfl
      rw [List.append_cons] at hdistinct ⊢
      rw [List.map_cons, decodeItems, decodeEvent_toValue (hitems event List.mem_cons_self)]
      dsimp only
      rw [if_neg (by rwa [List.contains_iff_mem])]
      exact ih (fun e he => hitems e (List.mem_cons_of_mem _ he)) hdistinct

variable {accepted : AcceptedMinniEvidence}

theorem accepted_of_decode {response : Value}
    (h : decodeMinniGetEventsResponse jsonUtf8Length response = .ok accepted) :
    accepted.Accepted jsonUtf8Length := by
  rw [decodeMinniGetEventsResponse] at h
  split at h
  · cases h
  next fs =>
    split at h
    next items localOnlyWithheld hitems hwithheld =>
      split at h
      · cases h
      next hchecked =>
        split at h
        · cases h
        next hnonempty =>
          split at h
          next decoded hdecoded =>
            obtain rfl := CodecResult.ok.inj h
            obtain ⟨hall, hdistinct, hlength⟩ := decoded_of_decodeItems hdecoded
              (fun _ he => nomatch he) List.nodup_nil
            simp only [List.length_nil, Nat.zero_add] at hlength
            simp only [Bool.or_eq_true, not_or, decide_eq_true_eq] at hchecked
            refine ⟨fun hnil => hnonempty ?_, ?_, hall, hdistinct, rfl, le_of_safeCount hwithheld⟩
            · rw [List.isEmpty_iff, ← List.length_eq_zero_iff, ← hlength]
              exact List.length_eq_zero_iff.mpr hnil
            · rw [hlength]
              exact Nat.le_of_not_lt hchecked.2
          · cases h
          · cases h
    · cases h

/-! ### The evidence is read again -/

theorem decodeMinniGetEventsResponse_toValue (h : accepted.Accepted jsonUtf8Length) :
    decodeMinniGetEventsResponse jsonUtf8Length
      (.obj (.cons "items" (.arr (.ofList (accepted.items.map MinniEvent.toValue)))
        (.cons "localOnlyWithheld" (.num accepted.localOnlyWithheldCount) .nil))) =
      .ok accepted := by
  have hempty : (accepted.items.map MinniEvent.toValue).isEmpty = false := by
    rw [List.isEmpty_eq_false_iff, ne_eq, List.map_eq_nil_iff]
    exact h.items
  have hfew : ¬ minniGetEventsMaxItems < (accepted.items.map MinniEvent.toValue).length := by
    rw [List.length_map]
    exact Nat.not_lt.mpr h.few
  have hdecoded : decodeItems jsonUtf8Length (accepted.items.map MinniEvent.toValue) [] =
      .ok ([] ++ accepted.items) := decodeItems_toValue h.decoded h.distinct
  rw [List.nil_append] at hdecoded
  have hitems : ((Fields.cons "items" (.arr (.ofList (accepted.items.map MinniEvent.toValue)))
      (.cons "localOnlyWithheld" (.num accepted.localOnlyWithheldCount) .nil)).get? "items").bind
      Value.elements? = some (accepted.items.map MinniEvent.toValue) := elements?_arr _
  have hwithheld : safeCount ((Fields.cons "items"
      (.arr (.ofList (accepted.items.map MinniEvent.toValue)))
      (.cons "localOnlyWithheld" (.num accepted.localOnlyWithheldCount) .nil)).get?
      "localOnlyWithheld") = some accepted.localOnlyWithheldCount := safeCount_num h.withheld
  have hkeys : exactKeys (Fields.cons "items"
      (.arr (.ofList (accepted.items.map MinniEvent.toValue)))
      (.cons "localOnlyWithheld" (.num accepted.localOnlyWithheldCount) .nil))
      ["items", "localOnlyWithheld"] [] = true := rfl
  generalize Fields.cons "items" (.arr (.ofList (accepted.items.map MinniEvent.toValue)))
    (.cons "localOnlyWithheld" (.num accepted.localOnlyWithheldCount) .nil) = fs
    at hitems hwithheld hkeys ⊢
  unfold decodeMinniGetEventsResponse
  simp only [Value.record?, hitems, hwithheld, hkeys, hempty, hfew, hdecoded, Bool.not_true,
    Bool.false_or, decide_false, Bool.false_eq_true, if_false, ← h.returned]

theorem decodeAcceptedEvidence_toValue (h : accepted.Accepted jsonUtf8Length) :
    decodeAcceptedEvidence jsonUtf8Length accepted.toValue = some (.ok accepted) := by
  have hreturned : accepted.returnedCount ≤ maxSafeInteger := by
    rw [h.returned]
    exact h.few.trans (by decide)
  have hlength : accepted.returnedCount = (accepted.items.map MinniEvent.toValue).length := by
    rw [h.returned, List.length_map]
  refine bind_of_some rfl (guard_bind rfl (bind_of_some (elements?_arr _) ?_))
  refine bind_of_some (safeCount_num hreturned) (bind_of_some (safeCount_num h.withheld) ?_)
  refine guard_bind hlength (congrArg some ?_)
  exact decodeMinniGetEventsResponse_toValue h

/-- **The evidence of a response is read from the builder's input**, as it was accepted or as the
result of accepting it. -/
theorem unwrapEvidence_toValue (h : accepted.Accepted jsonUtf8Length) :
    unwrapEvidence jsonUtf8Length accepted.toValue = some (.ok accepted) ∧
      unwrapEvidence jsonUtf8Length (acceptedResult accepted) = some (.ok accepted) := by
  have hread := decodeAcceptedEvidence_toValue h
  constructor
  · exact hread
  · exact hread

end

/-! ### A contract is read back -/

theorem coverage_text (c : OCRCollectorCoverage) :
    enumOf OCRCollectorCoverage.all OCRCollectorCoverage.text (some (.str c.text)) = some c := by
  cases c <;> rfl

theorem anchorContext_text (c : SummaryAnchorContext) :
    enumOf SummaryAnchorContext.all SummaryAnchorContext.text (some (.str c.text)) = some c := by
  cases c <;> rfl

theorem claimState_text (c : SummaryClaimState) :
    enumOf SummaryClaimState.all SummaryClaimState.text (some (.str c.text)) = some c := by
  cases c <;> rfl

theorem uncertainty_text (c : SummaryUncertainty) :
    enumOf SummaryUncertainty.all SummaryUncertainty.text (some (.str c.text)) = some c := by
  cases c <;> rfl

theorem conclusion_text (c : SummaryConclusion) :
    enumOf SummaryConclusion.all SummaryConclusion.text (some (.str c.text)) = some c := by
  cases c <;> rfl

structure SummaryEventInterval.Sound (interval : SummaryEventInterval) : Prop where
  start : isTimestamp interval.start = true
  (end' : isTimestamp interval.end' = true)
  ordered : intervalIsOrdered interval.start interval.end' = true

variable {interval : SummaryEventInterval}

theorem validSummaryInterval_toValue (h : interval.Sound) :
    validSummaryInterval (some interval.toValue) = some interval := by
  refine bind_of_some rfl (guard_bind rfl ?_)
  refine bind_of_some (stringWhere_str h.start) (bind_of_some (stringWhere_str h.end') ?_)
  exact guard_bind h.ordered (guard_bind rfl rfl)

theorem sound_of_validSummaryInterval
    (h : validSummaryInterval value = some interval) : interval.Sound := by
  obtain ⟨fs, -, h⟩ := of_bind h
  obtain ⟨-, h⟩ := of_guard_bind h
  obtain ⟨start, hstart, h⟩ := of_bind h
  obtain ⟨end', hend, h⟩ := of_bind h
  obtain ⟨hordered, h⟩ := of_guard_bind h
  obtain ⟨-, h⟩ := of_guard_bind h
  obtain rfl := Option.some.inj h
  exact ⟨(stringWhere_eq_some.mp hstart).2, (stringWhere_eq_some.mp hend).2, hordered⟩

structure SummaryOCRScreenshotInterval.Sound (interval : SummaryOCRScreenshotInterval) : Prop where
  ordered : interval.startedMs ≤ interval.completedMs
  bounded : interval.completedMs ≤ maxSafeInteger

theorem validOCRScreenshotInterval_toValue {interval : SummaryOCRScreenshotInterval}
    (h : interval.Sound) : validOCRScreenshotInterval interval.toValue = some interval := by
  refine bind_of_some rfl (guard_bind rfl ?_)
  refine bind_of_some (safeCount_num (h.ordered.trans h.bounded)) ?_
  exact bind_of_some (safeCount_num h.bounded) (guard_bind h.ordered (guard_bind rfl rfl))

theorem sound_of_validOCRScreenshotInterval {value : Value}
    {interval : SummaryOCRScreenshotInterval}
    (h : validOCRScreenshotInterval value = some interval) : interval.Sound := by
  obtain ⟨fs, -, h⟩ := of_bind h
  obtain ⟨-, h⟩ := of_guard_bind h
  obtain ⟨startedMs, -, h⟩ := of_bind h
  obtain ⟨completedMs, hcompleted, h⟩ := of_bind h
  obtain ⟨hordered, h⟩ := of_guard_bind h
  obtain ⟨-, h⟩ := of_guard_bind h
  obtain rfl := Option.some.inj h
  exact ⟨hordered, le_of_safeCount hcompleted⟩

structure SummaryOCRCollector.Sound (collector : SummaryOCRCollector) : Prop where
  regions : collector.omittedRegionCount ≤ maxSafeInteger
  observations : collector.omittedObservationCount ≤ maxSafeInteger
  languages : collector.omittedRecognitionLanguageCount ≤ maxSafeInteger

variable {collector : SummaryOCRCollector}

theorem validCollector_toValue (h : collector.Sound) :
    validCollector collector.toValue = some collector := by
  refine bind_of_some rfl (guard_bind rfl (bind_of_some (coverage_text _) ?_))
  refine bind_of_some (safeCount_num h.regions) (bind_of_some (safeCount_num h.observations) ?_)
  exact bind_of_some (safeCount_num h.languages) rfl

theorem sound_of_validCollector {value : Value}
    (h : validCollector value = some collector) : collector.Sound := by
  obtain ⟨fs, -, h⟩ := of_bind h
  obtain ⟨-, h⟩ := of_guard_bind h
  obtain ⟨coverage, -, h⟩ := of_bind h
  obtain ⟨regions, hregions, h⟩ := of_bind h
  obtain ⟨observations, hobservations, h⟩ := of_bind h
  obtain ⟨languages, hlanguages, h⟩ := of_bind h
  obtain rfl := Option.some.inj h
  exact ⟨le_of_safeCount hregions, le_of_safeCount hobservations, le_of_safeCount hlanguages⟩

theorem optionalField_map {α : Type} {read : Value → Option α} {write : α → Value} {a : Option α}
    (h : ∀ x ∈ a, read (write x) = some x) : optionalField read (a.map write) = some a := by
  cases a with
  | none => rfl
  | some x => rw [Option.map_some, optionalField, h x rfl]; rfl

theorem of_optionalField {α : Type} {read : Value → Option α} {a : Option α}
    (h : optionalField read value = some a) :
    a.isSome = value.isSome ∧ ∀ x ∈ a, ∃ v, value = some v ∧ read v = some x := by
  cases value with
  | none =>
      obtain rfl := Option.some.inj h
      exact ⟨rfl, nofun⟩
  | some v =>
      obtain ⟨x, hx, rfl⟩ := Option.map_eq_some_iff.mp h
      refine ⟨rfl, ?_⟩
      rintro _ ⟨rfl⟩
      exact ⟨v, rfl, hx⟩

theorem SummaryUncertainty.mem_canonical {present : List SummaryUncertainty}
    {item : SummaryUncertainty} : item ∈ canonical present ↔ item ∈ present := by
  have hall : item ∈ all := by cases item <;> decide
  simp [canonical, hall]

theorem SummaryUncertainty.canonical_canonical (present : List SummaryUncertainty) :
    canonical (canonical present) = canonical present :=
  List.filter_congr fun item _ => Bool.eq_iff_iff.mpr <| by
    simp only [List.contains_iff_mem, mem_canonical]

variable {uncertainties : List SummaryUncertainty}

theorem canonicalUncertainties_values
    (h : SummaryUncertainty.canonical uncertainties = uncertainties) :
    canonicalUncertainties (some (uncertaintyValues uncertainties)) = some uncertainties := by
  have hparsed : ((uncertainties.map SummaryUncertainty.text).map Value.str).mapM
      (fun item => enumOf SummaryUncertainty.all SummaryUncertainty.text (some item)) =
      some uncertainties := by
    clear h
    induction uncertainties with
    | nil => rfl
    | cons item rest ih =>
        rw [List.map_cons, List.map_cons, List.mapM_cons, uncertainty_text, ih]
        rfl
  exact bind_of_some (elements?_ofStrings _) (bind_of_some hparsed (congrArg some h))

theorem canonical_of_canonicalUncertainties
    (h : canonicalUncertainties value = some uncertainties) :
    SummaryUncertainty.canonical uncertainties = uncertainties := by
  obtain ⟨items, -, h⟩ := of_bind h
  obtain ⟨parsed, -, h⟩ := of_bind h
  obtain rfl := Option.some.inj h
  exact SummaryUncertainty.canonical_canonical parsed

variable {ss : List String}

theorem mapM_references (h : ∀ s ∈ ss, nonEmptyReference s = true) :
    (ss.map Value.str).mapM (fun item => stringWhere nonEmptyReference (some item)) = some ss := by
  induction ss with
  | nil => rfl
  | cons s ss ih =>
      obtain ⟨hs, hss⟩ := List.forall_mem_cons.mp h
      rw [List.map_cons, List.mapM_cons, stringWhere_str hs, ih hss]
      rfl

theorem uniqueStrings_ofStrings (h : ∀ s ∈ ss, nonEmptyReference s = true)
    (hnodup : ss.Nodup) : uniqueStrings (some (.ofStrings ss)) = some ss :=
  bind_of_some (elements?_ofStrings ss) (bind_of_some (mapM_references h) (guard_bind hnodup rfl))

theorem of_uniqueStrings (h : uniqueStrings value = some ss) :
    (∀ s ∈ ss, nonEmptyReference s = true) ∧ ss.Nodup := by
  obtain ⟨items, -, h⟩ := of_bind h
  obtain ⟨values, hvalues, h⟩ := of_bind h
  obtain ⟨hnodup, h⟩ := of_guard_bind h
  obtain rfl := Option.some.inj h
  refine ⟨fun s hs => ?_, hnodup⟩
  obtain ⟨item, -, hitem⟩ := (mem_mapM_iff hvalues).mp hs
  exact (stringWhere_eq_some.mp hitem).2

/-- What the validator makes sure of in a reference to evidence. -/
structure SummaryEvidenceReference.Sound (reference : SummaryEvidenceReference) : Prop where
  eventId : nonEmptyReference reference.eventId = true
  modality : nonEmptyReference reference.modality = true
  interval : reference.interval.Sound
  canonical : SummaryUncertainty.canonical reference.uncertainties = reference.uncertainties
  ocr : reference.modality = "screen_ocr" ∨ reference.screenshotInterval.isSome = true ∨
    reference.collector.isSome = true → hasRequiredOCRUncertainties reference.uncertainties = true
  screenshotInterval : ∀ interval ∈ reference.screenshotInterval, interval.Sound
  collector : ∀ collector ∈ reference.collector, collector.Sound
  anchor : reference.anchorContext = .authorizedContext ↔ reference.anchorId.isSome = true
  anchorId : ∀ anchorId ∈ reference.anchorId, nonEmptyReference anchorId = true

def SummaryEvidenceReference.entries (r : SummaryEvidenceReference) :
    List (String × Option Value) :=
  [("event_id", some (.str r.eventId)), ("modality", some (.str r.modality)),
    ("event_capture_or_index_interval", some r.interval.toValue),
    ("ocr_screenshot_capture_interval",
      r.screenshotInterval.map SummaryOCRScreenshotInterval.toValue),
    ("uncertainties", some (uncertaintyValues r.uncertainties)),
    ("anchor_context", some (.str r.anchorContext.text)), ("anchor_id", r.anchorId.map .str),
    ("ocr_collector", r.collector.map SummaryOCRCollector.toValue)]

def evidenceKeys : List String :=
  ["event_id", "modality", "event_capture_or_index_interval", "ocr_screenshot_capture_interval",
    "uncertainties", "anchor_context", "anchor_id", "ocr_collector"]

variable {reference : SummaryEvidenceReference}

theorem validateEvidenceReference_toValue
    (h : reference.Sound) : validateEvidenceReference reference.toValue = some reference := by
  have hnodup : (reference.entries.map Prod.fst).Nodup := by
    exact (by decide : evidenceKeys.Nodup)
  have hget : ∀ (i : Nat) {key value}, reference.entries[i]? = some (key, value) →
      (Fields.ofEntries reference.entries).get? key = value := fun i _ _ hi =>
    Fields.get?_ofEntries hnodup (List.mem_of_getElem? hi)
  have hkeys : exactKeys (.ofEntries reference.entries) ["event_id", "modality",
      "event_capture_or_index_interval", "uncertainties", "anchor_context"]
      ["ocr_screenshot_capture_interval", "anchor_id", "ocr_collector"] = true := by
    refine exactKeys_ofEntries ?_ fun key hkey => ?_
    · exact (by decide : ∀ key ∈ evidenceKeys, key ∈ ["event_id", "modality",
        "event_capture_or_index_interval", "uncertainties", "anchor_context"] ++
          ["ocr_screenshot_capture_interval", "anchor_id", "ocr_collector"])
    · simp only [List.mem_cons, List.not_mem_nil, or_false] at hkey
      rcases hkey with rfl | rfl | rfl | rfl | rfl
      · exact ⟨_, List.mem_of_getElem? (i := 0) rfl⟩
      · exact ⟨_, List.mem_of_getElem? (i := 1) rfl⟩
      · exact ⟨_, List.mem_of_getElem? (i := 2) rfl⟩
      · exact ⟨_, List.mem_of_getElem? (i := 4) rfl⟩
      · exact ⟨_, List.mem_of_getElem? (i := 5) rfl⟩
  refine bind_of_some (a := .ofEntries reference.entries) rfl (guard_bind hkeys ?_)
  refine bind_of_some (by rw [hget 0 rfl]; exact stringWhere_str h.eventId) ?_
  refine bind_of_some (by rw [hget 1 rfl]; exact stringWhere_str h.modality) ?_
  refine bind_of_some (by rw [hget 2 rfl]; exact validSummaryInterval_toValue h.interval) ?_
  refine bind_of_some (by rw [hget 5 rfl]; exact anchorContext_text _) ?_
  refine bind_of_some (by rw [hget 4 rfl]; exact canonicalUncertainties_values h.canonical) ?_
  refine guard_bind ?_ ?_
  · rw [hget 3 rfl, hget 7 rfl, Option.isSome_map, Option.isSome_map]
    exact h.ocr
  refine bind_of_some (a := reference.screenshotInterval) ?_ ?_
  · rw [hget 3 rfl]
    exact optionalField_map fun interval hi =>
      validOCRScreenshotInterval_toValue (h.screenshotInterval interval hi)
  refine bind_of_some (a := reference.collector) ?_ ?_
  · rw [hget 7 rfl]
    exact optionalField_map fun collector hc => validCollector_toValue (h.collector collector hc)
  refine bind_of_some (a := reference.anchorId) ?_ (guard_bind h.anchor rfl)
  rw [hget 6 rfl]
  exact optionalField_map fun anchorId ha => stringWhere_str (h.anchorId anchorId ha)

theorem sound_of_validateEvidenceReference {value : Value}
    (h : validateEvidenceReference value = some reference) : reference.Sound := by
  obtain ⟨fs, -, h⟩ := of_bind h
  obtain ⟨-, h⟩ := of_guard_bind h
  obtain ⟨eventId, heventId, h⟩ := of_bind h
  obtain ⟨modality, hmodality, h⟩ := of_bind h
  obtain ⟨interval, hinterval, h⟩ := of_bind h
  obtain ⟨anchorContext, -, h⟩ := of_bind h
  obtain ⟨uncertainties, huncertainties, h⟩ := of_bind h
  obtain ⟨hocr, h⟩ := of_guard_bind h
  obtain ⟨screenshotInterval, hscreenshot, h⟩ := of_bind h
  obtain ⟨collector, hcollector, h⟩ := of_bind h
  obtain ⟨anchorId, hanchorId, h⟩ := of_bind h
  obtain ⟨hanchor, h⟩ := of_guard_bind h
  obtain rfl := Option.some.inj h
  obtain ⟨hscreenshotSome, hscreenshot⟩ := of_optionalField hscreenshot
  obtain ⟨hcollectorSome, hcollector⟩ := of_optionalField hcollector
  rw [← hscreenshotSome, ← hcollectorSome] at hocr
  refine ⟨(stringWhere_eq_some.mp heventId).2, (stringWhere_eq_some.mp hmodality).2,
    sound_of_validSummaryInterval hinterval, canonical_of_canonicalUncertainties huncertainties,
    hocr, fun interval hi => ?_, fun collector hc => ?_, hanchor, fun anchorId ha => ?_⟩
  · obtain ⟨v, -, hv⟩ := hscreenshot interval hi
    exact sound_of_validOCRScreenshotInterval hv
  · obtain ⟨v, -, hv⟩ := hcollector collector hc
    exact sound_of_validCollector hv
  · obtain ⟨v, -, hv⟩ := (of_optionalField hanchorId).2 anchorId ha
    exact (stringWhere_eq_some.mp hv).2

/-- What the validator makes sure of in a claim. -/
structure SummaryClaim.Sound (claim : SummaryClaim) : Prop where
  id : nonEmptyReference claim.id = true
  statement : nonEmptyString claim.statement = true
  modality : nonEmptyReference claim.modality = true
  scope : nonEmptyReference claim.scope = true
  interval : claim.interval.Sound
  support : ∀ id ∈ claim.supportEventIds, nonEmptyReference id = true
  supportDistinct : claim.supportEventIds.Nodup
  supportNonempty : claim.supportEventIds ≠ []
  conflicts : ∀ id ∈ claim.conflicts, nonEmptyReference id = true
  conflictsDistinct : claim.conflicts.Nodup
  notOwn : claim.id ∉ claim.conflicts
  canonical : SummaryUncertainty.canonical claim.uncertainties = claim.uncertainties
  ocr : claim.modality = "screen_ocr" → hasRequiredOCRUncertainties claim.uncertainties = true

theorem validateClaim_toValue {claim : SummaryClaim} (h : claim.Sound) :
    validateClaim claim.toValue = some claim := by
  refine bind_of_some rfl (guard_bind rfl ?_)
  refine bind_of_some (stringWhere_str h.id) (bind_of_some (stringWhere_str h.statement) ?_)
  refine bind_of_some (claimState_text _) (bind_of_some (stringWhere_str h.modality) ?_)
  refine bind_of_some (stringWhere_str h.scope) ?_
  refine bind_of_some (validSummaryInterval_toValue h.interval) ?_
  refine bind_of_some (uniqueStrings_ofStrings h.support h.supportDistinct) ?_
  refine guard_bind h.supportNonempty ?_
  refine bind_of_some (uniqueStrings_ofStrings h.conflicts h.conflictsDistinct) ?_
  refine bind_of_some (canonicalUncertainties_values h.canonical) ?_
  exact guard_bind h.notOwn (guard_bind h.ocr rfl)

theorem sound_of_validateClaim {value : Value} {claim : SummaryClaim}
    (h : validateClaim value = some claim) : claim.Sound := by
  obtain ⟨fs, -, h⟩ := of_bind h
  obtain ⟨-, h⟩ := of_guard_bind h
  obtain ⟨id, hid, h⟩ := of_bind h
  obtain ⟨statement, hstatement, h⟩ := of_bind h
  obtain ⟨state, -, h⟩ := of_bind h
  obtain ⟨modality, hmodality, h⟩ := of_bind h
  obtain ⟨scope, hscope, h⟩ := of_bind h
  obtain ⟨interval, hinterval, h⟩ := of_bind h
  obtain ⟨support, hsupport, h⟩ := of_bind h
  obtain ⟨hnonempty, h⟩ := of_guard_bind h
  obtain ⟨conflicts, hconflicts, h⟩ := of_bind h
  obtain ⟨uncertainties, huncertainties, h⟩ := of_bind h
  obtain ⟨hnotOwn, h⟩ := of_guard_bind h
  obtain ⟨hocr, h⟩ := of_guard_bind h
  obtain rfl := Option.some.inj h
  obtain ⟨hsupport, hsupportDistinct⟩ := of_uniqueStrings hsupport
  obtain ⟨hconflicts, hconflictsDistinct⟩ := of_uniqueStrings hconflicts
  exact ⟨(stringWhere_eq_some.mp hid).2, (stringWhere_eq_some.mp hstatement).2,
    (stringWhere_eq_some.mp hmodality).2, (stringWhere_eq_some.mp hscope).2,
    sound_of_validSummaryInterval hinterval, hsupport, hsupportDistinct, hnonempty, hconflicts,
    hconflictsDistinct, hnotOwn, canonical_of_canonicalUncertainties huncertainties, hocr⟩

/-- What the validator makes sure of in a contract. -/
structure MinniSummaryContract.Sound (contract : MinniSummaryContract) : Prop where
  summary : nonEmptyString contract.summary = true
  interval : contract.interval.Sound
  returned : contract.returnedCount = contract.evidence.length
  withheld : contract.localOnlyWithheldCount ≤ maxSafeInteger
  lineage : contract.processingLineage.Canonical
  evidenced : contract.evidence ≠ []
  few : contract.evidence.length ≤ minniGetEventsMaxItems
  evidence : ∀ item ∈ contract.evidence, item.Sound
  distinct : (contract.evidence.map SummaryEvidenceReference.eventId).Nodup
  anchors : ∀ item ∈ contract.evidence, item.anchorContext = .authorizedContext →
    item.anchorId.all fun anchorId => anchorId ≠ item.eventId ∧
      (contract.evidence.map SummaryEvidenceReference.eventId).contains anchorId
  derived : derivedEvidenceInterval contract.evidence = some contract.interval
  claimed : contract.claims ≠ []
  claims : ∀ claim ∈ contract.claims, claim.Sound
  claimsDistinct : (contract.claims.map SummaryClaim.id).Nodup
  supported : contract.claims.all (supported contract.evidence) = true
  conflicts : conflictsMutual contract.claims = true
  marked : conflictsMarked contract.evidence contract.claims = true

theorem mapM_toValue {α : Type} {read : Value → Option α} {write : α → Value} {xs : List α}
    (h : ∀ x ∈ xs, read (write x) = some x) : (xs.map write).mapM read = some xs := by
  induction xs with
  | nil => rfl
  | cons x xs ih =>
      obtain ⟨hx, hxs⟩ := List.forall_mem_cons.mp h
      rw [List.map_cons, List.mapM_cons, hx, ih hxs]
      rfl

variable {contract : MinniSummaryContract}

theorem validateEvidence_toValue (h : contract.Sound) :
    validateEvidence (contract.evidence.map SummaryEvidenceReference.toValue) =
      some contract.evidence := by
  refine bind_of_some (mapM_toValue fun item hitem =>
    validateEvidenceReference_toValue (h.evidence item hitem)) ?_
  exact guard_bind h.distinct (guard_bind h.anchors rfl)

theorem validateClaims_toValue (h : contract.Sound) :
    validateClaims contract.evidence (contract.claims.map SummaryClaim.toValue) =
      some contract.claims := by
  refine bind_of_some (mapM_toValue fun claim hclaim =>
    validateClaim_toValue (h.claims claim hclaim)) ?_
  exact guard_bind h.claimsDistinct (guard_bind h.supported rfl)

def MinniSummaryContract.counts (contract : MinniSummaryContract) : Fields :=
  .cons "returned_count" (.num contract.returnedCount)
    (.cons "local_only_withheld_count" (.num contract.localOnlyWithheldCount) .nil)

/-- **A sound contract is read back** from the value it is written as. -/
theorem validateContract_toValue (h : contract.Sound) :
    validateContract contract.toValue = .ok contract := by
  obtain ⟨fs, hfs⟩ : ∃ fs, contract.toValue = .obj fs := ⟨_, rfl⟩
  have hget : ∀ key, fs.get? key = contract.toValue.prop? key := fun key => by rw [hfs]; rfl
  have hversion : isText fs "version" contractVersion = true := isText_of_get? (hget _)
  have hkeys : exactKeys fs ["version", "summary", "event_capture_or_index_interval",
      "evidence_counts", "processing_lineage", "evidence", "claims", "conclusion"] [] = true := by
    obtain rfl := Value.obj.inj hfs
    rfl
  have hsummary : stringWhere nonEmptyString (fs.get? "summary") = some contract.summary := by
    rw [hget]
    exact stringWhere_str h.summary
  have hinterval : validSummaryInterval (fs.get? "event_capture_or_index_interval") =
      some contract.interval := by
    rw [hget]
    exact validSummaryInterval_toValue h.interval
  have hconclusion : enumOf SummaryConclusion.all SummaryConclusion.text (fs.get? "conclusion") =
      some contract.conclusion := by
    rw [hget]
    exact conclusion_text _
  have hcounts : (fs.get? "evidence_counts").bind Value.record? = some contract.counts := by
    rw [hget]
    rfl
  have hreturned : contract.returnedCount ≤ maxSafeInteger := by
    rw [h.returned]
    exact h.few.trans (by decide)
  have hevidence : (fs.get? "evidence").bind Value.elements? =
      some (contract.evidence.map SummaryEvidenceReference.toValue) := by
    rw [hget]
    exact elements?_arr _
  have hclaims : (fs.get? "claims").bind Value.elements? =
      some (contract.claims.map SummaryClaim.toValue) := by
    rw [hget]
    exact elements?_arr _
  have hlineage : validateLineage (fs.get? "processing_lineage") =
      some contract.processingLineage := by
    have hclassified := classify_toValue h.lineage
    rw [hget, validateLineage, show contract.toValue.prop? "processing_lineage" =
      some contract.processingLineage.toValue from rfl, hclassified]
  have hsome : (contract.evidence.map SummaryEvidenceReference.toValue).isEmpty = false := by
    rw [List.isEmpty_eq_false_iff, ne_eq, List.map_eq_nil_iff]
    exact h.evidenced
  have hclaimed : (contract.claims.map SummaryClaim.toValue).isEmpty = false := by
    rw [List.isEmpty_eq_false_iff, ne_eq, List.map_eq_nil_iff]
    exact h.claimed
  have hfew : ¬ minniGetEventsMaxItems <
      (contract.evidence.map SummaryEvidenceReference.toValue).length := by
    rw [List.length_map]
    exact Nat.not_lt.mpr h.few
  have hlength : contract.returnedCount =
      (contract.evidence.map SummaryEvidenceReference.toValue).length := by
    rw [h.returned, List.length_map]
  have hcount₁ : safeCount (contract.counts.get? "returned_count") = some contract.returnedCount :=
    safeCount_num hreturned
  have hcount₂ : safeCount (contract.counts.get? "local_only_withheld_count") =
      some contract.localOnlyWithheldCount := safeCount_num h.withheld
  have hcountKeys : exactKeys contract.counts ["returned_count", "local_only_withheld_count"] [] =
      true := rfl
  rw [hfs]
  unfold validateContract
  simp only [Value.record?, hversion, hkeys, hsummary, hinterval, hconclusion, hcounts, hevidence,
    hclaims, hcount₁, hcount₂, hcountKeys, hsome, hclaimed, hfew, hlineage, hlength,
    validateEvidence_toValue h, validateClaims_toValue h, h.derived, h.conflicts, h.marked,
    Bool.not_true, Bool.false_eq_true, if_false, if_true, ne_eq, not_true_eq_false,
    decide_false, Bool.or_self, Bool.and_self]
  rw [← hlength]

theorem forall_of_mapM {α : Type} {read : Value → Option α} {P : α → Prop} {values : List Value}
    {xs : List α} (h : values.mapM read = some xs) (hread : ∀ v x, read v = some x → P x) :
    ∀ x ∈ xs, P x := fun x hx =>
  have ⟨v, _, hv⟩ := (mem_mapM_iff h).mp hx
  hread v x hv

theorem canonical_of_validateLineage {lineage : ProcessingLineageV1}
    (h : validateLineage value = some lineage) : lineage.Canonical := by
  unfold validateLineage at h
  split at h
  · next _ hclassified =>
      obtain rfl := Option.some.inj h
      exact canonical_of_classify hclassified
  · cases h

theorem sound_of_validateContract {value : Value}
    (h : validateContract value = .ok contract) : contract.Sound := by
  unfold validateContract at h
  split at h
  · cases h
  next fs _ =>
  split at h
  · cases h
  split at h
  · cases h
  split at h
  rotate_left
  · cases h
  next summary interval conclusion counts evidenceValues claimValues hsummary hinterval _ _ _ _ =>
  split at h
  rotate_left
  · cases h
  next returnedCount localOnlyWithheldCount _ hwithheld =>
  split at h
  · cases h
  split at h
  · cases h
  next hevidenced =>
  split at h
  · cases h
  next hbounds =>
  split at h
  rotate_left
  · cases h
  next processingLineage evidence hlineage hevidence =>
  split at h
  · cases h
  next hderived =>
  split at h
  · cases h
  next claims hclaims =>
  split at h
  rotate_left
  · cases h
  next hconflicts =>
  obtain rfl := CodecResult.ok.inj h
  obtain ⟨items, hitems, hevidence⟩ := of_bind hevidence
  obtain ⟨hdistinct, hevidence⟩ := of_guard_bind hevidence
  obtain ⟨hanchors, hevidence⟩ := of_guard_bind hevidence
  obtain rfl := Option.some.inj hevidence
  obtain ⟨parsed, hparsed, hclaims⟩ := of_bind hclaims
  obtain ⟨hclaimsDistinct, hclaims⟩ := of_guard_bind hclaims
  obtain ⟨hsupported, hclaims⟩ := of_guard_bind hclaims
  obtain rfl := Option.some.inj hclaims
  have hlength := (forall₂_of_mapM hitems).length_eq
  have hlength' := (forall₂_of_mapM hparsed).length_eq
  simp only [Bool.or_eq_true, decide_eq_true_eq, not_or, not_lt, ne_eq, not_not, List.isEmpty_iff]
    at hbounds hevidenced
  obtain ⟨⟨hfew, hclaimed⟩, hreturned⟩ := hbounds
  rw [Bool.and_eq_true] at hconflicts
  exact {
    summary := (stringWhere_eq_some.mp hsummary).2
    interval := sound_of_validSummaryInterval hinterval
    returned := hreturned.trans hlength
    withheld := le_of_safeCount hwithheld
    lineage := canonical_of_validateLineage hlineage
    evidenced := by rintro rfl; exact hevidenced (List.length_eq_zero_iff.mp hlength)
    few := hlength ▸ hfew
    evidence := forall_of_mapM hitems fun _ _ => sound_of_validateEvidenceReference
    distinct := hdistinct
    anchors := hanchors
    derived := not_not.mp hderived
    claimed := by rintro rfl; exact hclaimed (List.length_eq_zero_iff.mp hlength')
    claims := forall_of_mapM hparsed fun _ _ => sound_of_validateClaim
    claimsDistinct := hclaimsDistinct
    supported := hsupported
    conflicts := hconflicts.1
    marked := hconflicts.2 }

/-- **What is accepted is sound, and what is sound is accepted.**  The contracts that the validator
makes of some value are the sound ones, each of them is what the validator makes of the value it is
written as, and the builder gives no other. -/
theorem validated_iff_sound (contract : MinniSummaryContract) :
    ((∃ value, validateContract value = .ok contract) ↔ contract.Sound) ∧
      (validateContract contract.toValue = .ok contract ↔ contract.Sound) ∧
      ∀ jsonUtf8Length input, buildMinniSummaryContract jsonUtf8Length input = .ok contract →
        contract.Sound := by
  refine ⟨⟨fun ⟨_, h⟩ => sound_of_validateContract h, fun h => ⟨_, validateContract_toValue h⟩⟩,
    ⟨sound_of_validateContract, validateContract_toValue⟩, fun _ input h => ?_⟩
  rw [buildMinniSummaryContract] at h
  split at h
  · cases h
  · cases h
  · cases h
  dsimp only at h
  split at h
  · cases h
  next hbuilt =>
  obtain rfl := CodecResult.ok.inj h
  obtain ⟨_, -, hbuilt⟩ := of_bind hbuilt
  obtain ⟨assembled, -, hserialized⟩ := of_bind hbuilt
  unfold serializeMinniSummaryContract at hserialized
  split at hserialized
  · next hvalid =>
      obtain rfl := Option.some.inj hserialized
      exact sound_of_validateContract hvalid
  · cases hserialized

end Runir.Minni
