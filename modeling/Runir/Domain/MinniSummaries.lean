import Runir.Domain.MinniReadback
import Runir.Policy.LineageAlgebra

/-!
# Domain — Accepted evidence is summarised

A producer's events that were accepted, one lineage for each of them, and claims that the builder
accepts, give a summary: what the builder puts together, the validator of
`minni-summary-contract.ts` lets through.

* `exists_widest`: intervals have a least one around them.
* `exists_lineage`: lineages that join with one another are read and joined.
* `conflictSets_spec`: a conflict is at both of its claims.
* `sound_assemble`: what is assembled is sound, where the ids of the events are references.
* `buildMinniSummaryContract_succeeds`: which accepted evidence is summarised.
-/

namespace Runir.Minni

/-! ### Intervals -/

/-- The interval around some intervals. -/
def widest : List SummaryEventInterval → Option SummaryEventInterval
  | [] => none
  | interval :: rest => widen interval rest

theorem derivedInterval_eq (events : List MinniEvent) :
    derivedInterval events = widest (events.map eventInterval) := by
  cases events <;> rfl

theorem derivedEvidenceInterval_eq (evidence : List SummaryEvidenceReference) :
    derivedEvidenceInterval evidence = widest (evidence.map SummaryEvidenceReference.interval) := by
  cases evidence <;> rfl

theorem orderOf_neg_iff (l r : ℚ) : orderOf l r < 0 ↔ l < r := by
  unfold orderOf
  rcases lt_trichotomy l r with h | h | h
  · simp [h]
  · simp [h]
  · simp [h.not_gt, h.ne']

theorem orderOf_pos_iff (l r : ℚ) : orderOf l r > 0 ↔ r < l := by
  unfold orderOf
  rcases lt_trichotomy l r with h | h | h
  · simp [h, h.not_gt]
  · simp [h]
  · simp [h, h.not_gt, h.ne']

theorem intervalIsOrdered_iff (start end' : String) :
    intervalIsOrdered start end' = true ↔ NotAfter start end' := by
  simp [intervalIsOrdered, NotAfter, Option.any_eq_true]

theorem intervalIsOrdered_refl {start : String} (h : isTimestamp start = true) :
    intervalIsOrdered start start = true := by
  obtain ⟨t, rfl⟩ := (isSome_parseMinniTimestamp_iff start).mp h
  exact (intervalIsOrdered_iff _ _).mpr ((notAfter_iff t t).mpr le_rfl)

variable {interval : SummaryEventInterval}

/-- Sound intervals are those of two timestamps, the first not after the second. -/
theorem SummaryEventInterval.sound_iff : interval.Sound ↔
    ∃ s e : Timestamp, interval = ⟨s.text, e.text⟩ ∧ s.instant ≤ e.instant := by
  constructor
  · rintro ⟨hstart, hend, hordered⟩
    obtain ⟨s, hs⟩ := (isSome_parseMinniTimestamp_iff _).mp hstart
    obtain ⟨e, he⟩ := (isSome_parseMinniTimestamp_iff _).mp hend
    rw [intervalIsOrdered_iff, ← hs, ← he, notAfter_iff] at hordered
    exact ⟨s, e, by rw [hs, he], hordered⟩
  · rintro ⟨s, e, rfl, h⟩
    exact ⟨(isSome_parseMinniTimestamp_iff _).mpr ⟨s, rfl⟩,
      (isSome_parseMinniTimestamp_iff _).mpr ⟨e, rfl⟩,
      (intervalIsOrdered_iff _ _).mpr ((notAfter_iff s e).mpr h)⟩

/-- One interval more: the earlier of the starts, and the later of the ends. -/
theorem sound_widen_step {interval item : SummaryEventInterval} (h : interval.Sound)
    (hitem : item.Sound) : ∃ startComparison endComparison,
      compareMinniTimestamps item.start interval.start = some startComparison ∧
      compareMinniTimestamps item.end' interval.end' = some endComparison ∧
      SummaryEventInterval.Sound
        { end' := if endComparison > 0 then item.end' else interval.end'
          start := if startComparison < 0 then item.start else interval.start } := by
  obtain ⟨s, e, rfl, hordered⟩ := SummaryEventInterval.sound_iff.mp h
  obtain ⟨s', e', rfl, -⟩ := SummaryEventInterval.sound_iff.mp hitem
  refine ⟨_, _, compareMinniTimestamps_timestamp s' s, compareMinniTimestamps_timestamp e' e, ?_⟩
  -- the earlier start is not after either start, nor the later end before either end
  refine SummaryEventInterval.sound_iff.mpr ⟨if s'.instant < s.instant then s' else s,
    if e.instant < e'.instant then e' else e, ?_, ?_⟩
  · simp only [orderOf_neg_iff, orderOf_pos_iff, apply_ite Timestamp.toWritten, apply_ite Written.text]
  · calc (if s'.instant < s.instant then s' else s).instant ≤ s.instant := by
          split <;> simp [le_of_lt, *]
      _ ≤ e.instant := hordered
      _ ≤ (if e.instant < e'.instant then e' else e).instant := by split <;> simp [le_of_lt, *]

theorem exists_widen {items : List SummaryEventInterval}
    (h : interval.Sound) (hitems : ∀ item ∈ items, item.Sound) :
    ∃ wide, widen interval items = some wide ∧ wide.Sound := by
  induction items generalizing interval with
  | nil => exact ⟨interval, rfl, h⟩
  | cons item items ih =>
      obtain ⟨hitem, hrest⟩ := List.forall_mem_cons.mp hitems
      obtain ⟨c, d, hc, hd, hnext⟩ := sound_widen_step h hitem
      obtain ⟨wide, hwide, hsound⟩ := ih hnext hrest
      refine ⟨wide, ?_, hsound⟩
      rw [widen, hc, hd]
      exact hwide

theorem exists_widest {intervals : List SummaryEventInterval} (hne : intervals ≠ [])
    (h : ∀ interval ∈ intervals, interval.Sound) :
    ∃ wide, widest intervals = some wide ∧ wide.Sound := by
  cases intervals with
  | nil => exact absurd rfl hne
  | cons interval rest =>
      exact exists_widen (h interval List.mem_cons_self) fun item hitem =>
        h item (List.mem_cons_of_mem _ hitem)

variable {event : MinniEvent}

theorem sound_eventInterval {jsonUtf8Length : Value → Nat}
    (h : event.Decoded jsonUtf8Length) : (eventInterval event).Sound := by
  cases hend : event.end' with
  | none =>
      rw [eventInterval, hend]
      exact ⟨h.ts, h.ts, intervalIsOrdered_refl h.ts⟩
  | some end' =>
      obtain ⟨htime, hordered⟩ := h.end' end' hend
      rw [eventInterval, hend]
      exact ⟨h.ts, htime, hordered⟩

/-! ### Lineages -/

/-- A lineage stored for an event: a value that is classified as verified. -/
structure StoredLineage where
  eventId : String
  value : Value
  lineage : ProcessingLineageV1
  verified : classifyProcessingLineage (some value) = .verified lineage

def StoredLineage.toValue (stored : StoredLineage) : Value :=
  .obj (.cons "event_id" (.str stored.eventId) (.cons "processing_lineage" stored.value .nil))

/-- Two stored lineages join. -/
def StoredLineage.Joins (l r : StoredLineage) : Prop :=
  ∃ j, conservativeJoinProcessingLineage (.verified l.lineage) (.verified r.lineage) = .joined j

theorem StoredLineage.joins_iff (l r : StoredLineage) :
    l.Joins r ↔ l.lineage.identity = r.lineage.identity :=
  joined_iff (canonical_of_classify l.verified)

variable {stored : List StoredLineage} {eventIds : List String}

/-- The lineages that have been read are found by their events. -/
theorem readLineages_spec {m : LineageMap}
    (href : ∀ s ∈ stored, nonEmptyReference s.eventId = true ∧ s.eventId ∈ eventIds)
    (hdistinct : (stored.map StoredLineage.eventId).Nodup)
    (hnew : ∀ s ∈ stored, m.get? s.eventId = none) :
    ∃ m', readLineages eventIds (stored.map StoredLineage.toValue) m = some m' ∧
      m'.size = m.size + stored.length ∧
      (∀ s ∈ stored, m'.get? s.eventId = some (.verified s.lineage)) ∧
      ∀ id, id ∉ stored.map StoredLineage.eventId → m'.get? id = m.get? id := by
  induction stored generalizing m with
  | nil => exact ⟨m, rfl, rfl, nofun, fun _ _ => rfl⟩
  | cons s stored ih =>
      obtain ⟨⟨hs, hmem⟩, href⟩ := List.forall_mem_cons.mp href
      obtain ⟨hfirst, hdistinct⟩ := List.nodup_cons.mp hdistinct
      obtain ⟨hnone, hnew⟩ := List.forall_mem_cons.mp hnew
      have hne : ∀ t ∈ stored, t.eventId ≠ s.eventId := fun t ht heq =>
        hfirst (List.mem_map.mpr ⟨t, ht, heq⟩)
      obtain ⟨m', hm', hsize, hget, hother⟩ := ih (m := m.set s.eventId (.verified s.lineage)) href
        hdistinct fun t ht => by rw [OrdMap.get?_set_ne _ _ (hne t ht), hnew t ht]
      refine ⟨m', ?_, ?_, List.forall_mem_cons.mpr ⟨?_, hget⟩, fun id hid => ?_⟩
      · rw [List.map_cons, readLineages]
        refine bind_of_some rfl (guard_bind rfl (bind_of_some (stringWhere_str hs) ?_))
        refine guard_bind (List.contains_iff_mem.mpr hmem) (guard_bind ?_ ?_)
        · rw [OrdMap.has, hnone]
          rfl
        · rw [show (Fields.cons "event_id" (.str s.eventId) (.cons "processing_lineage" s.value
            .nil)).get? "processing_lineage" = some s.value from rfl, s.verified]
          exact hm'
      · rw [hsize, OrdMap.size_set_of_none hnone, List.length_cons]
        omega
      · rw [hother s.eventId hfirst, OrdMap.get?_set_self]
      · obtain ⟨hids, hid⟩ := not_or.mp (mt List.mem_cons.mpr hid)
        rw [hother id hid, OrdMap.get?_set_ne _ _ hids]

variable {ids : List String}

/-- Lineages of one identity are joined into one of that identity. -/
theorem exists_joinLineages {m : LineageMap} {identity : LineageIdentity}
    (hids : ∀ id ∈ ids, ∃ l : ProcessingLineageV1, m.get? id = some (.verified l) ∧ l.Canonical ∧
      l.identity = identity) {joined : ProcessingLineageV1} (hjoined : joined.Canonical)
    (hidentity : joined.identity = identity) :
    ∃ l : ProcessingLineageV1, joinLineages m ids (some (.verified joined)) =
      some (some (.verified l)) ∧ l.Canonical := by
  induction ids generalizing joined with
  | nil => exact ⟨joined, rfl, hjoined⟩
  | cons id ids ih =>
      obtain ⟨⟨l, hl, -, hsame⟩, hids⟩ := List.forall_mem_cons.mp hids
      obtain ⟨j, hj⟩ := (joined_iff hjoined (r := l)).mpr (hidentity.trans hsame.symm)
      have hnext : j.identity = identity := by
        rw [join_verified hjoined] at hj
        split at hj
        · cases hj
        · obtain rfl := ProcessingLineageJoinResult.joined.inj hj
          exact hidentity
      obtain ⟨l', hl', hcanonical⟩ := ih hids (canonical_of_join hjoined hj) hnext
      refine ⟨l', ?_, hcanonical⟩
      rw [joinLineages]
      refine bind_of_some hl ?_
      dsimp only
      rw [hj]
      exact hl'

/-- **One lineage for each event, which join with one another, are joined.** -/
theorem exists_lineage (hne : eventIds ≠ [])
    (href : ∀ id ∈ eventIds, nonEmptyReference id = true) (hdistinct : eventIds.Nodup)
    (hstored : (stored.map StoredLineage.eventId).Perm eventIds)
    (hjoin : stored.Pairwise StoredLineage.Joins) :
    ∃ lineages, validateLineageInputs (stored.map StoredLineage.toValue) eventIds = some lineages ∧
      lineages.1.Canonical := by
  have hlength : stored.length = eventIds.length := by
    rw [← hstored.length_eq, List.length_map]
  have hmem : ∀ s ∈ stored, nonEmptyReference s.eventId = true ∧ s.eventId ∈ eventIds := fun s hs =>
    have hm := hstored.subset (List.mem_map.mpr ⟨s, hs, rfl⟩)
    ⟨href _ hm, hm⟩
  obtain ⟨m, hread, hsize, hget, -⟩ :=
    @readLineages_spec stored eventIds .empty hmem (hstored.nodup_iff.mpr hdistinct) fun _ _ => rfl
  obtain ⟨first, rest, rfl⟩ := List.exists_cons_of_ne_nil hne
  have hfound : ∀ id ∈ first :: rest, ∃ s ∈ stored, s.eventId = id := fun id hid =>
    List.mem_map.mp (hstored.symm.subset hid)
  obtain ⟨s₀, hs₀, hfirst⟩ := hfound first List.mem_cons_self
  have hsame : stored.Pairwise fun l r => l.lineage.identity = r.lineage.identity :=
    hjoin.imp fun {l r} h => (StoredLineage.joins_iff l r).mp h
  have hidentity : ∀ s ∈ stored, s.lineage.identity = s₀.lineage.identity := fun s hs =>
    List.Pairwise.forall_of_forall_of_flip
      (R := fun l r : StoredLineage => l.lineage.identity = r.lineage.identity) (fun _ _ => rfl)
      hsame (hsame.imp fun h => h.symm) hs hs₀
  have hverified : ∀ id ∈ first :: rest, ∃ l : ProcessingLineageV1,
      m.get? id = some (.verified l) ∧ l.Canonical ∧ l.identity = s₀.lineage.identity := by
    intro id hid
    obtain ⟨s, hs, rfl⟩ := hfound id hid
    exact ⟨s.lineage, hget s hs, canonical_of_classify s.verified, hidentity s hs⟩
  obtain ⟨⟨l₀, hl₀, hcanonical, hsame⟩, hrest⟩ := List.forall_mem_cons.mp hverified
  obtain ⟨lineage, hjoined, hlineage⟩ := exists_joinLineages hrest hcanonical hsame
  refine ⟨(lineage, m), guard_bind ?_ (bind_of_some hread (guard_bind ?_ ?_)), hlineage⟩
  · rw [List.length_map, hlength]
  · rw [hsize, hlength, OrdMap.size]
    exact Nat.zero_add _
  · refine bind_of_some (a := some (.verified lineage)) ?_ rfl
    rw [joinLineages]
    exact bind_of_some hl₀ hjoined

/-! ### Claims -/

/-- What is sure of a claim that the builder was given. -/
structure ValidatedClaimInput.Valid (claim : ValidatedClaimInput) : Prop where
  id : nonEmptyReference claim.id = true
  statement : nonEmptyString claim.statement = true
  modality : nonEmptyReference claim.modality = true
  scope : nonEmptyReference claim.scope = true
  support : ∀ id ∈ claim.supportEventIds, nonEmptyReference id = true
  supportDistinct : claim.supportEventIds.Nodup
  supportNonempty : claim.supportEventIds ≠ []
  notOwn : claim.id ∉ claim.conflicts

theorem valid_of_validateClaimInput {value : Value} {claim : ValidatedClaimInput}
    (h : validateClaimInput ids value = some claim) : claim.Valid ∧ claim.id ∉ ids := by
  obtain ⟨fs, -, h⟩ := of_bind h
  obtain ⟨-, h⟩ := of_guard_bind h
  obtain ⟨id, hid, h⟩ := of_bind h
  obtain ⟨hnew, h⟩ := of_guard_bind h
  obtain ⟨statement, hstatement, h⟩ := of_bind h
  obtain ⟨state, -, h⟩ := of_bind h
  obtain ⟨modality, hmodality, h⟩ := of_bind h
  obtain ⟨scope, hscope, h⟩ := of_bind h
  obtain ⟨support, hsupport, h⟩ := of_bind h
  obtain ⟨hnonempty, h⟩ := of_guard_bind h
  obtain ⟨conflicts, -, h⟩ := of_bind h
  obtain ⟨hnotOwn, h⟩ := of_guard_bind h
  obtain ⟨scopeLinkageUnknown, -, h⟩ := of_bind h
  obtain rfl := Option.some.inj h
  obtain ⟨hsupport, hdistinct⟩ := of_uniqueStrings hsupport
  rw [Bool.not_eq_true', List.contains_eq_mem, decide_eq_false_iff_not] at hnew
  exact ⟨⟨(stringWhere_eq_some.mp hid).2, (stringWhere_eq_some.mp hstatement).2,
    (stringWhere_eq_some.mp hmodality).2, (stringWhere_eq_some.mp hscope).2, hsupport, hdistinct,
    hnonempty, hnotOwn⟩, hnew⟩

theorem valid_of_readClaims {values : List Value} {seen claims : List ValidatedClaimInput}
    (h : readClaims values seen = some claims) (hseen : ∀ claim ∈ seen, claim.Valid)
    (hdistinct : (seen.map ValidatedClaimInput.id).Nodup) :
    (∀ claim ∈ claims, claim.Valid) ∧ (claims.map ValidatedClaimInput.id).Nodup ∧
      claims.length = seen.length + values.length := by
  induction values generalizing seen with
  | nil =>
      obtain rfl := Option.some.inj h
      exact ⟨hseen, hdistinct, rfl⟩
  | cons value values ih =>
      obtain ⟨claim, hclaim, h⟩ := of_bind h
      obtain ⟨hvalid, hnew⟩ := valid_of_validateClaimInput hclaim
      have hnext : ((seen ++ [claim]).map ValidatedClaimInput.id).Nodup := by
        rw [List.map_append, List.nodup_append]
        refine ⟨hdistinct, List.nodup_singleton _, ?_⟩
        rintro id hid _ hsame rfl
        rw [List.map_singleton, List.mem_singleton] at hsame
        exact hnew (hsame ▸ hid)
      obtain ⟨hall, hnodup, hlength⟩ := ih h (fun c hc => by
        rcases List.mem_append.mp hc with hc | hc
        · exact hseen c hc
        · rw [List.mem_singleton.mp hc]
          exact hvalid) hnext
      refine ⟨hall, hnodup, ?_⟩
      rw [hlength, List.length_append, List.length_singleton, List.length_cons]
      omega

/-- What is sure of the claims that the builder was given. -/
structure ClaimsValid (claims : List ValidatedClaimInput) : Prop where
  claimed : claims ≠ []
  valid : ∀ claim ∈ claims, claim.Valid
  distinct : (claims.map ValidatedClaimInput.id).Nodup
  known : ∀ claim ∈ claims, ∀ id ∈ claim.conflicts, id ∈ claims.map ValidatedClaimInput.id

variable {claims : List ValidatedClaimInput}

theorem claimsValid_of_validate {value : Value}
    (h : validateClaimInputs value = some claims) : ClaimsValid claims := by
  obtain ⟨values, -, h⟩ := of_bind h
  obtain ⟨⟨hne, -⟩, h⟩ := of_guard_bind h
  obtain ⟨read, hread, h⟩ := of_bind h
  obtain ⟨hknown, h⟩ := of_guard_bind h
  obtain rfl := Option.some.inj h
  obtain ⟨hvalid, hdistinct, hlength⟩ := valid_of_readClaims hread nofun List.nodup_nil
  refine ⟨fun hnil => hne (List.length_eq_zero_iff.mp ?_), hvalid, hdistinct, hknown⟩
  rw [hnil, List.length_nil, Nat.zero_add] at hlength
  exact hlength.symm

/-! ### Conflicts -/

/-- Of two claims one names the other. -/
def Conflicting (claims : List ValidatedClaimInput) (x y : String) : Prop :=
  ∃ claim ∈ claims, claim.id = x ∧ y ∈ claim.conflicts ∨ claim.id = y ∧ x ∈ claim.conflicts

theorem Conflicting.symm {x y : String} (h : Conflicting claims x y) : Conflicting claims y x := by
  obtain ⟨claim, hclaim, h⟩ := h
  exact ⟨claim, hclaim, h.symm⟩

/-- The sets of some claims hold a relation. -/
def HoldsConflicts (ids : List String) (sets : ConflictSets) (R : String → String → Prop) : Prop :=
  ∀ x ∈ ids, ∃ s, sets.get? x = some s ∧ ∀ y, y ∈ s ↔ R x y

theorem addConflict_spec {sets : ConflictSets} {R : String → String → Prop}
    {id conflictId : String} (h : HoldsConflicts ids sets R) (hid : id ∈ ids)
    (hconflict : conflictId ∈ ids) :
    ∃ sets', addConflict ids id sets conflictId = some sets' ∧ HoldsConflicts ids sets' fun x y =>
      R x y ∨ x = id ∧ y = conflictId ∨ x = conflictId ∧ y = id := by
  obtain ⟨own, hown, hownMem⟩ := h id hid
  have hset : HoldsConflicts ids (sets.set id (own.add conflictId)) fun x y =>
      R x y ∨ x = id ∧ y = conflictId := by
    intro x hx
    rw [OrdMap.get?_set]
    by_cases hxid : x = id
    · subst hxid
      rw [if_pos rfl]
      refine ⟨_, rfl, fun y => ?_⟩
      rw [OrdSet.mem_add, hownMem]
      simp
    · rw [if_neg hxid]
      obtain ⟨s, hs, hmem⟩ := h x hx
      refine ⟨s, hs, fun y => ?_⟩
      rw [hmem]
      simp [hxid]
  obtain ⟨other, hother, hotherMem⟩ := hset conflictId hconflict
  refine ⟨_, guard_bind (List.contains_iff_mem.mpr hconflict) (bind_of_some hown
    (bind_of_some hother rfl)), fun x hx => ?_⟩
  rw [OrdMap.get?_set]
  by_cases hxc : x = conflictId
  · subst hxc
    rw [if_pos rfl]
    refine ⟨_, rfl, fun y => ?_⟩
    rw [OrdSet.mem_add, hotherMem, or_assoc]
    simp
  · rw [if_neg hxc]
    obtain ⟨s, hs, hmem⟩ := hset x hx
    refine ⟨s, hs, fun y => (hmem y).trans ?_⟩
    simp [hxc]

/-- **A conflict is at both of its claims.** -/
theorem conflictSets_spec (h : ClaimsValid claims) :
    ∃ sets, conflictSets claims = some sets ∧
      HoldsConflicts (claims.map ValidatedClaimInput.id) sets (Conflicting claims) := by
  have hempty : HoldsConflicts (claims.map ValidatedClaimInput.id)
      (.ofList (claims.map fun claim => (claim.id, .empty))) (Conflicting []) := by
    intro x hx
    refine ⟨.empty, ?_, fun y => iff_of_false OrdSet.not_mem_empty fun hc => ?_⟩
    · have hkeys : (claims.map fun claim => (claim.id, (OrdSet.empty : OrdSet String))).map
          Prod.fst = claims.map ValidatedClaimInput.id := by
        rw [List.map_map]
        rfl
      obtain ⟨claim, hclaim, rfl⟩ := List.mem_map.mp hx
      rw [OrdMap.get?_ofList_of_nodup (hkeys ▸ h.distinct),
        OrdMap.find_eq_some (hkeys ▸ h.distinct)]
      exact List.mem_map.mpr ⟨claim, hclaim, rfl⟩
    · obtain ⟨claim, hclaim, -⟩ := hc
      cases hclaim
  refine foldlM_from_nil (P := fun seen sets => HoldsConflicts (claims.map ValidatedClaimInput.id)
    sets (Conflicting seen)) (fun seen sets claim hclaim hsets => ?_) hempty
  have hnone : HoldsConflicts (claims.map ValidatedClaimInput.id) sets fun x y =>
      Conflicting seen x y ∨ x = claim.id ∧ y ∈ [] ∨ x ∈ [] ∧ y = claim.id := by
    intro x hx
    obtain ⟨s, hs, hmem⟩ := hsets x hx
    refine ⟨s, hs, fun y => (hmem y).trans ?_⟩
    simp
  obtain ⟨sets', hsets', hholds⟩ := @foldlM_from_nil _ _
    (fun named sets => HoldsConflicts (claims.map ValidatedClaimInput.id) sets fun x y =>
      Conflicting seen x y ∨ x = claim.id ∧ y ∈ named ∨ x ∈ named ∧ y = claim.id)
    claim.conflicts
    (addConflict (claims.map ValidatedClaimInput.id) claim.id)
    (fun named sets conflictId hconflict hsets => by
      obtain ⟨sets', hsets', hholds⟩ := addConflict_spec hsets (List.mem_map.mpr ⟨claim, hclaim, rfl⟩)
        (h.known claim hclaim conflictId hconflict)
      refine ⟨sets', hsets', fun x hx => ?_⟩
      obtain ⟨s, hs, hmem⟩ := hholds x hx
      refine ⟨s, hs, fun y => (hmem y).trans ?_⟩
      simp only [List.mem_append, List.mem_singleton]
      tauto)
    sets hnone
  refine ⟨sets', hsets', fun x hx => ?_⟩
  obtain ⟨s, hs, hmem⟩ := hholds x hx
  refine ⟨s, hs, fun y => (hmem y).trans ?_⟩
  simp only [Conflicting, List.mem_append, List.mem_singleton, or_and_right, exists_or,
    exists_eq_left]
  refine or_congr_right ?_
  rw [eq_comm (a := x), eq_comm (a := y), and_comm (a := x ∈ claim.conflicts)]

/-! ### Evidence -/

section
variable {jsonUtf8Length : Value → Nat} {event : MinniEvent} {ids : List String}

theorem SupportedOCRObservation.sound_reading (observation : SupportedOCRObservation) :
    observation.reading.captureInterval.startedMs ≤ observation.reading.captureInterval.completedMs ∧
      observation.reading.captureInterval.completedMs ≤ maxSafeInteger ∧
      observation.reading.omittedRegionCount ≤ maxSafeInteger ∧
      observation.reading.omittedObservationCount ≤ maxSafeInteger ∧
      observation.reading.omittedRecognitionLanguageCount ≤ maxSafeInteger := by
  have h : readObservation observation.1 = some observation.reading :=
    (Option.some_get observation.2).symm
  generalize observation.reading = reading at h ⊢
  obtain ⟨fs, -, h⟩ := of_bind h
  obtain ⟨-, h⟩ := of_guard_bind h
  obtain ⟨-, h⟩ := of_guard_bind h
  obtain ⟨-, h⟩ := of_guard_bind h
  obtain ⟨interval, hinterval, h⟩ := of_bind h
  obtain ⟨_, -, h⟩ := of_bind h
  obtain ⟨_, -, h⟩ := of_bind h
  obtain ⟨regions, hregions, h⟩ := of_bind h
  obtain ⟨observations, hobservations, h⟩ := of_bind h
  obtain ⟨languages, hlanguages, h⟩ := of_bind h
  -- the texts that say what is not known
  obtain ⟨-, h⟩ := of_guard_bind h
  obtain ⟨-, h⟩ := of_guard_bind h
  obtain ⟨-, h⟩ := of_guard_bind h
  obtain ⟨-, h⟩ := of_guard_bind h
  obtain ⟨-, h⟩ := of_guard_bind h
  obtain ⟨-, h⟩ := of_guard_bind h
  -- the request, the regions, and what was left out of them
  obtain ⟨-, h⟩ := of_guard_bind h
  obtain ⟨_, -, h⟩ := of_bind h
  obtain ⟨-, h⟩ := of_guard_bind h
  obtain ⟨_, -, h⟩ := of_bind h
  obtain ⟨-, h⟩ := of_guard_bind h
  obtain ⟨-, h⟩ := of_guard_bind h
  obtain ⟨_, -, h⟩ := of_bind h
  obtain ⟨-, h⟩ := of_guard_bind h
  obtain rfl := Option.some.inj h
  obtain ⟨hordered, hcompleted⟩ : interval.startedMs ≤ interval.completedMs ∧
      interval.completedMs ≤ maxSafeInteger := by
    obtain ⟨fs, -, h⟩ := of_bind hinterval
    obtain ⟨-, h⟩ := of_guard_bind h
    obtain ⟨startedMs, -, h⟩ := of_bind h
    obtain ⟨completedMs, hcompleted, h⟩ := of_bind h
    obtain ⟨hordered, h⟩ := of_guard_bind h
    obtain rfl := Option.some.inj h
    exact ⟨hordered, le_of_safeCount hcompleted⟩
  exact ⟨hordered, hcompleted, le_of_safeCount hregions, le_of_safeCount hobservations,
    le_of_safeCount hlanguages⟩

variable {uncertainties : List SummaryUncertainty}

theorem hasRequiredOCRUncertainties_iff :
    hasRequiredOCRUncertainties uncertainties = true ↔
      ∀ item ∈ SummaryUncertainty.requiredOCR, item ∈ uncertainties := by
  simp only [hasRequiredOCRUncertainties, List.all_eq_true, List.contains_iff_mem]

/-- What an anchor comes to: it is an authorised event but this one, or none is named. -/
theorem anchorForEvent_spec (event : MinniEvent) (ids : List String)
    (uncertainties : List SummaryUncertainty) :
    let anchor := anchorForEvent event ids uncertainties
    (anchor.1 = .authorizedContext ↔ anchor.2.1.isSome = true) ∧
      (∀ anchorId ∈ anchor.2.1, anchorId ≠ event.id ∧ anchorId ∈ ids) ∧
      ∀ item ∈ uncertainties, item ∈ anchor.2.2 := by
  dsimp only
  rw [anchorForEvent]
  split
  · exact ⟨by simp, nofun, fun _ h => h⟩
  · split
    next anchorId hanchor =>
      refine ⟨by simp, ?_, fun _ h => h⟩
      rintro _ ⟨rfl⟩
      obtain ⟨-, hchecked⟩ := Option.filter_eq_some_iff.mp hanchor
      rw [Bool.and_eq_true, decide_eq_true_eq, List.contains_iff_mem] at hchecked
      exact hchecked
    · exact ⟨by simp, nofun, fun item h => List.mem_append_left _ h⟩

theorem mem_uncertainties_of_isOCR (h : isOCR event = true) {item : SummaryUncertainty}
    (hitem : item ∈ SummaryUncertainty.requiredOCR) :
    item ∈ (buildEvidenceReference event ids).uncertainties := by
  refine (anchorForEvent_spec event ids (eventUncertainties event)).2.2 item ?_
  rw [eventUncertainties, if_pos h]
  exact List.mem_append_left _ hitem

/-- A reference, with its uncertainties or more of them, is sound. -/
theorem sound_reference (h : event.Decoded jsonUtf8Length) (hid : nonEmptyReference event.id = true)
    (hids : ∀ id ∈ ids, nonEmptyReference id = true)
    (hmore : ∀ item ∈ (buildEvidenceReference event ids).uncertainties, item ∈ uncertainties) :
    SummaryEvidenceReference.Sound { (buildEvidenceReference event ids).reference with
      uncertainties := SummaryUncertainty.canonical uncertainties } := by
  obtain ⟨hanchor, hanchorId, -⟩ := anchorForEvent_spec event ids (eventUncertainties event)
  have htruthy : ∀ id, nonEmptyReference id = true → Text.truthy id = true := fun id hid => by
    rw [nonEmptyReference, boundedString, Bool.and_eq_true, Bool.and_eq_true] at hid
    exact hid.2.1
  have hfilter : (buildEvidenceReference event ids).reference.anchorId =
      (anchorForEvent event ids (eventUncertainties event)).2.1 := by
    change (anchorForEvent event ids (eventUncertainties event)).2.1.filter Text.truthy = _
    cases ha : (anchorForEvent event ids (eventUncertainties event)).2.1 with
    | none => rfl
    | some anchorId =>
        exact Option.filter_eq_some_iff.mpr
          ⟨rfl, htruthy anchorId (hids anchorId (hanchorId anchorId ha).2)⟩
  have hobservation : ∀ reading ∈ (if isOCR event then
      event.observation.map SupportedOCRObservation.reading else none),
      isOCR event = true ∧ ∃ observation : SupportedOCRObservation,
        observation.reading = reading := by
    intro reading hreading
    split at hreading
    next hocr =>
      obtain ⟨observation, -, hobservation⟩ := Option.map_eq_some_iff.mp hreading
      exact ⟨hocr, observation, hobservation⟩
    · cases hreading
  refine
    { eventId := hid
      modality := ?_
      interval := sound_eventInterval h
      canonical := SummaryUncertainty.canonical_canonical uncertainties
      ocr := fun hocr => ?_
      screenshotInterval := fun interval hi => ?_
      collector := fun collector hc => ?_
      anchor := ?_
      anchorId := fun anchorId ha => ?_ }
  · change nonEmptyReference (if isOCR event then "screen_ocr" else "event") = true
    split
    · decide +kernel
    · decide +kernel
  · have hisOCR : isOCR event = true := by
      rcases hocr with hmodality | hscreenshot | hcollector
      · change (if isOCR event then "screen_ocr" else "event") = "screen_ocr" at hmodality
        by_contra hnot
        rw [if_neg hnot] at hmodality
        exact absurd hmodality (by decide)
      · obtain ⟨interval, hinterval⟩ := Option.isSome_iff_exists.mp hscreenshot
        obtain ⟨reading, hreading, -⟩ := Option.map_eq_some_iff.mp hinterval
        exact (hobservation reading hreading).1
      · obtain ⟨collector, hc⟩ := Option.isSome_iff_exists.mp hcollector
        obtain ⟨reading, hreading, -⟩ := Option.map_eq_some_iff.mp hc
        exact (hobservation reading hreading).1
    refine hasRequiredOCRUncertainties_iff.mpr fun item hitem => ?_
    exact SummaryUncertainty.mem_canonical.mpr (hmore item (mem_uncertainties_of_isOCR hisOCR hitem))
  · obtain ⟨reading, hreading, rfl⟩ := Option.map_eq_some_iff.mp hi
    obtain ⟨-, observation, rfl⟩ := hobservation reading hreading
    obtain ⟨hordered, hbounded, -⟩ := observation.sound_reading
    exact ⟨hordered, hbounded⟩
  · obtain ⟨reading, hreading, rfl⟩ := Option.map_eq_some_iff.mp hc
    obtain ⟨-, observation, rfl⟩ := hobservation reading hreading
    obtain ⟨-, -, hregions, hobservations, hlanguages⟩ := observation.sound_reading
    exact ⟨hregions, hobservations, hlanguages⟩
  · dsimp only
    rw [hfilter]
    exact hanchor
  · dsimp only at ha
    rw [hfilter] at ha
    exact hids anchorId (hanchorId anchorId ha).2

theorem sound_serializedReference (h : event.Decoded jsonUtf8Length)
    (hid : nonEmptyReference event.id = true) (hids : ∀ id ∈ ids, nonEmptyReference id = true)
    (conflictEvidenceIds : List String) :
    (serializedReference conflictEvidenceIds (buildEvidenceReference event ids)).Sound := by
  rw [serializedReference]
  split
  · exact sound_reference h hid hids fun item hitem => List.mem_append_left _ hitem
  · exact sound_reference h hid hids fun item hitem => hitem

theorem serializedReference_anchor (conflictEvidenceIds : List String) {anchorId : String}
    (h : (serializedReference conflictEvidenceIds (buildEvidenceReference event ids)).anchorId =
      some anchorId) : anchorId ≠ event.id ∧ anchorId ∈ ids := by
  have hfiltered : (buildEvidenceReference event ids).reference.anchorId = some anchorId := by
    rw [serializedReference] at h
    split at h
    · exact h
    · exact h
  obtain ⟨hanchor, -⟩ := Option.filter_eq_some_iff.mp hfiltered
  exact (anchorForEvent_spec event ids (eventUncertainties event)).2.1 anchorId hanchor

theorem serializedReference_eventId (conflictEvidenceIds : List String) :
    (serializedReference conflictEvidenceIds (buildEvidenceReference event ids)).eventId =
      event.id := by
  rw [serializedReference]
  split <;> rfl

theorem serializedReference_interval (conflictEvidenceIds : List String) :
    (serializedReference conflictEvidenceIds (buildEvidenceReference event ids)).interval =
      eventInterval event := by
  rw [serializedReference]
  split <;> rfl

end

/-! ### The claims of a summary -/

/-- A claim, and the claim of the builder's input that it was built from. -/
structure BuiltClaim (inputs : List ValidatedClaimInput) (items : List MinniEvent)
    (input : ValidatedClaimInput) (claim : SummaryClaim) : Prop where
  id : claim.id = input.id
  statement : claim.statement = input.statement
  modality : claim.modality = input.modality
  scope : claim.scope = input.scope
  support : claim.supportEventIds = input.supportEventIds
  events : ∃ events, List.Forall₂ (fun id event => event ∈ items ∧ event.id = id)
    input.supportEventIds events ∧ derivedInterval events = some claim.interval ∧
      ∀ event ∈ events, isOCR event = true →
        ∀ item ∈ SummaryUncertainty.requiredOCR, item ∈ claim.uncertainties
  interval : claim.interval.Sound
  canonical : SummaryUncertainty.canonical claim.uncertainties = claim.uncertainties
  conflicts : ∀ y, y ∈ claim.conflicts ↔ (∃ other ∈ inputs, other.id = y) ∧ y ≠ input.id ∧
    Conflicting inputs input.id y
  conflictsDistinct : claim.conflicts.Nodup
  marked : claim.conflicts ≠ [] → SummaryUncertainty.contradictoryEvidence ∈ claim.uncertainties

section
variable {jsonUtf8Length : Value → Nat} {items : List MinniEvent}
  {inputs : List ValidatedClaimInput} {input : ValidatedClaimInput}

/-- The evidence, by event. -/
def evidenceOf (items : List MinniEvent) : OrdMap String MutableEvidence :=
  .ofList ((items.map fun event => buildEvidenceReference event (items.map MinniEvent.id)).map
    fun built => (built.event.id, built))

theorem keys_evidenceOf (items : List MinniEvent) :
    ((items.map fun event => buildEvidenceReference event (items.map MinniEvent.id)).map
      fun built => (built.event.id, built)).map Prod.fst = items.map MinniEvent.id := by
  rw [List.map_map, List.map_map]
  rfl

theorem size_evidenceOf (h : (items.map MinniEvent.id).Nodup) :
    (evidenceOf items).size = items.length := by
  rw [OrdMap.size, evidenceOf, OrdMap.entries_ofList_of_nodup (by rwa [keys_evidenceOf]),
    List.length_map, List.length_map]

theorem get?_evidenceOf (h : (items.map MinniEvent.id).Nodup)
    (hevent : event ∈ items) : (evidenceOf items).get? event.id =
      some (buildEvidenceReference event (items.map MinniEvent.id)) := by
  have hkeys := keys_evidenceOf items
  rw [evidenceOf, OrdMap.get?_ofList_of_nodup (by rwa [hkeys]), OrdMap.find_eq_some (by rwa [hkeys])]
  exact List.mem_map.mpr ⟨_, List.mem_map.mpr ⟨event, hevent, rfl⟩, rfl⟩

variable {supportIds : List String}

/-- The events with some ids. -/
theorem exists_events (h : ∀ id ∈ supportIds, id ∈ items.map MinniEvent.id) :
    ∃ events, List.Forall₂ (fun id event => event ∈ items ∧ event.id = id) supportIds events := by
  induction supportIds with
  | nil => exact ⟨[], .nil⟩
  | cons id supportIds ih =>
      obtain ⟨hid, hrest⟩ := List.forall_mem_cons.mp h
      obtain ⟨event, hevent⟩ := List.mem_map.mp hid
      obtain ⟨events, hevents⟩ := ih hrest
      exact ⟨event :: events, .cons hevent hevents⟩

/-- What is found for each event is found for the events with some ids. -/
theorem mapM_of_events {β : Type} {find : String → Option β} {found : MinniEvent → β}
    (hfind : ∀ event ∈ items, find event.id = some (found event)) {events : List MinniEvent}
    (hevents : List.Forall₂ (fun id event => event ∈ items ∧ event.id = id) supportIds events) :
    supportIds.mapM find = some (events.map found) := by
  induction hevents with
  | nil => rfl
  | @cons id event supportIds events hevent _ ih =>
      obtain ⟨hmem, rfl⟩ := hevent
      rw [List.mapM_cons, hfind event hmem, ih]
      rfl

theorem mem_claimConflicts {claimId y : String} {conflicts : OrdSet String} :
    y ∈ claimConflictsInCanonicalOrder claimId conflicts inputs ↔
      (∃ other ∈ inputs, other.id = y) ∧ y ≠ claimId ∧ y ∈ conflicts := by
  rw [claimConflictsInCanonicalOrder, List.mem_map]
  simp only [List.mem_filter, Bool.and_eq_true, decide_eq_true_eq, OrdSet.has_iff]
  constructor
  · rintro ⟨other, ⟨hother, hne, hmem⟩, rfl⟩
    exact ⟨⟨other, hother, rfl⟩, hne, hmem⟩
  · rintro ⟨⟨other, hother, rfl⟩, hne, hmem⟩
    exact ⟨other, ⟨hother, hne, hmem⟩, rfl⟩

theorem exists_builtClaim (hdecoded : ∀ event ∈ items, event.Decoded jsonUtf8Length)
    (hdistinct : (items.map MinniEvent.id).Nodup) (hinputs : ClaimsValid inputs)
    (hinput : input ∈ inputs) (hsupport : ∀ id ∈ input.supportEventIds, id ∈ items.map MinniEvent.id)
    {conflictIds : OrdSet String} (hconflicts : ∀ y, y ∈ conflictIds ↔ Conflicting inputs input.id y) :
    ∃ claim, buildClaim input conflictIds inputs (evidenceOf items) = some claim ∧
      BuiltClaim inputs items input claim := by
  obtain ⟨events, hevents⟩ := exists_events hsupport
  have hmem : ∀ event ∈ events, event ∈ items := fun event he => by
    obtain ⟨id, -, hevent, -⟩ := exists_of_forall₂ hevents.flip he
    exact hevent
  have hne : events ≠ [] := by
    rintro rfl
    exact (hinputs.valid input hinput).supportNonempty (List.forall₂_nil_right_iff.mp hevents)
  obtain ⟨interval, hinterval, hsound⟩ := exists_widest (by simpa using hne)
    (List.forall_mem_map.mpr fun event he => sound_eventInterval (hdecoded event (hmem event he)))
  rw [← derivedInterval_eq] at hinterval
  have hbuilt : ((events.map fun event => buildEvidenceReference event (items.map MinniEvent.id)).map
      MutableEvidence.event) = events := by
    rw [List.map_map]
    exact List.map_id events
  refine ⟨_, bind_of_some (mapM_of_events (fun _ => get?_evidenceOf hdistinct) hevents)
    (bind_of_some (by rw [hbuilt]; exact hinterval) rfl), ?_⟩
  have hown : ∀ y, y ∈ claimConflictsInCanonicalOrder input.id conflictIds inputs ↔
      (∃ other ∈ inputs, other.id = y) ∧ y ≠ input.id ∧ Conflicting inputs input.id y := fun y => by
    rw [mem_claimConflicts, hconflicts]
  refine
    { id := rfl
      statement := rfl
      modality := rfl
      scope := rfl
      support := rfl
      events := ⟨events, hevents, hinterval, fun event he hocr item hitem => ?_⟩
      interval := hsound
      canonical := SummaryUncertainty.canonical_canonical _
      conflicts := hown
      conflictsDistinct := (List.filter_sublist.map _).nodup hinputs.distinct
      marked := fun hconflict => ?_ }
  · refine SummaryUncertainty.mem_canonical.mpr ?_
    refine List.mem_append_left _ (List.mem_append_left _ (List.mem_flatMap.mpr ?_))
    exact ⟨_, List.mem_map.mpr ⟨event, he, rfl⟩, mem_uncertainties_of_isOCR hocr hitem⟩
  · -- a claim in conflict has a set of conflicts
    obtain ⟨y, hy⟩ := List.exists_mem_of_ne_nil _ hconflict
    obtain ⟨-, -, hmem⟩ := mem_claimConflicts.mp hy
    have hsize : 0 < conflictIds.size := List.length_pos_of_mem hmem
    refine SummaryUncertainty.mem_canonical.mpr (List.mem_append_right _ ?_)
    rw [if_pos hsize]
    exact List.mem_singleton_self _

theorem BuiltClaim.sound {claim : SummaryClaim} (h : BuiltClaim inputs items input claim)
    (hinputs : ClaimsValid inputs) (hinput : input ∈ inputs)
    (hocr : input.modality = "screen_ocr" → ∃ id ∈ input.supportEventIds, ∃ event ∈ items,
      event.id = id ∧ isOCR event = true) (hdistinct : (items.map MinniEvent.id).Nodup) :
    claim.Sound := by
  have hvalid := hinputs.valid input hinput
  refine
    { id := h.id ▸ hvalid.id
      statement := h.statement ▸ hvalid.statement
      modality := h.modality ▸ hvalid.modality
      scope := h.scope ▸ hvalid.scope
      interval := h.interval
      support := h.support ▸ hvalid.support
      supportDistinct := h.support ▸ hvalid.supportDistinct
      supportNonempty := h.support ▸ hvalid.supportNonempty
      conflicts := fun y hy => ?_
      conflictsDistinct := h.conflictsDistinct
      notOwn := fun hown => ((h.conflicts _).mp hown).2.1 h.id
      canonical := h.canonical
      ocr := fun hmodality => ?_ }
  · obtain ⟨⟨other, hother, rfl⟩, -⟩ := (h.conflicts y).mp hy
    exact (hinputs.valid other hother).id
  · obtain ⟨id, hid, event, hevent, rfl, hisOCR⟩ := hocr (h.modality ▸ hmodality)
    obtain ⟨events, hevents, -, hrequired⟩ := h.events
    obtain ⟨event', hevent', hmem, hsame⟩ := exists_of_forall₂ hevents hid
    obtain rfl := List.inj_on_of_nodup_map hdistinct hmem hevent hsame
    exact hasRequiredOCRUncertainties_iff.mpr (hrequired event' hevent' hisOCR)

/-! ### The contract -/

/-- The references of a contract, where some events are in conflict. -/
def referencesOf (items : List MinniEvent) (conflictEvidenceIds : List String) :
    List SummaryEvidenceReference :=
  (items.map fun event => buildEvidenceReference event (items.map MinniEvent.id)).map
    (serializedReference conflictEvidenceIds)

theorem mem_referencesOf {conflictEvidenceIds : List String} {item : SummaryEvidenceReference} :
    item ∈ referencesOf items conflictEvidenceIds ↔ ∃ event ∈ items,
      serializedReference conflictEvidenceIds
        (buildEvidenceReference event (items.map MinniEvent.id)) = item := by
  rw [referencesOf, List.map_map, List.mem_map]
  rfl

theorem map_eventId_referencesOf (conflictEvidenceIds : List String) :
    (referencesOf items conflictEvidenceIds).map SummaryEvidenceReference.eventId =
      items.map MinniEvent.id := by
  rw [referencesOf, List.map_map, List.map_map]
  exact List.map_congr_left fun event _ => serializedReference_eventId conflictEvidenceIds

theorem map_interval_referencesOf (conflictEvidenceIds : List String) :
    (referencesOf items conflictEvidenceIds).map SummaryEvidenceReference.interval =
      items.map eventInterval := by
  rw [referencesOf, List.map_map, List.map_map]
  exact List.map_congr_left fun event _ => serializedReference_interval conflictEvidenceIds

/-- The reference of an event is the one that is found for its id. -/
theorem find?_referencesOf (hdistinct : (items.map MinniEvent.id).Nodup)
    (conflictEvidenceIds : List String) (hevent : event ∈ items) :
    (referencesOf items conflictEvidenceIds).find? (fun item => item.eventId = event.id) =
      some (serializedReference conflictEvidenceIds
        (buildEvidenceReference event (items.map MinniEvent.id))) := by
  obtain ⟨item, hitem⟩ : ∃ item, (referencesOf items conflictEvidenceIds).find?
      (fun item => item.eventId = event.id) = some item := by
    rw [← Option.isSome_iff_exists, List.find?_isSome]
    exact ⟨_, mem_referencesOf.mpr ⟨event, hevent, rfl⟩,
      decide_eq_true (serializedReference_eventId conflictEvidenceIds)⟩
  obtain ⟨event', hevent', rfl⟩ := mem_referencesOf.mp (List.mem_of_find?_eq_some hitem)
  have hsame := List.find?_some hitem
  rw [decide_eq_true_eq, serializedReference_eventId] at hsame
  obtain rfl := List.inj_on_of_nodup_map hdistinct hevent' hevent hsame
  exact hitem

theorem map_id_of_built {built : List ValidatedClaimInput} {claims : List SummaryClaim}
    (h : List.Forall₂ (BuiltClaim inputs items) built claims) :
    claims.map SummaryClaim.id = built.map ValidatedClaimInput.id := by
  induction h with
  | nil => rfl
  | cons hfirst _ ih => rw [List.map_cons, List.map_cons, hfirst.id, ih]

theorem supported_of_builtClaim {claim : SummaryClaim} (h : BuiltClaim inputs items input claim)
    (hdistinct : (items.map MinniEvent.id).Nodup) (conflictEvidenceIds : List String) :
    supported (referencesOf items conflictEvidenceIds) claim = true := by
  obtain ⟨events, hevents, hinterval, -⟩ := h.events
  rw [supported, h.support, mapM_of_events
    (fun _ => find?_referencesOf hdistinct conflictEvidenceIds) hevents]
  dsimp only
  rw [derivedEvidenceInterval_eq, List.map_map, decide_eq_true_eq, ← hinterval, derivedInterval_eq]
  exact congrArg widest
    (List.map_congr_left fun event _ => serializedReference_interval conflictEvidenceIds)

/-- The conflicts of the claims that were built are mutual. -/
theorem conflictsMutual_of_built {claims : List SummaryClaim}
    (h : List.Forall₂ (BuiltClaim inputs items) inputs claims) : conflictsMutual claims = true := by
  simp only [conflictsMutual, List.all_eq_true]
  intro claim hclaim y hy
  obtain ⟨input, hinput, hbuilt⟩ := exists_of_forall₂ h.flip hclaim
  obtain ⟨⟨otherInput, hotherInput, rfl⟩, hne, hconflict⟩ := (hbuilt.conflicts y).mp hy
  obtain ⟨other, hother, hbuiltOther⟩ := exists_of_forall₂ h hotherInput
  obtain ⟨found, hfound⟩ : ∃ found, claims.find? (fun c => c.id = otherInput.id) = some found := by
    rw [← Option.isSome_iff_exists, List.find?_isSome]
    exact ⟨other, hother, decide_eq_true hbuiltOther.id⟩
  obtain ⟨foundInput, -, hbuiltFound⟩ :=
    exists_of_forall₂ h.flip (List.mem_of_find?_eq_some hfound)
  have hid : foundInput.id = otherInput.id := by
    have hsame := List.find?_some hfound
    rw [decide_eq_true_eq, hbuiltFound.id] at hsame
    exact hsame
  rw [hfound, Option.any_some, List.contains_iff_mem, hbuilt.id]
  refine (hbuiltFound.conflicts _).mpr ⟨⟨input, hinput, rfl⟩, ?_, ?_⟩
  · rw [hid]
    exact hne.symm
  · rw [hid]
    exact hconflict.symm

/-- The events that support a claim in conflict. -/
def conflictEvidence (claims : List SummaryClaim) : List String :=
  (claims.filter fun claim => !claim.conflicts.isEmpty).flatMap SummaryClaim.supportEventIds

theorem conflictsMarked_of_built {claims : List SummaryClaim}
    (h : List.Forall₂ (BuiltClaim inputs items) inputs claims) :
    conflictsMarked (referencesOf items (conflictEvidence claims)) claims = true := by
  simp only [conflictsMarked, List.all_eq_true, Bool.or_eq_true, List.isEmpty_iff, Bool.and_eq_true,
    Bool.not_eq_true', List.contains_eq_mem, decide_eq_false_iff_not, decide_eq_true_eq]
  intro claim hclaim
  by_cases hnone : claim.conflicts = []
  · exact Or.inl hnone
  · obtain ⟨input, -, hbuilt⟩ := exists_of_forall₂ h.flip hclaim
    refine Or.inr ⟨hbuilt.marked hnone, fun item hitem => ?_⟩
    obtain ⟨event, hevent, rfl⟩ := mem_referencesOf.mp hitem
    rw [serializedReference_eventId]
    by_cases hsupport : event.id ∈ claim.supportEventIds
    · -- the event is one of those in conflict
      have hmem : event.id ∈ conflictEvidence claims := by
        refine List.mem_flatMap.mpr ⟨claim, List.mem_filter.mpr ⟨hclaim, ?_⟩, hsupport⟩
        rw [Bool.not_eq_true', List.isEmpty_eq_false_iff]
        exact hnone
      have hmarked : (conflictEvidence claims).contains
          (buildEvidenceReference event (items.map MinniEvent.id)).event.id = true :=
        List.contains_iff_mem.mpr hmem
      right
      rw [serializedReference, if_pos hmarked]
      exact SummaryUncertainty.mem_canonical.mpr
        (List.mem_append_right _ (List.mem_singleton_self _))
    · exact Or.inl hsupport

/-- **What is assembled is sound**, where the ids of the events are references. -/
theorem sound_assemble {accepted : AcceptedMinniEvidence} (h : accepted.Accepted jsonUtf8Length)
    (hids : ∀ event ∈ accepted.items, nonEmptyReference event.id = true)
    {input : NormalizedInput} (hsummary : nonEmptyString input.summary = true)
    (hlineages : input.lineages = stored.map StoredLineage.toValue)
    (hstored : (stored.map StoredLineage.eventId).Perm (accepted.items.map MinniEvent.id))
    (hjoin : stored.Pairwise StoredLineage.Joins)
    (hclaims : validateClaimInputs input.claims = some inputs)
    (hsupport : ∀ claim ∈ inputs, ∀ id ∈ claim.supportEventIds, id ∈ accepted.items.map MinniEvent.id)
    (hocr : ∀ claim ∈ inputs, claim.modality = "screen_ocr" →
      ∃ event ∈ accepted.items, event.id ∈ claim.supportEventIds ∧ isOCR event = true) :
    ∃ contract, assembleContract accepted input = some contract ∧ contract.Sound := by
  have hinputs := claimsValid_of_validate hclaims
  have hidsMap : ∀ id ∈ accepted.items.map MinniEvent.id, nonEmptyReference id = true :=
    List.forall_mem_map.mpr hids
  obtain ⟨interval, hinterval, hsound⟩ := exists_widest (by simpa using h.items)
    (List.forall_mem_map.mpr fun event he => sound_eventInterval (h.decoded event he))
  obtain ⟨lineages, hread, hcanonical⟩ := exists_lineage (by simpa using h.items) hidsMap h.distinct
    hstored hjoin
  obtain ⟨sets, hsets, hholds⟩ := conflictSets_spec hinputs
  have hbuild : ∀ claim ∈ inputs, ∃ built, ((sets.get? claim.id).bind fun conflictIds =>
      buildClaim claim conflictIds inputs (evidenceOf accepted.items)) = some built ∧
        BuiltClaim inputs accepted.items claim built := by
    intro claim hclaim
    obtain ⟨conflictIds, hget, hmem⟩ := hholds claim.id (List.mem_map.mpr ⟨claim, hclaim, rfl⟩)
    obtain ⟨built, hbuilt, hspec⟩ := exists_builtClaim h.decoded h.distinct hinputs hclaim
      (hsupport claim hclaim) hmem
    exact ⟨built, by rw [hget]; exact hbuilt, hspec⟩
  obtain ⟨claims, hmapM⟩ := exists_mapM fun claim hclaim => by
    obtain ⟨built, hbuilt, -⟩ := hbuild claim hclaim
    exact Option.isSome_iff_exists.mpr ⟨built, hbuilt⟩
  have hbuilt : List.Forall₂ (BuiltClaim inputs accepted.items) inputs claims := by
    refine (List.forall₂_iff_zip.mpr ⟨(forall₂_of_mapM hmapM).length_eq, fun {claim built} hzip => ?_⟩)
    obtain ⟨built', hbuilt', hspec⟩ := hbuild claim (List.of_mem_zip hzip).1
    have hsame := (List.forall₂_iff_zip.mp (forall₂_of_mapM hmapM)).2 hzip
    rw [hbuilt', Option.some.injEq] at hsame
    exact hsame ▸ hspec
  refine ⟨_, bind_of_some (by rw [derivedInterval_eq]; exact hinterval) (bind_of_some
    (by rw [hlineages]; exact hread) (bind_of_some hclaims (bind_of_some hsets
      (guard_bind (size_evidenceOf h.distinct) (bind_of_some hmapM rfl))))), ?_⟩
  have hreferences : (referencesOf accepted.items (conflictEvidence claims)).map
      SummaryEvidenceReference.eventId = accepted.items.map MinniEvent.id :=
    map_eventId_referencesOf (conflictEvidence claims)
  refine
    { summary := hsummary
      interval := hsound
      returned := ?_
      withheld := h.withheld
      lineage := hcanonical
      evidenced := ?_
      few := ?_
      evidence := fun item hitem => ?_
      distinct := ?_
      anchors := fun item hitem hauthorized => ?_
      derived := ?_
      claimed := ?_
      claims := fun claim hclaim => ?_
      claimsDistinct := ?_
      supported := ?_
      conflicts := conflictsMutual_of_built hbuilt
      marked := conflictsMarked_of_built hbuilt }
  · rw [h.returned]
    simp
  · simpa using h.items
  · simpa using h.few
  · obtain ⟨event, hevent, rfl⟩ := mem_referencesOf.mp hitem
    exact sound_serializedReference (h.decoded event hevent) (hids event hevent) hidsMap _
  · exact (congrArg List.Nodup hreferences).mpr h.distinct
  · obtain ⟨event, hevent, rfl⟩ := mem_referencesOf.mp hitem
    have hsome := ((sound_serializedReference (h.decoded event hevent) (hids event hevent) hidsMap
      _).anchor).mp hauthorized
    obtain ⟨anchorId, hanchor⟩ := Option.isSome_iff_exists.mp hsome
    obtain ⟨hne, hmem⟩ := serializedReference_anchor _ hanchor
    rw [hanchor, Option.all_some, decide_eq_true_eq, serializedReference_eventId,
      List.contains_iff_mem]
    exact ⟨hne, (congrArg (anchorId ∈ ·) hreferences).mpr hmem⟩
  · rw [derivedEvidenceInterval_eq]
    exact (congrArg widest (map_interval_referencesOf _)).trans hinterval
  · rintro rfl
    exact hinputs.claimed (List.forall₂_nil_right_iff.mp hbuilt)
  · obtain ⟨input, hinput, hspec⟩ := exists_of_forall₂ hbuilt.flip hclaim
    refine hspec.sound hinputs hinput (fun hmodality => ?_) h.distinct
    obtain ⟨event, hevent, hid, hisOCR⟩ := hocr input hinput hmodality
    exact ⟨event.id, hid, event, hevent, rfl, hisOCR⟩
  · exact map_id_of_built hbuilt ▸ hinputs.distinct
  · refine List.all_eq_true.mpr fun claim hclaim => ?_
    obtain ⟨input, -, hspec⟩ := exists_of_forall₂ hbuilt.flip hclaim
    exact supported_of_builtClaim hspec h.distinct _

/-! ### The summary -/

/-- What a builder is given. -/
structure MinniSummaryBuilderInput where
  summary : String
  evidence : Value
  lineages : List StoredLineage
  claims : Value
  conclusion : Option SummaryConclusion := none

def MinniSummaryBuilderInput.toValue (input : MinniSummaryBuilderInput) : Value :=
  .obj (.cons "summary" (.str input.summary) (.cons "evidence" input.evidence
    (.cons "lineages" (.arr (.ofList (input.lineages.map StoredLineage.toValue)))
    (.cons "claims" input.claims
    (.consOption "conclusion" (input.conclusion.map fun conclusion => .str conclusion.text) .nil)))))

theorem normalizeBuilderInput_toValue {input : MinniSummaryBuilderInput}
    (hsummary : nonEmptyString input.summary = true)
    (hclaims : input.claims.elements?.isSome = true) :
    normalizeBuilderInput input.toValue = some
      { summary := input.summary
        lineages := input.lineages.map StoredLineage.toValue
        claims := input.claims
        conclusion := input.conclusion } := by
  obtain ⟨summary, evidence, lineages, claims, conclusion⟩ := input
  cases conclusion with
  | none =>
      refine bind_of_some rfl (guard_bind rfl (bind_of_some (stringWhere_str hsummary) ?_))
      exact bind_of_some (elements?_arr _) (bind_of_some rfl (guard_bind hclaims rfl))
  | some conclusion =>
      refine bind_of_some rfl (guard_bind rfl (bind_of_some (stringWhere_str hsummary) ?_))
      refine bind_of_some (elements?_arr _) (bind_of_some rfl (guard_bind hclaims ?_))
      refine bind_of_some (a := some conclusion) ?_ rfl
      exact congrArg (Option.map some) (conclusion_text conclusion)

/-- Lineages that are read are of references. -/
theorem references_of_readLineages {m m' : LineageMap}
    (h : readLineages eventIds (stored.map StoredLineage.toValue) m = some m') :
    ∀ s ∈ stored, nonEmptyReference s.eventId = true := by
  induction stored generalizing m with
  | nil => nofun
  | cons s stored ih =>
      rw [List.map_cons, readLineages] at h
      obtain ⟨fs, hfs, h⟩ := of_bind h
      obtain rfl := Option.some.inj hfs
      obtain ⟨-, h⟩ := of_guard_bind h
      obtain ⟨id, hid, h⟩ := of_bind h
      obtain ⟨-, h⟩ := of_guard_bind h
      obtain ⟨-, h⟩ := of_guard_bind h
      refine List.forall_mem_cons.mpr ⟨?_, ih h⟩
      obtain ⟨hread, href⟩ := stringWhere_eq_some.mp hid
      exact (Value.str.inj (Option.some.inj hread)) ▸ href

/-- **Accepted evidence is summarised.**  The events of a producer's response that was accepted, a
verified lineage for each of them, which join with one another, a summary that says something, and
claims that are accepted, supported by the events and of the modality of a screen only where such an
event supports them, give a summary exactly when the ids of the events are references: without white
space around them, and of 256 bytes at most. -/
theorem buildMinniSummaryContract_succeeds {response : Value} {accepted : AcceptedMinniEvidence}
    (haccepted : decodeMinniGetEventsResponse jsonUtf8Length response = .ok accepted)
    {input : MinniSummaryBuilderInput}
    (hevidence : input.evidence = accepted.toValue ∨ input.evidence = acceptedResult accepted)
    (hsummary : nonEmptyString input.summary = true)
    (hstored : (input.lineages.map StoredLineage.eventId).Perm (accepted.items.map MinniEvent.id))
    (hjoin : input.lineages.Pairwise StoredLineage.Joins)
    (hclaims : validateClaimInputs input.claims = some inputs)
    (hsupport : ∀ claim ∈ inputs, ∀ id ∈ claim.supportEventIds, id ∈ accepted.items.map MinniEvent.id)
    (hocr : ∀ claim ∈ inputs, claim.modality = "screen_ocr" →
      ∃ event ∈ accepted.items, event.id ∈ claim.supportEventIds ∧ isOCR event = true) :
    (∃ contract, buildMinniSummaryContract jsonUtf8Length input.toValue = .ok contract) ↔
      ∀ event ∈ accepted.items, nonEmptyReference event.id = true := by
  have h := accepted_of_decode haccepted
  have hread : readEvidenceBeforeTransientInput jsonUtf8Length input.toValue =
      some (.ok accepted) := by
    have hunwrap := unwrapEvidence_toValue h
    refine Option.bind_eq_some_iff.mpr ⟨input.evidence, rfl, ?_⟩
    rcases hevidence with hevidence | hevidence
    · exact hevidence ▸ hunwrap.1
    · exact hevidence ▸ hunwrap.2
  have hvalues : input.claims.elements?.isSome = true := by
    obtain ⟨values, hvalues, -⟩ := of_bind hclaims
    rw [hvalues]
    rfl
  have hnormalized := normalizeBuilderInput_toValue hsummary hvalues
  rw [buildMinniSummaryContract, hread]
  simp only [hnormalized, Option.bind_some]
  constructor
  · rintro ⟨contract, hcontract⟩
    split at hcontract
    · cases hcontract
    next hbuilt =>
      obtain ⟨assembled, hassembled, -⟩ := of_bind hbuilt
      obtain ⟨interval, -, hassembled⟩ := of_bind hassembled
      obtain ⟨lineages, hlineages, -⟩ := of_bind hassembled
      obtain ⟨-, hlineages⟩ := of_guard_bind hlineages
      obtain ⟨m, hm, -⟩ := of_bind hlineages
      have hall := references_of_readLineages hm
      intro event hevent
      obtain ⟨s, hs, hid⟩ := List.mem_map.mp
        (hstored.symm.subset (List.mem_map.mpr ⟨event, hevent, rfl⟩))
      exact hid ▸ hall s hs
  · intro hids
    obtain ⟨contract, hassembled, hsound⟩ : ∃ contract, assembleContract accepted
        { summary := input.summary
          lineages := input.lineages.map StoredLineage.toValue
          claims := input.claims
          conclusion := input.conclusion } = some contract ∧ contract.Sound :=
      sound_assemble h hids hsummary rfl hstored hjoin hclaims hsupport hocr
    refine ⟨contract, ?_⟩
    rw [hassembled, Option.bind_some, serializeMinniSummaryContract, validateContract_toValue hsound]

end

/-! ### A screen and a note -/

/-- A screen that was read, and a note it is anchored at. -/
def screenAndNote (noteId : String) : AcceptedMinniEvidence where
  items :=
    [{ id := "screen-1", ts := "2024-02-29T10:00:00Z", source := "minni", flags := ["delta"],
       kind := some "ocr", anchorId := some noteId, text := "Deployed" },
      { id := noteId, ts := "2024-02-29T09:30:00+01:00", end' := some "2024-02-29T09:00:00.5Z",
        source := "notes", flags := [], text := "The deployment waits" }]
  returnedCount := 2
  localOnlyWithheldCount := 1

def screenResponse (noteId : String) : Value :=
  .obj (.cons "items" (.arr (.ofList ((screenAndNote noteId).items.map MinniEvent.toValue)))
    (.cons "localOnlyWithheld" (.num 1) .nil))

def screenLineage (restrictions : List ProcessingLineageRestriction) : ProcessingLineageV1 where
  state := .minniVerified
  origin := .minni
  producerPrincipalRef := "principal-1"
  producerRegistrationRef := "registration-1"
  processingPolicyVersion := .minniLocalV1
  admittedOperation := .captureIngest
  targetUserId := "user-1"
  delivery :=
    { version := .minniDeliveryV1
      disposition := if restrictions = [] then .ordinary else .localOnly
      restrictions }

/-- Two claims in conflict, both of them about the screen. -/
def screenClaims : List ValidatedClaimInput :=
  [⟨"deployed", "It was deployed", .displayedSuccess, "screen_ocr", "project", ["screen-1"],
      ["waiting"], false⟩,
    ⟨"waiting", "It was not", .uncertain, "event", "project", ["screen-1"], [], true⟩]

def ValidatedClaimInput.toValue (claim : ValidatedClaimInput) : Value :=
  .obj (.cons "id" (.str claim.id) (.cons "statement" (.str claim.statement)
    (.cons "state" (.str claim.state.text) (.cons "modality" (.str claim.modality)
    (.cons "scope" (.str claim.scope) (.cons "support_event_ids" (.ofStrings claim.supportEventIds)
    (.cons "conflicts" (.ofStrings claim.conflicts)
    (.cons "scope_linkage_unknown" (.bool claim.scopeLinkageUnknown) .nil))))))))

def screenInput (noteId : String) : MinniSummaryBuilderInput where
  summary := "A deployment"
  evidence := acceptedResult (screenAndNote noteId)
  lineages :=
    [⟨noteId, (screenLineage []).toValue, screenLineage [], by decide +kernel⟩,
      ⟨"screen-1", (screenLineage [.audioDerived]).toValue, screenLineage [.audioDerived],
        by decide +kernel⟩]
  claims := .arr (.ofList (screenClaims.map ValidatedClaimInput.toValue))

theorem screenLineages_join (noteId : String) :
    (screenInput noteId).lineages.Pairwise StoredLineage.Joins := by
  simp only [screenInput, List.pairwise_cons, List.mem_singleton, forall_eq, List.not_mem_nil,
    false_implies, implies_true, List.Pairwise.nil, and_true]
  exact (StoredLineage.joins_iff _ _).mpr rfl

theorem buildMinniSummaryContract_screen :
    ∃ contract, buildMinniSummaryContract (fun _ => 0) (screenInput "note-1").toValue =
      .ok contract := by
  have haccepted : decodeMinniGetEventsResponse (fun _ => 0) (screenResponse "note-1") =
      .ok (screenAndNote "note-1") := by decide +kernel
  have hclaims : validateClaimInputs (screenInput "note-1").claims = some screenClaims := by
    decide +kernel
  refine (buildMinniSummaryContract_succeeds haccepted (Or.inr rfl) ?_ ?_ (screenLineages_join _)
    hclaims ?_ ?_).mpr ?_
  all_goals decide +kernel

/-- An event whose id has white space around it is accepted, and is never summarised. -/
theorem buildMinniSummaryContract_spacedId :
    decodeMinniGetEventsResponse (fun _ => 0) (screenResponse " note-1 ") =
      .ok (screenAndNote " note-1 ") ∧
    nonEmptyString (screenInput " note-1 ").summary = true ∧
    ((screenInput " note-1 ").lineages.map StoredLineage.eventId).Perm
      ((screenAndNote " note-1 ").items.map MinniEvent.id) ∧
    (screenInput " note-1 ").lineages.Pairwise StoredLineage.Joins ∧
    validateClaimInputs (screenInput " note-1 ").claims = some screenClaims ∧
    (∀ claim ∈ screenClaims, ∀ id ∈ claim.supportEventIds,
      id ∈ (screenAndNote " note-1 ").items.map MinniEvent.id) ∧
    (∀ claim ∈ screenClaims, claim.modality = "screen_ocr" →
      ∃ event ∈ (screenAndNote " note-1 ").items,
        event.id ∈ claim.supportEventIds ∧ isOCR event = true) ∧
    buildMinniSummaryContract (fun _ => 0) (screenInput " note-1 ").toValue =
      .refusal .invalidContract := by
  refine ⟨?_, ?_, ?_, screenLineages_join _, ?_, ?_, ?_, ?_⟩
  all_goals decide +kernel

end Runir.Minni
