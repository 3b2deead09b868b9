import Runir.Store.PromotionPreflight

/-!
# Store — Promotion outcome

What the readback of a promotion tells.

* `promotionOutcome_committed_iff`, `promotionOutcome_rolledBack_iff`: its checks.
* `promotionTransaction_committed_iff`, `before_rolledBack_iff`: the readback of the rows the
  transaction leaves, and of those it has found.
* `carriesCall_of_committed`, `asBefore_of_rolledBack`: what an outcome says of the rows, where no
  column holds another value of the same text.
-/

namespace Runir

variable {driver : PromotionDriver} {call : PromotionCall} {rows after : PromotionRows call.noemaId}
variable {preflight : PromotionPreflight}

/-! ### The checks -/

theorem promotionOutcome_committed_iff : noemaPromotionOutcome driver call preflight after = .committed ↔
    (∃ t, after.target = some t ∧ targetCommitted driver call preflight t = true ∧
        targetUpdatedAtCommitted driver call preflight t = true) ∧
      (∃ s, after.semiotes call.sourceId = some s ∧ sourceCommitted driver call preflight s = true ∧
        sourceUpdatedAtCommitted driver call preflight s = true) ∧
      supportReadbackStable driver call preflight after = true := by
  unfold noemaPromotionOutcome
  dsimp only
  split
  · next h =>
      simp only [Bool.and_eq_true, Option.any_eq_true] at h
      simpa [and_assoc] using h
  · next h =>
      simp only [Bool.and_eq_true, Option.any_eq_true, and_assoc] at h
      refine iff_of_false (fun heq => ?_) h
      split at heq <;> cases heq

theorem promotionOutcome_rolledBack_iff : noemaPromotionOutcome driver call preflight after = .rolledBack ↔
    noemaPromotionOutcome driver call preflight after ≠ .committed ∧
      targetRolledBack driver call preflight after.target = true ∧
      (∃ s, after.semiotes call.sourceId = some s ∧ sourceRolledBack driver call preflight s = true) ∧
      supportReadbackStable driver call preflight after = true := by
  unfold noemaPromotionOutcome
  dsimp only
  split
  · simp
  · split
    · next h =>
        simp only [Bool.and_eq_true, Option.any_eq_true, and_assoc] at h
        exact iff_of_true rfl ⟨fun heq => (by cases heq), h⟩
    · next h =>
        simp only [Bool.and_eq_true, Option.any_eq_true, and_assoc] at h
        exact iff_of_false (fun heq => (by cases heq)) fun hall => h hall.2

theorem fieldsMatch_iff {expected actual : NoemaPromotionMetadata} {markers ignored : Bool} :
    promotionMetadataFieldsMatch driver expected actual markers ignored = true ↔
      normalizePromotionSourceId (actual (.snapshot .id)) =
          normalizePromotionSourceId (expected (.snapshot .id)) ∧
        actual (.snapshot .processingLineage) = .absent ∧
        promotionOwnerUserId driver expected = promotionOwnerUserId driver actual ∧
        (∀ f ∈ guardedPromotionFields, ignored = true ∧ f = .updatedAt ∨
          samePromotionMetadataValue driver (actual (.snapshot f)) (expected (.snapshot f)) = true) ∧
        (markers = true → ∀ m,
          samePromotionMetadataValue driver (actual (.marker m)) (expected (.marker m)) = true) := by
  simp only [promotionMetadataFieldsMatch, Bool.and_eq_true, decide_eq_true_eq, List.all_eq_true,
    Bool.or_eq_true, Bool.not_eq_true', PromotionMarker.mem_all, true_imp_iff, and_assoc]
  cases markers <;> simp

theorem mem_guardedPromotionFields {f : SnapshotField} :
    f ∈ guardedPromotionFields ↔ f ≠ .id ∧ f ≠ .processingLineage := by
  simp [guardedPromotionFields, SnapshotField.mem_all]

/-- The columns of a target that are compared by their texts. -/
def TargetField.Compared (c : TargetField) : Prop :=
  c ≠ .id ∧ c ≠ .processingLineage ∧ c ≠ .supportSemioteIds

theorem targetCommitted_iff {t : NoemaPromotionTargetMetadata} (hid : t .id = .record call.noemaId) :
    (targetCommitted driver call preflight t = true ∧
        targetUpdatedAtCommitted driver call preflight t = true) ↔
      t .processingLineage = .absent ∧
        (∀ c : TargetField, c.Compared →
          samePromotionMetadataValue driver (t c) (promotedTarget call preflight c) = true) ∧
        sameSupportIdSet (t .supportSemioteIds) preflight.supportIds = true ∧
        ∀ before, preflight.target = some before →
          samePromotionMetadataValue driver (before .updatedAt) (.date call.now) = false := by
  have hidText : normalizePromotionSourceId (t .id) =
      normalizePromotionSourceId (.str call.noemaRecordId) := by
    rw [hid, normalize_record, normalize_str, normalize_noemaRecordId]
  have hstamped : (!preflight.target.isSome || !samePromotionMetadataValue driver
        ((preflight.target.map fun t => t .updatedAt).getD .absent) (.date call.now)) = true ↔
      ∀ before, preflight.target = some before →
        samePromotionMetadataValue driver (before .updatedAt) (.date call.now) = false := by
    cases preflight.target <;> simp
  simp only [targetCommitted, targetUpdatedAtCommitted, promotionUpdatedAtMatchesExpected,
    Bool.and_eq_true, hstamped, hidText, decide_eq_true_eq, true_and]
  constructor
  · rintro ⟨⟨⟨⟨⟨⟨⟨hlineage, huserId⟩, hclaimKey⟩, hrevisionHash⟩, hsupports⟩, hactive⟩, hstatus⟩,
      hupdatedAt, hbefore⟩
    refine ⟨hlineage, fun c ⟨hc, hc', hc''⟩ => ?_, hsupports, hbefore⟩
    cases c with
    | id => exact absurd rfl hc
    | userId => exact huserId
    | processingLineage => exact absurd rfl hc'
    | status => exact hstatus
    | claimKey => exact hclaimKey
    | revisionHash => exact hrevisionHash
    | supportSemioteIds => exact absurd rfl hc''
    | active => exact hactive
    | updatedAt => exact hupdatedAt
  · rintro ⟨hlineage, hsame, hsupports, hbefore⟩
    have hcompared : ∀ c : TargetField, c = .userId ∨ c = .status ∨ c = .claimKey ∨
        c = .revisionHash ∨ c = .active ∨ c = .updatedAt → c.Compared := by
      rintro c (rfl | rfl | rfl | rfl | rfl | rfl) <;> simp [TargetField.Compared]
    refine ⟨⟨⟨⟨⟨⟨⟨hlineage, ?_⟩, ?_⟩, ?_⟩, hsupports⟩, ?_⟩, ?_⟩, ?_, hbefore⟩
    · exact hsame .userId (hcompared _ (by simp))
    · exact hsame .claimKey (hcompared _ (by simp))
    · exact hsame .revisionHash (hcompared _ (by simp))
    · exact hsame .active (hcompared _ (by simp))
    · exact hsame .status (hcompared _ (by simp))
    · exact hsame .updatedAt (hcompared _ (by simp))

theorem sourceCommitted_iff {s : NoemaPromotionMetadata}
    (hid : normalizePromotionSourceId (s (.snapshot .id)) = some call.sourceId) :
    (sourceCommitted driver call preflight s = true ∧
        sourceUpdatedAtCommitted driver call preflight s = true) ↔
      samePromotionMetadataValue driver (s (.snapshot .userId)) (.str preflight.userId) = true ∧
        s (.snapshot .processingLineage) = .absent ∧
        (∀ m, m ≠ .noemaSupportSemioteIds →
          samePromotionMetadataValue driver (s (.marker m)) (promotedMarker call preflight m) = true) ∧
        sameSupportIdSet (s (.marker .noemaSupportSemioteIds)) preflight.supportIds = true ∧
        samePromotionMetadataValue driver (s (.snapshot .updatedAt)) (.date call.now) = true ∧
        samePromotionMetadataValue driver (preflight.source (.snapshot .updatedAt))
          (.date call.now) = false := by
  simp only [sourceCommitted, sourceUpdatedAtCommitted, isSourceRow, sourceMarkersMatch,
    promotionUpdatedAtMatchesExpected, Bool.and_eq_true, hid, decide_true, true_and,
    decide_eq_true_eq, List.all_eq_true, Bool.not_true, Bool.false_or, Bool.not_eq_true', and_assoc,
    PromotionMarker.mem_all, true_imp_iff]
  refine and_congr_right fun _ => and_congr_right fun _ => ?_
  constructor
  · rintro ⟨hmarkers, hrest⟩
    refine ⟨fun m hm => ?_, ?_, hrest⟩
    · have hsame := hmarkers m
      rwa [if_neg hm] at hsame
    · have hsame := hmarkers .noemaSupportSemioteIds
      rwa [if_pos rfl] at hsame
  · rintro ⟨hmarkers, hsupports, hrest⟩
    refine ⟨fun m => ?_, hrest⟩
    by_cases hm : m = .noemaSupportSemioteIds
    · subst hm
      exact hsupports
    · rw [if_neg hm]
      exact hmarkers m hm

theorem sourceRolledBack_iff {s : NoemaPromotionMetadata}
    (hid : normalizePromotionSourceId (s (.snapshot .id)) = some call.sourceId) :
    sourceRolledBack driver call preflight s = true ↔
      samePromotionMetadataValue driver (s (.snapshot .userId)) (.str preflight.userId) = true ∧
        s (.snapshot .processingLineage) = .absent ∧
        samePromotionMetadataValue driver (s (.snapshot .updatedAt))
          (preflight.source (.snapshot .updatedAt)) = true ∧
        ∀ m, samePromotionMetadataValue driver (s (.marker m)) (preflight.source (.marker m)) = true := by
  simp only [sourceRolledBack, isSourceRow, sourceMarkersEqual, Bool.and_eq_true, hid, decide_true,
    true_and, decide_eq_true_eq, List.all_eq_true, PromotionMarker.mem_all, true_imp_iff, and_assoc]

theorem targetRolledBack_iff : targetRolledBack driver call preflight after.target = true ↔
    (preflight.target = none ∧ after.target = none) ∨
      ∃ existing t, preflight.target = some existing ∧ after.target = some t ∧
        ∀ c, c ≠ .id → samePromotionMetadataValue driver (t c) (existing c) = true := by
  unfold targetRolledBack
  cases preflight.target with
  | none => simp
  | some existing =>
      cases hafter : after.target with
      | none => simp
      | some t =>
          have hid : normalizePromotionSourceId (t .id) =
              normalizePromotionSourceId (.str call.noemaRecordId) := by
            rw [after.target_id t hafter, normalize_record, normalize_str, normalize_noemaRecordId]
          simp only [Option.any_some, hid, decide_true, Bool.true_and, List.all_eq_true]
          constructor
          · intro hsame
            refine .inr ⟨existing, t, rfl, rfl, fun c hc => hsame c ?_⟩
            cases c with
            | id => exact absurd rfl hc
            | _ => simp
          · rintro (⟨h, -⟩ | ⟨existing', t', hexisting, ht, hsame⟩)
            · cases h
            · cases hexisting
              cases ht
              intro c hc
              refine hsame c ?_
              rintro rfl
              simp at hc

/-- **The supports are stable where each has the columns it had.** -/
theorem stable_iff (found : PreflightFoundIn driver call rows preflight) :
    supportReadbackStable driver call preflight after = true ↔
      ∀ id ∈ preflight.supportIds, ∀ before, rows.semiotes id = some before →
        ∃ row, after.semiotes id = some row ∧
          promotionMetadataFieldsMatch driver before row (!decide (id = call.sourceId))
            (decide (id = call.sourceId)) = true := by
  have hsnapshot : ∀ {id row}, SupportFound driver rows preflight.userId id row →
      normalizePromotionSourceId (row (.snapshot .id)) = some id := by
    intro id row hrow
    rw [rows.semiote_id id row hrow.found, normalize_record, hrow.plain]
  have hisSource : ∀ {id row}, normalizeIdText id = some id → after.semiotes id = some row →
      decide (normalizePromotionSourceId (row (.snapshot .id)) = some call.sourceId) =
        decide (id = call.sourceId) := by
    intro id row hplain hrow
    simp [after.semiote_id id row hrow, hplain]
  simp only [supportReadbackStable, List.all_eq_true, Option.any_eq_true]
  constructor
  · intro h id hid before hbefore
    obtain ⟨row, hmem, hrow⟩ := found.supports id hid
    obtain rfl := Option.some.inj (hrow.found.symm.trans hbefore)
    obtain ⟨actual, hactual, hmatch⟩ := h row hmem
    rw [hsnapshot hrow, Option.getD_some] at hactual
    rw [hisSource hrow.plain hactual] at hmatch
    exact ⟨actual, hactual, hmatch⟩
  · intro h row hmem
    obtain ⟨id, hid, hrow⟩ := found.supported row hmem
    obtain ⟨actual, hactual, hmatch⟩ := h id hid row hrow.found
    refine ⟨actual, ?_, ?_⟩
    · rw [hsnapshot hrow, Option.getD_some, hactual]
    · rw [hisSource hrow.plain hactual]
      exact hmatch

/-! ### What is printed -/

theorem printed_wellFormed {row : NoemaPromotionMetadata}
    (h : isWellFormedPromotionMetadata driver row = true) :
    row (.snapshot .processingLineage) = .absent ∧
      (∀ f ∈ guardedPromotionFields, Printed driver (row (.snapshot f))) ∧
      ∀ m, Printed driver (row (.marker m)) := by
  simp only [isWellFormedPromotionMetadata, Bool.and_eq_true, decide_eq_true_eq, List.all_eq_true]
    at h
  exact ⟨h.1.1.1.1.2, h.1.2, fun m => h.2 m m.mem_all⟩

theorem canonicalElements_texts : ∀ xs : PromotionValues,
    (xs.toList.all fun x => x.str?.isSome) = true → (canonicalElements driver xs).isSome = true
  | .nil, _ => by simp [canonicalElements]
  | .cons x xs, h => by
      rw [PromotionValues.toList, List.all_cons, Bool.and_eq_true] at h
      obtain ⟨texts, htexts⟩ := Option.isSome_iff_exists.mp (canonicalElements_texts xs h.2)
      cases x with
      | str s => simp [canonicalElements, canonicalPromotionMetadataValue, htexts]
      | _ => simp [PromotionValue.str?] at h

theorem printed_texts {xs : PromotionValues}
    (h : (xs.toList.all fun x => x.str?.isSome) = true) : Printed driver (.arr xs) := by
  simpa [Printed, canonicalPromotionMetadataValue] using canonicalElements_texts xs h

theorem printed_stableClaim (call : PromotionCall) : Printed driver call.stableClaim := by
  simp [Printed, PromotionCall.stableClaim, canonicalPromotionMetadataValue, canonicalEntries,
    PromotionFields.keys]

/-- What a target that may be reinforced holds. -/
theorem TargetFound.printed {target : NoemaPromotionTargetMetadata}
    (found : TargetFound driver preflight target) {c : TargetField} (hid : c ≠ .id) :
    Printed driver (target c) := by
  have hwell := found.wellFormed
  simp only [isWellFormedNoemaPromotionTarget, absentOr, Bool.and_eq_true, Bool.or_eq_true,
    decide_eq_true_eq, Option.any_eq_true] at hwell
  obtain ⟨⟨⟨⟨⟨hstatus, hclaimKey⟩, hrevisionHash⟩, hsupports⟩, hactive⟩, hupdatedAt⟩ := hwell
  have hstr : ∀ {v : PromotionValue}, v = .absent ∨ v.str?.isSome = true → Printed driver v := by
    intro v hv
    cases v with
    | absent => exact printed_absent
    | str s => exact printed_str s
    | _ => simp [PromotionValue.str?] at hv
  cases c with
  | id => exact absurd rfl hid
  | userId => exact printed_of_same found.owner
  | processingLineage =>
      rw [found.lineage]
      exact printed_absent
  | status =>
      refine hstr (hstatus.imp_right ?_)
      rintro ⟨s, hs, -⟩
      rw [hs]
      rfl
  | claimKey => exact hstr hclaimKey
  | revisionHash => exact hstr hrevisionHash
  | supportSemioteIds =>
      rcases hsupports with hv | ⟨xs, hxs, htexts⟩
      · rw [hv]
        exact printed_absent
      · revert hxs
        cases target .supportSemioteIds with
        | arr ys =>
            intro hxs
            obtain rfl := Option.some.inj hxs
            exact printed_texts htexts
        | _ =>
            intro hxs
            cases hxs
  | active =>
      rcases hactive with hv | hv | hv <;> rw [hv] <;> simp
  | updatedAt =>
      rcases hupdatedAt with hv | hv
      · rw [hv]
        exact printed_absent
      · exact hv

/-! ### The two readings -/

/-- What lets a readback tell the rows of a promotion from those before it: the source's own column
holds the owner, and no row is stamped with the instant of the call. -/
structure ReadbackReady (driver : PromotionDriver) (call : PromotionCall)
    (preflight : PromotionPreflight) : Prop where
  owner : samePromotionMetadataValue driver (preflight.source (.snapshot .userId))
    (.str preflight.userId) = true
  source : samePromotionMetadataValue driver (preflight.source (.snapshot .updatedAt))
    (.date call.now) = false
  target : ∀ t, preflight.target = some t →
    samePromotionMetadataValue driver (t .updatedAt) (.date call.now) = false

@[simp] theorem transaction_source : (promotionTransaction call preflight rows).semiotes call.sourceId =
    (rows.semiotes call.sourceId).map (promotedSource call preflight) :=
  if_pos rfl

theorem transaction_other {id : String} (h : id ≠ call.sourceId) :
    (promotionTransaction call preflight rows).semiotes id = rows.semiotes id :=
  if_neg h

theorem promotedMarker_same {m : PromotionMarker} (hm : m ≠ .noemaSupportSemioteIds) :
    samePromotionMetadataValue driver (promotedMarker call preflight m)
      (promotedMarker call preflight m) = true := by
  refine same_self ?_
  cases m with
  | noemaSupportSemioteIds => exact absurd rfl hm
  | noemaStableClaim => exact printed_stableClaim call
  | _ => simp [promotedMarker]

section
variable (found : PreflightFoundIn driver call rows preflight)
include found

theorem plainIds : PlainIds preflight.supportIds := by
  intro id hid
  obtain ⟨row, -, hrow⟩ := found.supports id hid
  exact hrow.plain

theorem before_stable : supportReadbackStable driver call preflight rows = true := by
  refine (stable_iff found).mpr fun id hid before hbefore => ⟨before, hbefore, ?_⟩
  obtain ⟨row, -, hrow⟩ := found.supports id hid
  obtain rfl := Option.some.inj (hrow.found.symm.trans hbefore)
  obtain ⟨hlineage, hfields, hmarkers⟩ := printed_wellFormed hrow.wellFormed
  refine fieldsMatch_iff.mpr ⟨rfl, hlineage, rfl, fun f hf => .inr ?_, fun _ m => ?_⟩
  · exact same_self (hfields f hf)
  · exact same_self (hmarkers m)

theorem transaction_source_found :
    (promotionTransaction call preflight rows).semiotes call.sourceId =
      some (promotedSource call preflight preflight.source) := by
  rw [transaction_source, found.source.found, Option.map_some]

theorem transaction_stable :
    supportReadbackStable driver call preflight (promotionTransaction call preflight rows) = true := by
  refine (stable_iff found).mpr fun id hid before hbefore => ?_
  obtain ⟨row, -, hrow⟩ := found.supports id hid
  obtain rfl := Option.some.inj (hrow.found.symm.trans hbefore)
  obtain ⟨hlineage, hfields, hmarkers⟩ := printed_wellFormed hrow.wellFormed
  by_cases hsource : id = call.sourceId
  · refine ⟨promotedSource call preflight row, ?_, ?_⟩
    · rw [hsource, transaction_source, ← hsource, hbefore, Option.map_some]
    · rw [decide_eq_true hsource]
      refine fieldsMatch_iff.mpr ⟨rfl, hlineage, rfl, fun f hf => ?_, fun h => (by cases h)⟩
      by_cases hupdatedAt : f = .updatedAt
      · exact .inl ⟨rfl, hupdatedAt⟩
      · have hkept : promotedSource call preflight row (.snapshot f) = row (.snapshot f) :=
          if_neg hupdatedAt
        rw [hkept]
        exact .inr (same_self (hfields f hf))
  · refine ⟨row, ?_, ?_⟩
    · rw [transaction_other hsource, hbefore]
    · refine fieldsMatch_iff.mpr ⟨rfl, hlineage, rfl, fun f hf => .inr ?_, fun _ m => ?_⟩
      · exact same_self (hfields f hf)
      · exact same_self (hmarkers m)

/-- What a transaction sets of a target has its own text. -/
theorem promotedTarget_same {c : TargetField} (hc : c.Compared) :
    samePromotionMetadataValue driver (promotedTarget call preflight c)
      (promotedTarget call preflight c) = true := by
  refine same_self ?_
  cases c with
  | id => exact absurd rfl hc.1
  | processingLineage => exact absurd rfl hc.2.1
  | supportSemioteIds => exact absurd rfl hc.2.2
  | active =>
      cases htarget : preflight.target with
      | none => simp [promotedTarget, htarget]
      | some t =>
          simpa [promotedTarget, htarget] using
            (found.targetFound t htarget).printed (show TargetField.active ≠ .id from nofun)
  | _ => simp [promotedTarget]

theorem promotedTarget_lineage : promotedTarget call preflight .processingLineage = .absent := by
  cases htarget : preflight.target with
  | none => simp [promotedTarget, htarget]
  | some t => simp [promotedTarget, htarget, (found.targetFound t htarget).lineage]

theorem promotedTarget_supports :
    sameSupportIdSet (promotedTarget call preflight .supportSemioteIds) preflight.supportIds =
      true := by
  have hids := plainIds found
  cases htarget : preflight.target with
  | none => simp [promotedTarget, htarget, sameSupportIdSet_texts hids]
  | some t =>
      obtain ⟨ids, hexisting, hsub⟩ := (found.targetFound t htarget).supports
      simp [promotedTarget, htarget, sameSupportIdSet_union hids hexisting hsub]

theorem source_normalize {s : NoemaPromotionMetadata}
    (h : after.semiotes call.sourceId = some s) :
    normalizePromotionSourceId (s (.snapshot .id)) = some call.sourceId := by
  rw [after.semiote_id call.sourceId s h, normalize_record, found.source.plain]

/-- The source would be stamped with the instant of the call, and was not before. -/
theorem not_committed {s : NoemaPromotionMetadata} (hs : after.semiotes call.sourceId = some s)
    (hupdatedAt : s (.snapshot .updatedAt) = preflight.source (.snapshot .updatedAt)) :
    noemaPromotionOutcome driver call preflight after ≠ .committed := by
  intro h
  obtain ⟨-, ⟨s', hs', hcommitted⟩, -⟩ := promotionOutcome_committed_iff.mp h
  obtain rfl := Option.some.inj (hs.symm.trans hs')
  obtain ⟨-, -, -, -, hstamped, hunstamped⟩ :=
    (sourceCommitted_iff (source_normalize found hs)).mp hcommitted
  rw [hupdatedAt, hunstamped] at hstamped
  cases hstamped

/-- **The rows of a transaction that has taken effect are read as such.** -/
theorem promotionTransaction_committed_iff :
    noemaPromotionOutcome driver call preflight (promotionTransaction call preflight rows) = .committed ↔
      ReadbackReady driver call preflight := by
  have hsource := transaction_source_found found
  have hnormalize := source_normalize found hsource
  rw [promotionOutcome_committed_iff]
  constructor
  · rintro ⟨⟨t, ht, htarget⟩, ⟨s, hs, hcommitted⟩, -⟩
    obtain rfl := Option.some.inj ht
    obtain rfl := Option.some.inj (hsource.symm.trans hs)
    obtain ⟨-, -, -, hstamped⟩ := (targetCommitted_iff rfl).mp htarget
    obtain ⟨howner, -, -, -, -, hupdatedAt⟩ := (sourceCommitted_iff hnormalize).mp hcommitted
    exact ⟨howner, hupdatedAt, hstamped⟩
  · intro ready
    have hlineage := (printed_wellFormed found.source.wellFormed).1
    refine ⟨⟨_, rfl, (targetCommitted_iff rfl).mpr ⟨promotedTarget_lineage found, fun c hc => ?_,
      promotedTarget_supports found, ready.target⟩⟩, ⟨_, hsource, (sourceCommitted_iff hnormalize).mpr
        ⟨ready.owner, hlineage, fun m hm => promotedMarker_same hm,
          sameSupportIdSet_texts (plainIds found), ?_, ready.source⟩⟩, transaction_stable found⟩
    · exact promotedTarget_same found hc
    · exact same_self (printed_date call.now)

/-- **And so are those from before it.** -/
theorem before_rolledBack_iff :
    noemaPromotionOutcome driver call preflight rows = .rolledBack ↔
      samePromotionMetadataValue driver (preflight.source (.snapshot .userId))
        (.str preflight.userId) = true := by
  have hsource := found.source.found
  have hnormalize := source_normalize found hsource
  obtain ⟨hlineage, hfields, hmarkers⟩ := printed_wellFormed found.source.wellFormed
  have hnot := not_committed found hsource rfl
  have htarget : targetRolledBack driver call preflight rows.target = true := by
    refine targetRolledBack_iff.mpr ?_
    rw [← found.target]
    cases ht : preflight.target with
    | none => exact .inl ⟨rfl, rfl⟩
    | some t =>
        exact .inr ⟨t, t, rfl, rfl, fun c hc => same_self ((found.targetFound t ht).printed hc)⟩
  rw [promotionOutcome_rolledBack_iff]
  constructor
  · rintro ⟨-, -, ⟨s, hs, hrolledBack⟩, -⟩
    obtain rfl := Option.some.inj (hsource.symm.trans hs)
    exact ((sourceRolledBack_iff hnormalize).mp hrolledBack).1
  · intro howner
    refine ⟨hnot, htarget, ⟨_, hsource, (sourceRolledBack_iff hnormalize).mpr ⟨howner, hlineage, ?_,
      fun m => same_self (hmarkers m)⟩⟩, before_stable found⟩
    exact same_self (hfields .updatedAt (by decide))

end

/-! ### What an outcome says -/

/-- The target and the source carry the values of the call. -/
structure CarriesCall (call : PromotionCall) (preflight : PromotionPreflight)
    (after : PromotionRows call.noemaId) : Prop where
  target : ∃ t, after.target = some t ∧
    (∀ c, c ≠ .supportSemioteIds → t c = promotedTarget call preflight c) ∧
    sameSupportIdSet (t .supportSemioteIds) preflight.supportIds = true
  source : ∃ s, after.semiotes call.sourceId = some s ∧
    (∀ m, m ≠ .noemaSupportSemioteIds → s (.marker m) = promotedMarker call preflight m) ∧
    sameSupportIdSet (s (.marker .noemaSupportSemioteIds)) preflight.supportIds = true ∧
    s (.snapshot .updatedAt) = .date call.now

/-- The target, the source and the supports are those of before. -/
structure AsBefore (call : PromotionCall) (preflight : PromotionPreflight)
    (rows after : PromotionRows call.noemaId) : Prop where
  target : after.target = rows.target
  semiotes : ∀ id ∈ preflight.supportIds, after.semiotes id = rows.semiotes id

/-- No outcome of the readback is wrong. -/
structure Truthful (driver : PromotionDriver) (call : PromotionCall) (preflight : PromotionPreflight)
    (rows after : PromotionRows call.noemaId) : Prop where
  committed : noemaPromotionOutcome driver call preflight after = .committed →
    CarriesCall call preflight after
  rolledBack : noemaPromotionOutcome driver call preflight after = .rolledBack →
    AsBefore call preflight rows after

/-- With no other writer, what the transaction has done is told. -/
structure ToldApart (driver : PromotionDriver) (call : PromotionCall)
    (preflight : PromotionPreflight) (rows : PromotionRows call.noemaId) : Prop where
  committed : noemaPromotionOutcome driver call preflight
    (promotionTransaction call preflight rows) = .committed
  rolledBack : noemaPromotionOutcome driver call preflight rows = .rolledBack

/-- A value is another than the one expected, and has its text. -/
def Conflated (driver : PromotionDriver) (actual expected : PromotionValue) : Prop :=
  samePromotionMetadataValue driver actual expected = true ∧ actual ≠ expected

/-- No column holds another value of the text it is compared with. -/
structure Unconflated (driver : PromotionDriver) (call : PromotionCall)
    (preflight : PromotionPreflight) (rows after : PromotionRows call.noemaId) : Prop where
  target : ∀ t, after.target = some t → ∀ c,
    ¬ Conflated driver (t c) (promotedTarget call preflight c) ∧
      ∀ before, preflight.target = some before → ¬ Conflated driver (t c) (before c)
  source : ∀ s, after.semiotes call.sourceId = some s →
    (∀ m, ¬ Conflated driver (s (.marker m)) (promotedMarker call preflight m)) ∧
      ¬ Conflated driver (s (.snapshot .updatedAt)) (.date call.now)
  semiotes : ∀ id ∈ preflight.supportIds, ∀ before row, rows.semiotes id = some before →
    after.semiotes id = some row → ∀ f, ¬ Conflated driver (row f) (before f)

theorem eq_of_same {actual expected : PromotionValue} (h : ¬ Conflated driver actual expected)
    (hsame : samePromotionMetadataValue driver actual expected = true) : actual = expected :=
  by_contra fun hne => h ⟨hsame, hne⟩

section
variable (found : PreflightFoundIn driver call rows preflight)
variable (plain : Unconflated driver call preflight rows after)
include found plain

/-- **What is told committed carries the values of the call.** -/
theorem carriesCall_of_committed
    (h : noemaPromotionOutcome driver call preflight after = .committed) :
    CarriesCall call preflight after := by
  obtain ⟨⟨t, ht, htarget⟩, ⟨s, hs, hsource⟩, -⟩ := promotionOutcome_committed_iff.mp h
  have hid := after.target_id t ht
  obtain ⟨hlineage, hsame, hsupports, -⟩ := (targetCommitted_iff hid).mp htarget
  obtain ⟨-, -, hmarkers, hsourceSupports, hupdatedAt, -⟩ :=
    (sourceCommitted_iff (source_normalize found hs)).mp hsource
  refine ⟨⟨t, ht, fun c hc => ?_, hsupports⟩, ⟨s, hs, fun m hm => ?_, hsourceSupports, ?_⟩⟩
  · by_cases hcId : c = .id
    · rw [hcId, hid]
      rfl
    · by_cases hcLineage : c = .processingLineage
      · rw [hcLineage, hlineage, promotedTarget_lineage found]
      · exact eq_of_same (plain.target t ht c).1 (hsame c ⟨hcId, hcLineage, hc⟩)
  · exact eq_of_same ((plain.source s hs).1 m) (hmarkers m hm)
  · exact eq_of_same (plain.source s hs).2 hupdatedAt

/-- **What is told rolled back is as before.** -/
theorem asBefore_of_rolledBack
    (h : noemaPromotionOutcome driver call preflight after = .rolledBack) :
    AsBefore call preflight rows after := by
  obtain ⟨-, htarget, ⟨s, hs, hsource⟩, hstable⟩ := promotionOutcome_rolledBack_iff.mp h
  obtain ⟨-, -, hupdatedAt, hmarkers⟩ := (sourceRolledBack_iff (source_normalize found hs)).mp hsource
  constructor
  · rw [← found.target]
    rcases targetRolledBack_iff.mp htarget with ⟨hbefore, hafter⟩ | ⟨existing, t, hbefore, hafter, hsame⟩
    · rw [hbefore, hafter]
    · rw [hbefore, hafter]
      congr 1
      funext c
      by_cases hc : c = .id
      · have hexisting := rows.target_id existing (found.target ▸ hbefore)
        rw [hc, after.target_id t hafter, hexisting]
      · exact eq_of_same ((plain.target t hafter c).2 existing hbefore) (hsame c hc)
  · intro id hid
    obtain ⟨before, -, hbefore⟩ := found.supports id hid
    obtain ⟨row, hrow, hmatch⟩ := (stable_iff found).mp hstable id hid before hbefore.found
    obtain ⟨-, hlineage, -, hfields, hrowMarkers⟩ := fieldsMatch_iff.mp hmatch
    have hplain := plain.semiotes id hid before row hbefore.found hrow
    rw [hbefore.found, hrow]
    congr 1
    funext f
    -- The readings of the source's own row stand in for the columns its support leaves out.
    have hsourceRow : id = call.sourceId → row = s ∧ before = preflight.source := by
      rintro rfl
      exact ⟨Option.some.inj (hrow.symm.trans hs),
        Option.some.inj (hbefore.found.symm.trans found.source.found)⟩
    cases f with
    | marker m =>
        refine eq_of_same (hplain (.marker m)) ?_
        by_cases hid' : id = call.sourceId
        · obtain ⟨rfl, rfl⟩ := hsourceRow hid'
          exact hmarkers m
        · exact hrowMarkers (by simp [hid']) m
    | snapshot g =>
        by_cases hgId : g = .id
        · rw [hgId, after.semiote_id id row hrow, rows.semiote_id id before hbefore.found]
        · by_cases hgLineage : g = .processingLineage
          · rw [hgLineage, hlineage, (printed_wellFormed hbefore.wellFormed).1]
          · refine eq_of_same (hplain (.snapshot g)) ?_
            rcases hfields g (mem_guardedPromotionFields.mpr ⟨hgId, hgLineage⟩) with
              ⟨hid', rfl⟩ | hsame
            · obtain ⟨rfl, rfl⟩ := hsourceRow (of_decide_eq_true hid')
              exact hupdatedAt
            · exact hsame

end

end Runir
