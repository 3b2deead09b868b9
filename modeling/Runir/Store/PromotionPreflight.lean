import Runir.Lib.Distinct
import Runir.Lib.Lines
import Runir.Store.PromotionReadback

/-!
# Store — Promotion preflight

What a preflight of a promotion has found of the rows.

* `sameSupportIdSet_of_mem_iff`, `sameSupportIdSet_union`: supports as sets of ids.
* `PreflightFoundIn`, `foundIn_of_preflight`: the source, the target and the supports of a
  preflight, each with what has been checked of it.
-/

namespace Runir

variable {driver : PromotionDriver} {call : PromotionCall} {rows : PromotionRows call.noemaId}
variable {preflight : PromotionPreflight}

/-! ### Ids -/

@[simp] theorem normalize_str (s : String) :
    normalizePromotionSourceId (.str s) = normalizeIdText s := by
  simp [normalizePromotionSourceId, PromotionValue.str?]

@[simp] theorem normalize_record (id : String) :
    normalizePromotionSourceId (.record id) = normalizeIdText id := by
  simp [normalizePromotionSourceId, PromotionValue.str?, PromotionValue.id?]

theorem stripTable_noema (s : String) : stripTable ("noema:" ++ s) = s := by
  have hlist : ("noema:" ++ s).toList = ['n', 'o', 'e', 'm', 'a', ':'] ++ s.toList := by
    rw [String.toList_append]
    rfl
  simp [stripTable, hlist]

theorem normalize_noemaRecordId (call : PromotionCall) :
    normalizeIdText call.noemaRecordId = normalizeIdText call.noemaId := by
  have hplain := call.noemaId_plain
  have hstripped : Text.trim (stripTable call.noemaId) = call.noemaId := by
    unfold normalizeIdText at hplain
    simp only at hplain
    split at hplain
    · cases hplain
    · exact Option.some.inj hplain
  have htrim : Text.trim call.noemaId = Text.trim (stripTable call.noemaId) :=
    calc Text.trim call.noemaId
        = Text.trim (Text.trim (stripTable call.noemaId)) := by rw [hstripped]
      _ = Text.trim (stripTable call.noemaId) := trim_trim _
  unfold normalizeIdText PromotionCall.noemaRecordId
  rw [stripTable_noema, htrim]

/-! ### Sets of supports -/

/-- Ids that are normalized already. -/
def PlainIds (ids : List String) : Prop := ∀ id ∈ ids, normalizeIdText id = some id

variable {ids : List String}

theorem exists_of_normalizeSupportIds {v : PromotionValue}
    (h : normalizePromotionSupportIds v = some ids) :
    ∃ texts, (v.arr?.getD []).mapM normalizePromotionSourceId = some texts ∧ ids = distinct texts := by
  unfold normalizePromotionSupportIds at h
  split at h
  · next habsent =>
      subst habsent
      exact ⟨[], rfl, (Option.some.inj h).symm⟩
  · obtain ⟨xs, hxs, h⟩ := Option.bind_eq_some_iff.mp h
    obtain ⟨texts, htexts, h⟩ := Option.map_eq_some_iff.mp h
    exact ⟨texts, by rw [hxs, Option.getD_some, htexts], h.symm⟩

theorem normalizeSupportIds_arr {xs : List PromotionValue} {texts : List String}
    (h : xs.mapM normalizePromotionSourceId = some texts) :
    normalizePromotionSupportIds (.arr (.ofList xs)) = some (distinct texts) := by
  simp [normalizePromotionSupportIds, PromotionValue.arr?, h]

theorem mapM_texts (h : PlainIds ids) :
    (ids.map PromotionValue.str).mapM normalizePromotionSourceId = some ids := by
  induction ids with
  | nil => rfl
  | cons id ids ih =>
      have hrest := ih fun i hi => h i (List.mem_cons_of_mem id hi)
      rw [List.map_cons, List.mapM_cons, hrest, normalize_str, h id List.mem_cons_self]
      rfl

/-- **Supports are the same where their ids are, in any order and form.** -/
theorem sameSupportIdSet_of_mem_iff {xs : List PromotionValue} {texts ids : List String}
    (hids : PlainIds ids) (htexts : xs.mapM normalizePromotionSourceId = some texts)
    (hmem : ∀ id, id ∈ texts ↔ id ∈ ids) : sameSupportIdSet (.arr (.ofList xs)) ids = true := by
  have hleft := normalizeSupportIds_arr htexts
  have hright : normalizePromotionSupportIds (.ofTexts ids) = some (distinct ids) :=
    normalizeSupportIds_arr (mapM_texts hids)
  have hperm : (distinct texts).Perm (distinct ids) := by
    refine (List.perm_ext_iff_of_nodup (nodup_distinct _) (nodup_distinct _)).mpr fun id => ?_
    rw [mem_distinct, mem_distinct, hmem]
  simp only [sameSupportIdSet, PromotionValue.arr?, Option.isSome_some, Bool.true_and, hleft, hright,
    Option.any_some, hperm.length_eq, decide_true, List.all_eq_true, List.contains_eq_mem,
    decide_eq_true_eq]
  exact fun id hid => hperm.mem_iff.mp hid

theorem sameSupportIdSet_texts (hids : PlainIds ids) :
    sameSupportIdSet (.ofTexts ids) ids = true :=
  sameSupportIdSet_of_mem_iff hids (mapM_texts hids) fun _ => Iff.rfl

theorem sameSupportIdSet_union {existing : PromotionValue} {ids targetIds : List String}
    (hids : PlainIds ids) (hexisting : normalizePromotionSupportIds existing = some targetIds)
    (hsub : ∀ id ∈ targetIds, id ∈ ids) : sameSupportIdSet (unionTexts existing ids) ids = true := by
  obtain ⟨raw, hraw, rfl⟩ := exists_of_normalizeSupportIds hexisting
  have hsome : ∀ x ∈ distinct (existing.arr?.getD [] ++ ids.map .str),
      (normalizePromotionSourceId x).isSome := by
    intro x hx
    rcases List.mem_append.mp (mem_distinct.mp hx) with hx | hx
    · obtain ⟨id, -, hid⟩ := exists_of_forall₂ (forall₂_of_mapM hraw) hx
      rw [hid]
      rfl
    · obtain ⟨id, hid, rfl⟩ := List.mem_map.mp hx
      rw [normalize_str, hids id hid]
      rfl
  obtain ⟨texts, htexts⟩ := exists_mapM hsome
  refine sameSupportIdSet_of_mem_iff hids htexts fun id => ?_
  rw [mem_mapM_iff htexts]
  constructor
  · rintro ⟨x, hx, hxid⟩
    rcases List.mem_append.mp (mem_distinct.mp hx) with hx | hx
    · exact hsub id (mem_distinct.mpr ((mem_mapM_iff hraw).mpr ⟨x, hx, hxid⟩))
    · obtain ⟨id', hid', rfl⟩ := List.mem_map.mp hx
      rw [normalize_str, hids id' hid'] at hxid
      exact Option.some.inj hxid ▸ hid'
  · intro hid
    refine ⟨.str id, mem_distinct.mpr (List.mem_append_right _ (List.mem_map_of_mem hid)), ?_⟩
    rw [normalize_str, hids id hid]

/-! ### What a preflight finds -/

/-- A row that supports a noema. -/
structure SupportFound (driver : PromotionDriver) (rows : PromotionRows call.noemaId)
    (userId id : String) (row : NoemaPromotionMetadata) : Prop where
  found : rows.semiotes id = some row
  plain : normalizeIdText id = some id
  wellFormed : isWellFormedPromotionMetadata driver row = true
  owner : promotionOwnerUserId driver row = some userId

theorem supportFound_of_eq_some {userId id : String} {row : NoemaPromotionMetadata}
    (h : promotionSupport driver userId rows id = some row) :
    SupportFound driver rows userId id row := by
  obtain ⟨hfound, hchecks⟩ := Option.filter_eq_some_iff.mp h
  simp only [Bool.and_eq_true, decide_eq_true_eq, rows.semiote_id id row hfound, normalize_record]
    at hchecks
  exact ⟨hfound, hchecks.1.1, hchecks.1.2, hchecks.2⟩

/-- A target that may be reinforced. -/
structure TargetFound (driver : PromotionDriver) (preflight : PromotionPreflight)
    (target : NoemaPromotionTargetMetadata) : Prop where
  lineage : target .processingLineage = .absent
  wellFormed : isWellFormedNoemaPromotionTarget driver target = true
  owner : samePromotionMetadataValue driver (target .userId) (.str preflight.userId) = true
  supports : ∃ ids, normalizePromotionSupportIds (target .supportSemioteIds) = some ids ∧
    ∀ id ∈ ids, id ∈ preflight.supportIds

/-- What a preflight has found of the rows. -/
structure PreflightFoundIn (driver : PromotionDriver) (call : PromotionCall)
    (rows : PromotionRows call.noemaId) (preflight : PromotionPreflight) : Prop where
  target : preflight.target = rows.target
  targetFound : ∀ target, preflight.target = some target → TargetFound driver preflight target
  sourceId_mem : call.sourceId ∈ preflight.supportIds
  source : SupportFound driver rows preflight.userId call.sourceId preflight.source
  supports : ∀ id ∈ preflight.supportIds, ∃ row ∈ preflight.supports,
    SupportFound driver rows preflight.userId id row
  supported : ∀ row ∈ preflight.supports, ∃ id ∈ preflight.supportIds,
    SupportFound driver rows preflight.userId id row

theorem foundIn_of_preflight (h : promotionPreflight driver call rows = some preflight) :
    PreflightFoundIn driver call rows preflight := by
  obtain ⟨source, hsource, h⟩ := Option.bind_eq_some_iff.mp h
  obtain ⟨userId, howner, h⟩ := Option.bind_eq_some_iff.mp h
  obtain ⟨targetIds, htarget, h⟩ := Option.bind_eq_some_iff.mp h
  obtain ⟨supports, hsupports, h⟩ := Option.bind_eq_some_iff.mp h
  cases h
  have hfound : ∀ id row, promotionSupport driver userId rows id = some row →
      SupportFound driver rows userId id row := fun _ _ => supportFound_of_eq_some
  obtain ⟨hrow, hwell⟩ := Option.filter_eq_some_iff.mp hsource
  have hsourceId : call.sourceId ∈ distinct (targetIds ++ distinct (call.sourceId ::
      (normalizePromotionSupportIds (source (.marker .noemaSupportSemioteIds))).getD [])) :=
    mem_distinct.mpr (List.mem_append_right _ (mem_distinct.mpr List.mem_cons_self))
  have hsupported {id : String} (hid : id ∈ distinct (targetIds ++ distinct (call.sourceId ::
      (normalizePromotionSupportIds (source (.marker .noemaSupportSemioteIds))).getD []))) :
      ∃ row ∈ supports, promotionSupport driver userId rows id = some row :=
    exists_of_forall₂ (forall₂_of_mapM hsupports) hid
  obtain ⟨row, -, hrowSource⟩ := hsupported hsourceId
  have hsourceFound := hfound _ _ hrowSource
  refine
    { target := rfl
      targetFound := fun target hsome => ?_
      sourceId_mem := hsourceId
      source := ⟨hrow, hsourceFound.plain, hwell, howner⟩
      supports := fun id hid => ?_
      supported := fun row hmem => ?_ }
  · simp only at hsome
    rw [hsome] at htarget
    simp only [promotionTargetSupport] at htarget
    split at htarget
    · next hchecks =>
        refine ⟨hchecks.1, hchecks.2.1, hchecks.2.2, targetIds, htarget, fun id hid => ?_⟩
        exact mem_distinct.mpr (List.mem_append_left _ hid)
    · cases htarget
  · obtain ⟨row, hmem, hsome⟩ := hsupported hid
    exact ⟨row, hmem, hfound id row hsome⟩
  · obtain ⟨id, hid, hsome⟩ := (mem_mapM_iff hsupports).mp hmem
    exact ⟨id, hid, hfound id row hsome⟩

end Runir
