import Runir.Store.PromotionOutcome

/-!
# Store — Promotion reliable

When the readback of a promotion is true.

* `OneConflated`: the rows of one of the two outcomes, one column of which holds another value of
  the same text.
* `promotionReadback_reliable`: no outcome is wrong where no column does, each is where one does,
  and both are told apart exactly if the source's own column holds the owner, and no row is stamped
  with the instant of the call.
* `padded_owner_unresolved`: an owner with a blank in front.
-/

namespace Runir

variable {driver : PromotionDriver} {call : PromotionCall} {rows : PromotionRows call.noemaId}
variable {preflight : PromotionPreflight}

/-! ### Another value in a column -/

variable {t : NoemaPromotionTargetMetadata} {row : NoemaPromotionMetadata}

section
variable {noemaId : String}

/-- The rows, but for a column of the target. -/
def PromotionRows.putTarget (rows : PromotionRows noemaId) (c : TargetField) (v : PromotionValue)
    (hc : c ≠ .id) : PromotionRows noemaId where
  target := rows.target.map fun t => Function.update t c v
  semiotes := rows.semiotes
  target_id row h := by
    obtain ⟨t, ht, rfl⟩ := Option.map_eq_some_iff.mp h
    rw [Function.update_of_ne hc.symm]
    exact rows.target_id t ht
  semiote_id := rows.semiote_id

/-- The rows, but for a column of one of the memories. -/
def PromotionRows.putSemiote (rows : PromotionRows noemaId) (id : String) (f : PromotionField)
    (v : PromotionValue) (hf : f ≠ .snapshot .id) : PromotionRows noemaId where
  target := rows.target
  semiotes := Function.update rows.semiotes id
    ((rows.semiotes id).map fun row => Function.update row f v)
  target_id := rows.target_id
  semiote_id id' row h := by
    by_cases hid : id' = id
    · subst hid
      rw [Function.update_self] at h
      obtain ⟨row', hrow, rfl⟩ := Option.map_eq_some_iff.mp h
      rw [Function.update_of_ne hf.symm]
      exact rows.semiote_id id' row' hrow
    · rw [Function.update_of_ne hid] at h
      exact rows.semiote_id id' row h

theorem putTarget_target {rows : PromotionRows noemaId}
    (ht : rows.target = some t) (c : TargetField) (v : PromotionValue) (hc : c ≠ .id) :
    (rows.putTarget c v hc).target = some (Function.update t c v) :=
  congrArg (Option.map fun t : NoemaPromotionTargetMetadata => Function.update t c v) ht

theorem putSemiote_self {rows : PromotionRows noemaId} {id : String}
    (hrow : rows.semiotes id = some row) (f : PromotionField) (v : PromotionValue)
    (hf : f ≠ .snapshot .id) :
    (rows.putSemiote id f v hf).semiotes id = some (Function.update row f v) :=
  (Function.update_self _ _ _).trans (congrArg (Option.map fun row => Function.update row f v) hrow)

theorem putSemiote_other {rows : PromotionRows noemaId} {id id' : String} (h : id' ≠ id)
    (f : PromotionField) (v : PromotionValue) (hf : f ≠ .snapshot .id) :
    (rows.putSemiote id f v hf).semiotes id' = rows.semiotes id' :=
  Function.update_of_ne h _ _

end

/-- The columns a promotion sets of its source, and compares by their texts. -/
def PromotionField.Promoted (f : PromotionField) : Prop :=
  f = .snapshot .updatedAt ∨ ∃ m, m ≠ .noemaSupportSemioteIds ∧ f = .marker m

/-- The columns of a support that are compared by their texts alone. -/
def PromotionField.Compared (f : PromotionField) : Prop :=
  f ≠ .snapshot .id ∧ f ≠ .snapshot .userId ∧ f ≠ .snapshot .payloadUserId ∧
    f ≠ .snapshot .processingLineage ∧ f ≠ .snapshot .updatedAt

variable {f : PromotionField}

theorem PromotionField.Promoted.ne (h : f.Promoted) {g : SnapshotField}
    (hg : g ≠ .updatedAt) : f ≠ .snapshot g := by
  rintro rfl
  rcases h with h | ⟨m, -, h⟩
  · exact hg (PromotionField.snapshot.inj h)
  · cases h

/-- The rows of one of the two outcomes, with another value of the same text in a column. -/
inductive OneConflated (driver : PromotionDriver) (call : PromotionCall)
    (preflight : PromotionPreflight) (rows : PromotionRows call.noemaId) :
    PromotionRows call.noemaId → Prop where
  | committedTarget {c : TargetField} {v : PromotionValue} (hc : c.Compared)
      (hv : Conflated driver v (promotedTarget call preflight c)) :
      OneConflated driver call preflight rows
        ((promotionTransaction call preflight rows).putTarget c v hc.1)
  | committedSource {f : PromotionField} {v : PromotionValue} (hf : f.Promoted)
      (hv : Conflated driver v (promotedSource call preflight preflight.source f)) :
      OneConflated driver call preflight rows
        ((promotionTransaction call preflight rows).putSemiote call.sourceId f v (hf.ne (by decide)))
  | foundTarget {t : NoemaPromotionTargetMetadata} {c : TargetField} {v : PromotionValue}
      (ht : rows.target = some t) (hc : c ≠ .id) (hv : Conflated driver v (t c)) :
      OneConflated driver call preflight rows (rows.putTarget c v hc)
  | foundSemiote {id : String} {row : NoemaPromotionMetadata} {f : PromotionField}
      {v : PromotionValue} (hid : id ∈ preflight.supportIds) (hrow : rows.semiotes id = some row)
      (hf : f.Compared) (hv : Conflated driver v (row f)) :
      OneConflated driver call preflight rows (rows.putSemiote id f v hf.1)

theorem promotionOwnerUserId_congr {left right : NoemaPromotionMetadata}
    (hroot : left (.snapshot .userId) = right (.snapshot .userId))
    (hpayload : left (.snapshot .payloadUserId) = right (.snapshot .payloadUserId)) :
    promotionOwnerUserId driver left = promotionOwnerUserId driver right := by
  simp only [promotionOwnerUserId, hroot, hpayload]

variable {v : PromotionValue}

/-- A column that holds the value expected, or one of its text, has its text. -/
theorem same_update {κ : Type} [DecidableEq κ] {row expected : κ → PromotionValue} {c d : κ}
    (hv : samePromotionMetadataValue driver v (expected c) = true)
    (hrow : samePromotionMetadataValue driver (row d) (expected d) = true) :
    samePromotionMetadataValue driver (Function.update row c v d) (expected d) = true := by
  by_cases hd : d = c
  · subst hd
    rwa [Function.update_self]
  · rwa [Function.update_of_ne hd]

section
variable (found : PreflightFoundIn driver call rows preflight)
variable (ready : ReadbackReady driver call preflight)
include found ready

/-- **Another value of the text of a column the transaction has set is told committed.** -/
theorem committedTarget_misread {c : TargetField} (hc : c.Compared)
    (hv : Conflated driver v (promotedTarget call preflight c)) :
    ¬ Truthful driver call preflight rows
      ((promotionTransaction call preflight rows).putTarget c v hc.1) := by
  intro truthful
  obtain ⟨-, hsource, hstable⟩ :=
    promotionOutcome_committed_iff.mp ((promotionTransaction_committed_iff found).mpr ready)
  have htarget : ((promotionTransaction call preflight rows).putTarget c v hc.1).target =
      some (Function.update (promotedTarget call preflight) c v) := rfl
  have hcommitted := truthful.committed (promotionOutcome_committed_iff.mpr
    ⟨⟨_, htarget, (targetCommitted_iff (Function.update_of_ne hc.1.symm _ _)).mpr
      ⟨?_, fun d hd => same_update hv.1 (promotedTarget_same found hd), ?_, ready.target⟩⟩,
      hsource, hstable⟩)
  · obtain ⟨t, ht, hcarries, -⟩ := hcommitted.target
    obtain rfl := Option.some.inj (htarget.symm.trans ht)
    have hcolumn := hcarries c hc.2.2
    rw [Function.update_self] at hcolumn
    exact hv.2 hcolumn
  · rw [Function.update_of_ne hc.2.1.symm, promotedTarget_lineage found]
  · rw [Function.update_of_ne hc.2.2.symm, promotedTarget_supports found]

theorem committedSource_misread (hf : f.Promoted)
    (hv : Conflated driver v (promotedSource call preflight preflight.source f)) :
    ¬ Truthful driver call preflight rows
      ((promotionTransaction call preflight rows).putSemiote call.sourceId f v
        (hf.ne (by decide))) := by
  intro truthful
  have hcommittedSource := transaction_source_found found
  obtain ⟨htarget, ⟨s, hs, hsource⟩, hstable⟩ :=
    promotionOutcome_committed_iff.mp ((promotionTransaction_committed_iff found).mpr ready)
  obtain rfl := Option.some.inj (hcommittedSource.symm.trans hs)
  obtain ⟨howner, hlineage, hmarkers, hsupports, hupdatedAt, -⟩ :=
    (sourceCommitted_iff (source_normalize found hcommittedSource)).mp hsource
  have hput := putSemiote_self hcommittedSource f v (hf.ne (by decide))
  have hkept : ∀ g : SnapshotField, g ≠ .updatedAt →
      Function.update (promotedSource call preflight preflight.source) f v (.snapshot g) =
        promotedSource call preflight preflight.source (.snapshot g) :=
    fun g hg => Function.update_of_ne (hf.ne hg).symm _ _
  have hsupportsKept : f ≠ .marker .noemaSupportSemioteIds := by
    rintro rfl
    rcases hf with hf | ⟨m, hm, hf⟩
    · cases hf
    · exact hm (PromotionField.marker.inj hf).symm
  have hcommitted := truthful.committed (promotionOutcome_committed_iff.mpr ⟨htarget, ⟨_, hput,
    (sourceCommitted_iff (source_normalize found hput)).mpr ⟨?_, ?_, fun m hm => ?_, ?_, ?_,
      ready.source⟩⟩, (stable_iff found).mpr fun id hid before hbefore => ?_⟩)
  · obtain ⟨s, hs, hcarries, -, hupdatedAt⟩ := hcommitted.source
    obtain rfl := Option.some.inj (hput.symm.trans hs)
    rcases hf with rfl | ⟨m, hm, rfl⟩
    · rw [Function.update_self] at hupdatedAt
      exact hv.2 hupdatedAt
    · have hcolumn := hcarries m hm
      rw [Function.update_self] at hcolumn
      exact hv.2 hcolumn
  · rw [hkept .userId (by decide)]
    exact howner
  · rw [hkept .processingLineage (by decide)]
    exact hlineage
  · exact same_update hv.1 (hmarkers m hm)
  · rw [Function.update_of_ne hsupportsKept.symm]
    exact hsupports
  · exact same_update hv.1 hupdatedAt
  · obtain ⟨row, hrow, hmatch⟩ := (stable_iff found).mp hstable id hid before hbefore
    by_cases hsourceId : id = call.sourceId
    · subst hsourceId
      obtain rfl := Option.some.inj (hcommittedSource.symm.trans hrow)
      refine ⟨_, hput, ?_⟩
      rw [decide_eq_true rfl] at hmatch ⊢
      obtain ⟨hid, hlineage, hownerKept, hfields, -⟩ := fieldsMatch_iff.mp hmatch
      refine fieldsMatch_iff.mpr ⟨?_, ?_, ?_, fun g hg => ?_, fun h => (by cases h)⟩
      · rw [hkept .id (by decide)]
        exact hid
      · rw [hkept .processingLineage (by decide)]
        exact hlineage
      · rw [hownerKept]
        exact promotionOwnerUserId_congr (hkept .userId (by decide)).symm
          (hkept .payloadUserId (by decide)).symm
      · rcases hfields g hg with hignored | hsame
        · exact .inl hignored
        · by_cases hgUpdatedAt : g = .updatedAt
          · exact .inl ⟨rfl, hgUpdatedAt⟩
          · rw [hkept g hgUpdatedAt]
            exact .inr hsame
    · refine ⟨row, ?_, hmatch⟩
      rw [putSemiote_other hsourceId, hrow]

theorem foundTarget_misread {c : TargetField}
    (ht : rows.target = some t) (hc : c ≠ .id) (hv : Conflated driver v (t c)) :
    ¬ Truthful driver call preflight rows (rows.putTarget c v hc) := by
  intro truthful
  obtain ⟨-, -, hsource, hstable⟩ :=
    promotionOutcome_rolledBack_iff.mp ((before_rolledBack_iff found).mpr ready.owner)
  have hput := putTarget_target ht c v hc
  have htarget : preflight.target = some t := found.target.trans ht
  have hrolledBack := truthful.rolledBack (promotionOutcome_rolledBack_iff.mpr
    ⟨not_committed found found.source.found rfl,
      targetRolledBack_iff.mpr (.inr ⟨t, _, htarget, hput, fun d hd => ?_⟩), hsource, hstable⟩)
  · have hcolumn := hrolledBack.target
    rw [hput, ht] at hcolumn
    have hsame := congrFun (Option.some.inj hcolumn) c
    rw [Function.update_self] at hsame
    exact hv.2 hsame
  · exact same_update hv.1 (same_self ((found.targetFound t htarget).printed hd))

theorem foundSemiote_misread {id : String}
    (hid : id ∈ preflight.supportIds) (hrow : rows.semiotes id = some row)
    (hf : f.Compared) (hv : Conflated driver v (row f)) :
    ¬ Truthful driver call preflight rows (rows.putSemiote id f v hf.1) := by
  intro truthful
  obtain ⟨-, htarget, ⟨s, hs, hsource⟩, hstable⟩ :=
    promotionOutcome_rolledBack_iff.mp ((before_rolledBack_iff found).mpr ready.owner)
  obtain rfl := Option.some.inj (found.source.found.symm.trans hs)
  obtain ⟨hfId, hfUserId, hfPayloadUserId, hfLineage, hfUpdatedAt⟩ := hf
  have hput := putSemiote_self hrow f v hfId
  -- The source, which may be the memory of the column.
  obtain ⟨s, hsource, hupdatedAt, hrolledBack⟩ : ∃ s,
      (rows.putSemiote id f v hfId).semiotes call.sourceId = some s ∧
        s (.snapshot .updatedAt) = preflight.source (.snapshot .updatedAt) ∧
        sourceRolledBack driver call preflight s = true := by
    by_cases hsourceId : id = call.sourceId
    · subst hsourceId
      obtain rfl := Option.some.inj (found.source.found.symm.trans hrow)
      obtain ⟨howner, hlineage, hupdatedAt, hmarkers⟩ :=
        (sourceRolledBack_iff (source_normalize found hrow)).mp hsource
      refine ⟨_, hput, Function.update_of_ne hfUpdatedAt.symm _ _,
        (sourceRolledBack_iff (source_normalize found hput)).mpr ⟨?_, ?_, ?_, fun m => ?_⟩⟩
      · rw [Function.update_of_ne hfUserId.symm]
        exact howner
      · rw [Function.update_of_ne hfLineage.symm]
        exact hlineage
      · rw [Function.update_of_ne hfUpdatedAt.symm]
        exact hupdatedAt
      · exact same_update hv.1 (hmarkers m)
    · refine ⟨_, ?_, rfl, hsource⟩
      rw [putSemiote_other (Ne.symm hsourceId)]
      exact hs
  have hasBefore := truthful.rolledBack (promotionOutcome_rolledBack_iff.mpr
    ⟨not_committed found hsource hupdatedAt, htarget, ⟨s, hsource, hrolledBack⟩,
      (stable_iff found).mpr fun id' hid' before hbefore => ?_⟩)
  · have hcolumn := hasBefore.semiotes id hid
    rw [hput, hrow] at hcolumn
    have hsame := congrFun (Option.some.inj hcolumn) f
    rw [Function.update_self] at hsame
    exact hv.2 hsame
  · obtain ⟨row', hrow', hmatch⟩ := (stable_iff found).mp hstable id' hid' before hbefore
    obtain rfl := Option.some.inj (hbefore.symm.trans hrow')
    by_cases hsame : id' = id
    · subst hsame
      obtain rfl := Option.some.inj (hrow.symm.trans hbefore)
      obtain ⟨hidMatch, hlineage, -, hfields, hmarkers⟩ := fieldsMatch_iff.mp hmatch
      refine ⟨_, hput, fieldsMatch_iff.mpr ⟨?_, ?_, ?_, fun g hg => ?_, fun h m => ?_⟩⟩
      · rw [Function.update_of_ne hfId.symm]
      · rw [Function.update_of_ne hfLineage.symm]
        exact hlineage
      · exact promotionOwnerUserId_congr (Function.update_of_ne hfUserId.symm _ _).symm
          (Function.update_of_ne hfPayloadUserId.symm _ _).symm
      · exact (hfields g hg).imp_right fun hsame => same_update hv.1 hsame
      · exact same_update hv.1 (hmarkers h m)
    · refine ⟨before, ?_, hmatch⟩
      rw [putSemiote_other hsame, hbefore]

end

/-! ### The readback -/

/-- **A readback is never wrong unless a column holds another value of the text it is compared
with**, in which case it is, and tells both outcomes apart exactly if the source's own column holds
the owner, and no row is stamped with the instant of the call. -/
theorem promotionReadback_reliable (h : promotionPreflight driver call rows = some preflight) :
    (ToldApart driver call preflight rows ↔ ReadbackReady driver call preflight) ∧
      (∀ after, Unconflated driver call preflight rows after →
        Truthful driver call preflight rows after) ∧
      (ReadbackReady driver call preflight → ∀ after, OneConflated driver call preflight rows after →
        ¬ Truthful driver call preflight rows after) := by
  have found := foundIn_of_preflight h
  refine ⟨⟨fun told => ?_, fun ready => ?_⟩, fun after plain => ?_, fun ready after conflated => ?_⟩
  · exact (promotionTransaction_committed_iff found).mp told.committed
  · exact ⟨(promotionTransaction_committed_iff found).mpr ready,
      (before_rolledBack_iff found).mpr ready.owner⟩
  · exact ⟨carriesCall_of_committed found plain, asBefore_of_rolledBack found plain⟩
  · cases conflated with
    | committedTarget hc hv => exact committedTarget_misread found ready hc hv
    | committedSource hf hv => exact committedSource_misread found ready hf hv
    | foundTarget ht hc hv => exact foundTarget_misread found ready ht hc hv
    | foundSemiote hid hrow hf hv => exact foundSemiote_misread found ready hid hrow hf hv

/-! ### A promotion without a target -/

def secondsDriver : PromotionDriver where
  numberText q := toString q
  dateText ns := "1970-01-01T00:00:0" ++ toString (ns / 1000000000) ++ ".000000000Z"
  recordText id := "semiote:" ++ id

def firstPromotion : PromotionCall where
  sourceId := "s1"
  noemaId := "0123456789abcdef01234567"
  claimKey := "k"
  revisionHash := "h"
  status := "active"
  subject := "user"
  predicate := "prefers"
  value := "tea"
  now := 1000000000
  noemaId_plain := by decide +kernel

/-- A memory that holds its owner in the columns given. -/
def ownedSource (userId payloadUserId : PromotionValue) : NoemaPromotionMetadata
  | .snapshot .id => .record "s1"
  | .snapshot .userId => userId
  | .snapshot .payloadUserId => payloadUserId
  | _ => .absent

def ownedRows (userId payloadUserId : PromotionValue) : PromotionRows firstPromotion.noemaId where
  target := none
  semiotes id := if id = "s1" then some (ownedSource userId payloadUserId) else none
  target_id row h := by cases h
  semiote_id id row h := by
    split at h
    · next hid =>
        cases h
        rw [hid]
        rfl
    · cases h

theorem promotionReadback_reliable_owned : ∃ preflight,
    promotionPreflight secondsDriver firstPromotion (ownedRows (.str "u") .absent) = some preflight ∧
      ToldApart secondsDriver firstPromotion preflight (ownedRows (.str "u") .absent) := by
  have hchecked : (promotionPreflight secondsDriver firstPromotion
      (ownedRows (.str "u") .absent)).any (fun p =>
        samePromotionMetadataValue secondsDriver (p.source (.snapshot .userId)) (.str p.userId) &&
          !samePromotionMetadataValue secondsDriver (p.source (.snapshot .updatedAt))
            (.date firstPromotion.now) && p.target.isNone) = true := by
    decide +kernel
  obtain ⟨preflight, hpreflight, hready⟩ := Option.any_eq_true _ _ |>.mp hchecked
  simp only [Bool.and_eq_true, Bool.not_eq_true', Option.isNone_iff_eq_none] at hready
  obtain ⟨⟨howner, hsource⟩, htarget⟩ := hready
  refine ⟨preflight, hpreflight, (promotionReadback_reliable hpreflight).1.mpr
    ⟨howner, hsource, fun t ht => ?_⟩⟩
  rw [htarget] at ht
  cases ht

/-- **An owner is trimmed, and its column is not**: neither outcome is told of a memory whose owner
is stored with a blank in front. -/
theorem padded_owner_unresolved : ∃ preflight,
    promotionPreflight secondsDriver firstPromotion (ownedRows (.str " u") (.str " u")) =
        some preflight ∧
      noemaPromotionOutcome secondsDriver firstPromotion preflight
          (promotionTransaction firstPromotion preflight (ownedRows (.str " u") (.str " u"))) =
        .inconsistentOrUnresolved ∧
      noemaPromotionOutcome secondsDriver firstPromotion preflight
          (ownedRows (.str " u") (.str " u")) =
        .inconsistentOrUnresolved := by
  have hchecked : (promotionPreflight secondsDriver firstPromotion
      (ownedRows (.str " u") (.str " u"))).any (fun p => decide
        (noemaPromotionOutcome secondsDriver firstPromotion p
            (promotionTransaction firstPromotion p (ownedRows (.str " u") (.str " u"))) =
          .inconsistentOrUnresolved ∧
        noemaPromotionOutcome secondsDriver firstPromotion p (ownedRows (.str " u") (.str " u")) =
          .inconsistentOrUnresolved)) = true := by
    decide +kernel
  obtain ⟨preflight, hpreflight, houtcomes⟩ := Option.any_eq_true _ _ |>.mp hchecked
  exact ⟨preflight, hpreflight, of_decide_eq_true houtcomes⟩

end Runir
