import Mathlib.Data.Finset.Dedup
import Mathlib.Data.Finset.Lattice.Basic
import Runir.Lib.TaggedJoin
import Runir.Policy.Lineage

/-!
# Policy — The algebra of lineages

A lineage in canonical form says two things: whose content it is (`identity`, six fields) and what
restricts it, a set.

* `view`: the two together; a canonical lineage is known by its view (`Canonical.ext`).
* `join_view`: the join of two lineages is the join of their views, a set union under one identity.
* `join_comm_verified`, `join_assoc`, `join_self`: the laws of a semilattice.
-/

namespace Runir

/-- The fields two lineages must share. -/
structure LineageIdentity where
  origin : ProcessingLineageOrigin
  processingPolicyVersion : ProcessingPolicyVersion
  producerPrincipalRef : String
  producerRegistrationRef : String
  admittedOperation : ProcessingLineageOperation
  targetUserId : String
  deriving DecidableEq

namespace ProcessingLineageV1

def identity (l : ProcessingLineageV1) : LineageIdentity :=
  { origin := l.origin
    processingPolicyVersion := l.processingPolicyVersion
    producerPrincipalRef := l.producerPrincipalRef
    producerRegistrationRef := l.producerRegistrationRef
    admittedOperation := l.admittedOperation
    targetUserId := l.targetUserId }

/-- The identity, and the set of the restrictions. -/
def view (l : ProcessingLineageV1) : LineageIdentity × Finset ProcessingLineageRestriction :=
  (l.identity, l.delivery.restrictions.toFinset)

/-- A lineage that some value is classified as. -/
def Verified (l : ProcessingLineageV1) : Prop :=
  ∃ v, classifyProcessingLineage v = .verified l

end ProcessingLineageV1

/-- The lineage of a join that succeeds. -/
def ProcessingLineageJoinResult.lineage? : ProcessingLineageJoinResult → Option ProcessingLineageV1
  | .joined l => some l
  | _ => none

/-! ### Canonical form -/

theorem ProcessingLineageV1.verified_iff {l : ProcessingLineageV1} : l.Verified ↔ l.Canonical := by
  constructor
  · rintro ⟨v, hv⟩
    exact canonical_of_classify hv
  · intro h
    exact ⟨some l.toValue, classify_toValue h⟩

theorem publishedOf_sublist (rs : List ProcessingLineageRestriction) :
    (publishedOf rs).Sublist processingLineageRestrictions :=
  List.filter_sublist

theorem nodup_publishedOf (rs : List ProcessingLineageRestriction) : (publishedOf rs).Nodup := by
  have hpublished : processingLineageRestrictions.Nodup := by decide
  exact hpublished.sublist (publishedOf_sublist rs)

theorem publishedOf_congr {rs rs' : List ProcessingLineageRestriction}
    (h : rs.toFinset = rs'.toFinset) : publishedOf rs = publishedOf rs' := by
  refine List.filter_congr fun r _ => decide_eq_decide.mpr ?_
  rw [← List.mem_toFinset, h, List.mem_toFinset]

/-- Canonical deliveries with the same restrictions are the same. -/
theorem ProcessingLineageDelivery.Canonical.ext {d d' : ProcessingLineageDelivery}
    (hd : d.Canonical) (hd' : d'.Canonical)
    (h : d.restrictions.toFinset = d'.restrictions.toFinset) : d = d' := by
  have hrestrictions : d.restrictions = d'.restrictions := by
    rw [← hd.restrictions, ← hd'.restrictions]
    exact publishedOf_congr h
  have hdisposition : d.disposition = d'.disposition := by
    have hiff : d.disposition = .localOnly ↔ d'.disposition = .localOnly := by
      rw [hd.disposition, hd'.disposition, hrestrictions]
    cases hd : d.disposition <;> cases hd' : d'.disposition <;> simp_all
  obtain ⟨version, disposition, restrictions⟩ := d
  obtain ⟨version', disposition', restrictions'⟩ := d'
  cases version
  cases version'
  cases hrestrictions
  cases hdisposition
  rfl

variable {l r : ProcessingLineageV1}

/-- **A canonical lineage is known by its view.** -/
theorem ProcessingLineageV1.Canonical.ext (hl : l.Canonical)
    (hr : r.Canonical) (h : l.view = r.view) : l = r := by
  have hdelivery := hl.delivery.ext hr.delivery (congrArg Prod.snd h)
  have hidentity : l.identity = r.identity := congrArg Prod.fst h
  obtain ⟨state, origin, principalRef, registrationRef, version, operation, userId, delivery⟩ := l
  obtain ⟨state', origin', principalRef', registrationRef', version', operation', userId',
    delivery'⟩ := r
  cases state
  cases state'
  cases hdelivery
  injection hidentity with h₁ h₂ h₃ h₄ h₅ h₆
  subst h₁ h₂ h₃ h₄ h₅ h₆
  rfl

/-- The same of lineages that may be missing. -/
theorem lineage?_ext {o o' : Option ProcessingLineageV1} (ho : ∀ l ∈ o, l.Canonical)
    (ho' : ∀ l ∈ o', l.Canonical) (h : o.map (·.view) = o'.map (·.view)) : o = o' := by
  cases o with
  | none =>
      cases o' with
      | none => rfl
      | some r => cases h
  | some l =>
      cases o' with
      | none => cases h
      | some r =>
          exact congrArg some ((ho l rfl).ext (ho' r rfl) (Option.some.inj h))

/-! ### The join -/

theorem joinMismatch_eq_none_iff :
    joinMismatch l r = none ↔ l.identity = r.identity := by
  rw [joinMismatch_eq_none]
  constructor
  · rintro ⟨hprincipal, hregistration, hoperation, htarget⟩
    have horigin : l.origin = r.origin := by cases l.origin; cases r.origin; rfl
    have hversion : l.processingPolicyVersion = r.processingPolicyVersion := by
      cases l.processingPolicyVersion; cases r.processingPolicyVersion; rfl
    unfold ProcessingLineageV1.identity
    rw [horigin, hversion, hprincipal, hregistration, hoperation, htarget]
  · intro h
    injection h with h₁ h₂ h₃ h₄ h₅ h₆
    exact ⟨h₃, h₄, h₅, h₆⟩

/-- The fields are compared both ways. -/
theorem joinMismatch_comm (l r : ProcessingLineageV1) : joinMismatch l r = joinMismatch r l := by
  unfold joinMismatch
  simp only [ne_comm (a := l.origin), ne_comm (a := l.processingPolicyVersion),
    ne_comm (a := l.producerPrincipalRef), ne_comm (a := l.producerRegistrationRef),
    ne_comm (a := l.admittedOperation), ne_comm (a := l.targetUserId)]

theorem ProcessingLineageV1.Canonical.withJoined {l : ProcessingLineageV1} (hl : l.Canonical)
    (d : ProcessingLineageDelivery) :
    ({ l with delivery := joinDelivery l.delivery d } : ProcessingLineageV1).Canonical :=
  ⟨hl.principalRef, hl.registrationRef, hl.targetUserId, canonical_joinDelivery _ _⟩

theorem lineage?_eq_some_iff {result : ProcessingLineageJoinResult} {j : ProcessingLineageV1} :
    result.lineage? = some j ↔ result = .joined j := by
  cases result <;> simp [ProcessingLineageJoinResult.lineage?]

/-- What a join of canonical lineages comes to is canonical. -/
theorem canonical_of_join {l r j : ProcessingLineageV1} (hl : l.Canonical)
    (h : conservativeJoinProcessingLineage (.verified l) (.verified r) = .joined j) :
    j.Canonical := by
  rw [join_verified hl] at h
  split at h
  · cases h
  · obtain rfl := ProcessingLineageJoinResult.joined.inj h
    exact hl.withJoined r.delivery

/-- **The join of lineages is the join of their views.** -/
theorem join_view (hl : l.Canonical) :
    (conservativeJoinProcessingLineage (.verified l) (.verified r)).lineage?.map (·.view) =
      tagJoin l.view r.view := by
  rw [join_verified hl]
  by_cases h : l.identity = r.identity
  · rw [joinMismatch_eq_none_iff.mpr h, tagJoin_of_eq h]
    refine congrArg some (Prod.ext rfl ?_)
    ext x
    simp only [ProcessingLineageV1.view, List.mem_toFinset, mem_joinDelivery, Finset.sup_eq_union,
      Finset.mem_union]
  · rw [tagJoin_of_ne h]
    cases hmismatch : joinMismatch l r with
    | none => exact absurd (joinMismatch_eq_none_iff.mp hmismatch) h
    | some reason => rfl

theorem joined_iff (hl : l.Canonical) :
    (∃ j, conservativeJoinProcessingLineage (.verified l) (.verified r) = .joined j) ↔
      l.identity = r.identity := by
  rw [join_verified hl, ← joinMismatch_eq_none_iff]
  cases joinMismatch l r <;> simp

theorem join_comm_verified (hl : l.Canonical) (hr : r.Canonical) :
    conservativeJoinProcessingLineage (.verified l) (.verified r) =
      conservativeJoinProcessingLineage (.verified r) (.verified l) := by
  have hview := tagJoin_comm l.view r.view
  rw [← join_view hl, ← join_view hr] at hview
  rw [join_verified hl, join_verified hr, joinMismatch_comm r l] at hview ⊢
  cases hmismatch : joinMismatch l r with
  | some reason => rfl
  | none =>
      rw [hmismatch] at hview
      exact congrArg _ ((hl.withJoined _).ext (hr.withJoined _) (Option.some.inj hview))

theorem join_self {l : ProcessingLineageV1} (hl : l.Canonical) :
    conservativeJoinProcessingLineage (.verified l) (.verified l) = .joined l := by
  obtain ⟨j, hj⟩ := (joined_iff hl).mpr (rfl : l.identity = l.identity)
  have hview := join_view (r := l) hl
  rw [hj, tagJoin_self] at hview
  rw [hj, (canonical_of_join hl hj).ext hl (Option.some.inj hview)]

/-- A join with the lineage of an earlier join, where that has one. -/
theorem join_assoc {a b c : ProcessingLineageV1} (ha : a.Canonical) (hb : b.Canonical) :
    ((conservativeJoinProcessingLineage (.verified a) (.verified b)).lineage?.bind fun j =>
        (conservativeJoinProcessingLineage (.verified j) (.verified c)).lineage?) =
      (conservativeJoinProcessingLineage (.verified b) (.verified c)).lineage?.bind fun j =>
        (conservativeJoinProcessingLineage (.verified a) (.verified j)).lineage? := by
  have hjoined : ∀ {l r j : ProcessingLineageV1}, l.Canonical →
      (conservativeJoinProcessingLineage (.verified l) (.verified r)).lineage? = some j →
      j.Canonical := by
    intro l r j hl h
    exact canonical_of_join hl (lineage?_eq_some_iff.mp h)
  refine lineage?_ext ?_ ?_ ?_
  · intro l hl
    obtain ⟨j, hj, hjc⟩ := Option.bind_eq_some_iff.mp hl
    exact hjoined (hjoined ha hj) hjc
  · intro l hl
    obtain ⟨j, -, haj⟩ := Option.bind_eq_some_iff.mp hl
    exact hjoined ha haj
  · rw [Option.map_bind, Option.map_bind]
    have hassoc := tagJoin_assoc a.view b.view c.view
    rw [← join_view ha, ← join_view hb, Option.bind_map, Option.bind_map] at hassoc
    calc _ = _ := Option.bind_congr fun j hj => join_view (hjoined ha hj)
      _ = _ := hassoc
      _ = _ := Option.bind_congr fun j _ => (join_view ha).symm

end Runir
