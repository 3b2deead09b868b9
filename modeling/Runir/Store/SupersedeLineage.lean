import Runir.Lib.Lists
import Runir.Policy.LineageAlgebra

/-!
# Store — The lineage of a protected supersede

`classifyAndJoinSupersedeLineage` of `src/storage/surreal/memory-crud-store.ts`: the incoming
lineage joined with what each of the rows of a protected supersede has stored.

* `joinStored_eq`: one step is refused or widens the restrictions; it never throws.
* `classifyAndJoin_perm`: the order of the stored values does not matter, for any incoming lineage.
* `processingLineage_semilattice`: canonical form, the join and the fold in one statement.
-/

namespace Runir

/-- What the fold may raise. -/
inductive SupersedeLineageError where
  /-- `ProducerPolicyRefusalError("lineage_invalid")`. -/
  | lineageInvalid
  /-- The `TypeError` of `serializeProcessingLineage`. -/
  | notVerified
  deriving DecidableEq

/-- One turn of the loop. -/
def joinStored (joined : ProcessingLineageV1) (storedValue : Option Value) :
    Except SupersedeLineageError ProcessingLineageV1 :=
  match conservativeJoinProcessingLineage (.verified joined)
      (classifyProcessingLineage storedValue) with
  | .joined lineage => .ok lineage
  | .refused _ => .error .lineageInvalid
  | .thrown => .error .notVerified

def classifyAndJoinSupersedeLineage (incomingLineage : ProcessingLineageV1)
    (storedValues : List (Option Value)) : Except SupersedeLineageError ProcessingLineageV1 :=
  storedValues.foldlM joinStored incomingLineage

/-! ### One step -/

/-- The delivery of the lineage a value is read as, where that has the given identity. -/
def storedDelivery (identity : LineageIdentity) (storedValue : Option Value) :
    Option ProcessingLineageDelivery :=
  match classifyProcessingLineage storedValue with
  | .verified l => if identity = l.identity then some l.delivery else none
  | _ => none

/-- **A step is refused or widens the restrictions.**  References the stored lineage shares are
references, so that the result can be serialized whatever the incoming lineage is. -/
theorem joinStored_eq (joined : ProcessingLineageV1) (storedValue : Option Value) :
    joinStored joined storedValue =
      match storedDelivery joined.identity storedValue with
      | some delivery => .ok { joined with delivery := joinDelivery joined.delivery delivery }
      | none => .error .lineageInvalid := by
  unfold joinStored storedDelivery
  cases hclass : classifyProcessingLineage storedValue with
  | legacyUnknown => rfl
  | invalid reason => rfl
  | verified l =>
      have hl : l.Canonical := canonical_of_classify hclass
      unfold conservativeJoinProcessingLineage
      by_cases hidentity : joined.identity = l.identity
      · have hsame := joinMismatch_eq_none.mp (joinMismatch_eq_none_iff.mpr hidentity)
        obtain ⟨hprincipal, hregistration, -, htarget⟩ := hsame
        have hcanonical : ({ joined with
            delivery := joinDelivery joined.delivery l.delivery } : ProcessingLineageV1).Canonical :=
          { principalRef := hprincipal ▸ hl.principalRef
            registrationRef := hregistration ▸ hl.registrationRef
            targetUserId := htarget ▸ hl.targetUserId
            delivery := canonical_joinDelivery _ _ }
        simp only [joinMismatch_eq_none_iff.mpr hidentity, serialize_eq hcanonical, hidentity,
          if_true]
      · cases hmismatch : joinMismatch joined l with
        | none => exact absurd (joinMismatch_eq_none_iff.mp hmismatch) hidentity
        | some reason => simp only [hmismatch, hidentity, if_false]

/-! ### The fold -/

theorem joinDelivery_right_comm (d d₁ d₂ : ProcessingLineageDelivery) :
    joinDelivery (joinDelivery d d₁) d₂ = joinDelivery (joinDelivery d d₂) d₁ := by
  refine (canonical_joinDelivery _ _).ext (canonical_joinDelivery _ _) ?_
  ext x
  simp only [List.mem_toFinset, mem_joinDelivery, or_right_comm]

theorem joinStored_comm (joined : ProcessingLineageV1) (v w : Option Value) :
    (joinStored joined v >>= fun j => joinStored j w) =
      joinStored joined w >>= fun j => joinStored j v := by
  have hkeeps : ∀ d, ({ joined with delivery := d } : ProcessingLineageV1).identity =
      joined.identity := fun _ => rfl
  cases hv : storedDelivery joined.identity v with
  | none =>
      cases hw : storedDelivery joined.identity w with
      | none => simp [joinStored_eq, hv, hw, bind, Except.bind]
      | some d₂ => simp [joinStored_eq, hkeeps, hv, hw, bind, Except.bind]
  | some d₁ =>
      cases hw : storedDelivery joined.identity w with
      | none => simp [joinStored_eq, hkeeps, hv, hw, bind, Except.bind]
      | some d₂ =>
          simp [joinStored_eq, hkeeps, hv, hw, bind, Except.bind, joinDelivery_right_comm]

theorem classifyAndJoin_perm (incoming : ProcessingLineageV1) {stored stored' : List (Option Value)}
    (h : stored.Perm stored') :
    classifyAndJoinSupersedeLineage incoming stored =
      classifyAndJoinSupersedeLineage incoming stored' :=
  foldlM_perm joinStored_comm h incoming

/-- **Lineages form a partial semilattice.**  An accepted value is canonical and is read back as
itself; two verified lineages have a join exactly when their identities agree, and it is the union
of their restrictions; the join is commutative, associative and idempotent, and folding it over
stored values does not depend on their order. -/
theorem processingLineage_semilattice :
    (∀ v l, classifyProcessingLineage v = .verified l →
      l.delivery.restrictions.Nodup ∧
        l.delivery.restrictions.Sublist processingLineageRestrictions ∧
        (l.delivery.disposition = .localOnly ↔ l.delivery.restrictions ≠ []) ∧
        classifyProcessingLineage (some l.toValue) = .verified l) ∧
    (∀ l r : ProcessingLineageV1, l.Verified → r.Verified →
      ((∃ j, conservativeJoinProcessingLineage (.verified l) (.verified r) = .joined j) ↔
        l.identity = r.identity) ∧
      (∀ j, conservativeJoinProcessingLineage (.verified l) (.verified r) = .joined j →
        j.Verified ∧ j.identity = l.identity ∧
          ∀ x, x ∈ j.delivery.restrictions ↔
            x ∈ l.delivery.restrictions ∨ x ∈ r.delivery.restrictions) ∧
      conservativeJoinProcessingLineage (.verified l) (.verified r) =
        conservativeJoinProcessingLineage (.verified r) (.verified l) ∧
      conservativeJoinProcessingLineage (.verified l) (.verified l) = .joined l) ∧
    (∀ a b c : ProcessingLineageV1, a.Verified → b.Verified → c.Verified →
      ((conservativeJoinProcessingLineage (.verified a) (.verified b)).lineage?.bind fun j =>
          (conservativeJoinProcessingLineage (.verified j) (.verified c)).lineage?) =
        (conservativeJoinProcessingLineage (.verified b) (.verified c)).lineage?.bind fun j =>
          (conservativeJoinProcessingLineage (.verified a) (.verified j)).lineage?) ∧
    (∀ incoming stored stored', stored.Perm stored' →
      classifyAndJoinSupersedeLineage incoming stored =
        classifyAndJoinSupersedeLineage incoming stored') := by
  refine ⟨?_, ?_, ?_, fun incoming _ _ h => classifyAndJoin_perm incoming h⟩
  · intro v l h
    have hl : l.Canonical := canonical_of_classify h
    have hpublished := hl.delivery.restrictions
    refine ⟨?_, ?_, hl.delivery.disposition, classify_toValue hl⟩
    · rw [← hpublished]
      exact nodup_publishedOf _
    · rw [← hpublished]
      exact publishedOf_sublist _
  · intro l r hl hr
    rw [ProcessingLineageV1.verified_iff] at hl hr
    refine ⟨joined_iff hl, ?_, join_comm_verified hl hr, join_self hl⟩
    intro j hj
    refine ⟨ProcessingLineageV1.verified_iff.mpr (canonical_of_join hl hj), ?_⟩
    rw [join_verified hl] at hj
    split at hj
    · cases hj
    · obtain rfl := ProcessingLineageJoinResult.joined.inj hj
      exact ⟨rfl, fun x => mem_joinDelivery⟩
  · intro a b c ha hb _
    exact join_assoc (ProcessingLineageV1.verified_iff.mp ha) (ProcessingLineageV1.verified_iff.mp hb)

end Runir
