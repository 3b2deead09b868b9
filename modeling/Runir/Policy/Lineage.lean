import Runir.Lib.Text
import Runir.Lib.Value

/-!
# Policy — Processing lineage

`src/domain/memory/processing-lineage.ts`: the provenance of content admitted from Minni, as it
is persisted with a row.

* `classifyProcessingLineage`: what an untrusted value is; a verified one is in canonical form.
* `serializeProcessingLineage`: the persisted shape of a verified value.
* `conservativeJoinProcessingLineage`: one lineage for content from two.
-/

namespace Runir

/-! ### The shape -/

/-- `state`, which has one value. -/
inductive ProcessingLineageState where
  | minniVerified
  deriving DecidableEq

/-- `origin`, which has one value. -/
inductive ProcessingLineageOrigin where
  | minni
  deriving DecidableEq

/-- `processing_policy_version`, which has one value. -/
inductive ProcessingPolicyVersion where
  | minniLocalV1
  deriving DecidableEq

/-- `delivery.version`, which has one value. -/
inductive ProcessingLineageVersion where
  | minniDeliveryV1
  deriving DecidableEq

inductive ProcessingLineageOperation where
  | captureIngest | scheduledMaintenance | forcedMaintenance
  deriving DecidableEq

inductive ProcessingLineageRestriction where
  | audioDerived | excludedSource | producerLocalOnly
  deriving DecidableEq

inductive ProcessingLineageDisposition where
  | ordinary | localOnly
  deriving DecidableEq

def ProcessingLineageState.text : ProcessingLineageState → String
  | .minniVerified => "minni_verified"

def ProcessingLineageOrigin.text : ProcessingLineageOrigin → String
  | .minni => "minni"

def ProcessingPolicyVersion.text : ProcessingPolicyVersion → String
  | .minniLocalV1 => "runir.minni.local/v1"

def ProcessingLineageVersion.text : ProcessingLineageVersion → String
  | .minniDeliveryV1 => "runir.minni.delivery/v1"

def ProcessingLineageOperation.text : ProcessingLineageOperation → String
  | .captureIngest => "capture_ingest"
  | .scheduledMaintenance => "scheduled_maintenance"
  | .forcedMaintenance => "forced_maintenance"

def ProcessingLineageRestriction.text : ProcessingLineageRestriction → String
  | .audioDerived => "audio_derived"
  | .excludedSource => "excluded_source"
  | .producerLocalOnly => "producer_local_only"

def ProcessingLineageDisposition.text : ProcessingLineageDisposition → String
  | .ordinary => "ordinary"
  | .localOnly => "local_only"

/-- `PROCESSING_LINEAGE_OPERATIONS`. -/
def processingLineageOperations : List ProcessingLineageOperation :=
  [.captureIngest, .scheduledMaintenance, .forcedMaintenance]

/-- `PROCESSING_LINEAGE_RESTRICTIONS`, in the published order. -/
def processingLineageRestrictions : List ProcessingLineageRestriction :=
  [.audioDerived, .excludedSource, .producerLocalOnly]

structure ProcessingLineageDelivery where
  version : ProcessingLineageVersion
  disposition : ProcessingLineageDisposition
  restrictions : List ProcessingLineageRestriction
  deriving DecidableEq

structure ProcessingLineageV1 where
  state : ProcessingLineageState
  origin : ProcessingLineageOrigin
  producerPrincipalRef : String
  producerRegistrationRef : String
  processingPolicyVersion : ProcessingPolicyVersion
  admittedOperation : ProcessingLineageOperation
  targetUserId : String
  delivery : ProcessingLineageDelivery
  deriving DecidableEq

inductive ProcessingLineageInvalidReason where
  | nullValue | rootShape | unknownRootField | state | origin | principalRef | registrationRef
  | policyVersion | operation | targetUserId | deliveryShape | deliveryVersion | disposition
  | restrictions | unknownRestriction | ordinaryRestrictions | localOnlyRestrictions
  deriving DecidableEq

inductive ClassifiedProcessingLineage where
  | verified (lineage : ProcessingLineageV1)
  | legacyUnknown
  | invalid (reason : ProcessingLineageInvalidReason)
  deriving DecidableEq

/-! ### The persisted value -/

def ProcessingLineageDelivery.toValue (d : ProcessingLineageDelivery) : Value :=
  .obj (.cons "version" (.str d.version.text)
    (.cons "disposition" (.str d.disposition.text)
    (.cons "restrictions" (.ofStrings (d.restrictions.map (·.text))) .nil)))

def ProcessingLineageV1.toValue (l : ProcessingLineageV1) : Value :=
  .obj (.cons "state" (.str l.state.text) (.cons "origin" (.str l.origin.text)
    (.cons "producer_principal_ref" (.str l.producerPrincipalRef)
    (.cons "producer_registration_ref" (.str l.producerRegistrationRef)
    (.cons "processing_policy_version" (.str l.processingPolicyVersion.text)
    (.cons "admitted_operation" (.str l.admittedOperation.text)
    (.cons "target_user_id" (.str l.targetUserId) (.cons "delivery" l.delivery.toValue .nil))))))))

/-! ### Classifying -/

def rootKeys : List String :=
  ["admitted_operation", "delivery", "origin", "processing_policy_version",
    "producer_principal_ref", "producer_registration_ref", "state", "target_user_id"]

def deliveryKeys : List String := ["disposition", "restrictions", "version"]

def maxReferenceLength : Nat := 256

/-- The properties are these and no others. -/
def exactStringKeys (fs : Fields) (expected : List String) : Bool :=
  fs.keys.length = expected.length && expected.all fun k => k ∈ fs.keys

/-- A string a reference may be. -/
def isReference (s : String) : Bool :=
  0 < Text.length s && Text.length s ≤ maxReferenceLength && Text.trim s = s

/-- `boundedNonEmptyString`: the string, where the value is one. -/
def boundedNonEmptyString (v : Option Value) : Option String :=
  (v.bind Value.str?).filter isReference

def operationOf (v : Option Value) : Option ProcessingLineageOperation :=
  (v.bind Value.str?).bind fun s => processingLineageOperations.find? fun o => o.text = s

def dispositionOf (v : Option Value) : Option ProcessingLineageDisposition :=
  (v.bind Value.str?).bind fun s =>
    [ProcessingLineageDisposition.ordinary, .localOnly].find? fun d => d.text = s

/-- One item of the restrictions; a long string is refused before it is compared. -/
def restrictionOf (v : Value) : Option ProcessingLineageRestriction :=
  (v.str?.filter fun s => Text.length s ≤ 64).bind fun s =>
    processingLineageRestrictions.find? fun r => r.text = s

/-- The published restrictions that occur in a list. -/
def publishedOf (rs : List ProcessingLineageRestriction) : List ProcessingLineageRestriction :=
  processingLineageRestrictions.filter fun r => r ∈ rs

def classifyRestrictions (v : Option Value) :
    Except ProcessingLineageInvalidReason (List ProcessingLineageRestriction) :=
  match v with
  | some (.arr xs) =>
      match xs.toList.mapM restrictionOf with
      | none => .error .unknownRestriction
      | some rs => .ok (publishedOf rs)
  | _ => .error .restrictions

def classifyDelivery (v : Option Value) :
    Except ProcessingLineageInvalidReason ProcessingLineageDelivery :=
  match v with
  | some (.obj fs) =>
      if !exactStringKeys fs deliveryKeys then .error .deliveryShape
      else if fs.get? "version" ≠ some (.str ProcessingLineageVersion.minniDeliveryV1.text) then
        .error .deliveryVersion
      else
        match dispositionOf (fs.get? "disposition") with
        | none => .error .disposition
        | some disposition =>
            match classifyRestrictions (fs.get? "restrictions") with
            | .error reason => .error reason
            | .ok restrictions =>
                if disposition = .ordinary ∧ restrictions ≠ [] then .error .ordinaryRestrictions
                else if disposition = .localOnly ∧ restrictions = [] then
                  .error .localOnlyRestrictions
                else .ok ⟨.minniDeliveryV1, disposition, restrictions⟩
  | _ => .error .deliveryShape

def classifyRoot (fs : Fields) : Except ProcessingLineageInvalidReason ProcessingLineageV1 :=
  if !exactStringKeys fs rootKeys then .error .unknownRootField
  else if fs.get? "state" ≠ some (.str ProcessingLineageState.minniVerified.text) then .error .state
  else if fs.get? "origin" ≠ some (.str ProcessingLineageOrigin.minni.text) then .error .origin
  else
    match boundedNonEmptyString (fs.get? "producer_principal_ref") with
    | none => .error .principalRef
    | some principalRef =>
        match boundedNonEmptyString (fs.get? "producer_registration_ref") with
        | none => .error .registrationRef
        | some registrationRef =>
            if fs.get? "processing_policy_version" ≠
                some (.str ProcessingPolicyVersion.minniLocalV1.text) then .error .policyVersion
            else
              match operationOf (fs.get? "admitted_operation") with
              | none => .error .operation
              | some operation =>
                  match boundedNonEmptyString (fs.get? "target_user_id") with
                  | none => .error .targetUserId
                  | some targetUserId =>
                      match classifyDelivery (fs.get? "delivery") with
                      | .error reason => .error reason
                      | .ok delivery =>
                          .ok ⟨.minniVerified, .minni, principalRef, registrationRef,
                            .minniLocalV1, operation, targetUserId, delivery⟩

def classifyProcessingLineage (value : Option Value) : ClassifiedProcessingLineage :=
  match value with
  | none => .legacyUnknown
  | some .null => .invalid .nullValue
  | some (.obj fs) =>
      match classifyRoot fs with
      | .error reason => .invalid reason
      | .ok lineage => .verified lineage
  | some _ => .invalid .rootShape

/-- The value a call may store; a `TypeError` where it is not a verified one. -/
def serializeProcessingLineage (value : ProcessingLineageV1) : Option ProcessingLineageV1 :=
  match classifyProcessingLineage (some value.toValue) with
  | .verified lineage => some lineage
  | _ => none

/-! ### The join -/

inductive ProcessingLineageJoinFailure where
  | legacyUnknown | invalid | originMismatch | policyVersionMismatch | principalMismatch
  | registrationMismatch | operationMismatch | targetUserMismatch
  deriving DecidableEq

/-- What a join comes to; `thrown` is the `TypeError` of `serializeProcessingLineage`. -/
inductive ProcessingLineageJoinResult where
  | joined (lineage : ProcessingLineageV1)
  | refused (reason : ProcessingLineageJoinFailure)
  | thrown
  deriving DecidableEq

/-- The first of the six fields in which two lineages differ. -/
def joinMismatch (l r : ProcessingLineageV1) : Option ProcessingLineageJoinFailure :=
  if l.origin ≠ r.origin then some .originMismatch
  else if l.processingPolicyVersion ≠ r.processingPolicyVersion then some .policyVersionMismatch
  else if l.producerPrincipalRef ≠ r.producerPrincipalRef then some .principalMismatch
  else if l.producerRegistrationRef ≠ r.producerRegistrationRef then some .registrationMismatch
  else if l.admittedOperation ≠ r.admittedOperation then some .operationMismatch
  else if l.targetUserId ≠ r.targetUserId then some .targetUserMismatch
  else none

/-- The delivery of joined content: every restriction of either side. -/
def joinDelivery (l r : ProcessingLineageDelivery) : ProcessingLineageDelivery :=
  let restrictions := processingLineageRestrictions.filter fun restriction =>
    restriction ∈ l.restrictions || restriction ∈ r.restrictions
  { version := .minniDeliveryV1
    disposition := if 0 < restrictions.length then .localOnly else .ordinary
    restrictions := restrictions }

def conservativeJoinProcessingLineage (left right : ClassifiedProcessingLineage) :
    ProcessingLineageJoinResult :=
  match left, right with
  | .legacyUnknown, _ | _, .legacyUnknown => .refused .legacyUnknown
  | .invalid _, _ | _, .invalid _ => .refused .invalid
  | .verified l, .verified r =>
      match joinMismatch l r with
      | some reason => .refused reason
      | none =>
          match serializeProcessingLineage { l with delivery := joinDelivery l.delivery r.delivery } with
          | none => .thrown
          | some lineage => .joined lineage

/-! ### Canonical form -/

/-- The restrictions are distinct and in the published order; a delivery is local only where it has
some. -/
structure ProcessingLineageDelivery.Canonical (d : ProcessingLineageDelivery) : Prop where
  restrictions : publishedOf d.restrictions = d.restrictions
  disposition : d.disposition = .localOnly ↔ d.restrictions ≠ []

/-- What a verified value is sure to be. -/
structure ProcessingLineageV1.Canonical (l : ProcessingLineageV1) : Prop where
  principalRef : isReference l.producerPrincipalRef = true
  registrationRef : isReference l.producerRegistrationRef = true
  targetUserId : isReference l.targetUserId = true
  delivery : l.delivery.Canonical

theorem mem_publishedOf {rs : List ProcessingLineageRestriction} {r : ProcessingLineageRestriction} :
    r ∈ publishedOf rs ↔ r ∈ rs := by
  have hall : r ∈ processingLineageRestrictions := by cases r <;> decide
  simp [publishedOf, hall]

theorem publishedOf_idem (rs : List ProcessingLineageRestriction) :
    publishedOf (publishedOf rs) = publishedOf rs := by
  refine List.filter_congr fun r _ => ?_
  exact decide_eq_decide.mpr mem_publishedOf

variable {v : Option Value}

theorem boundedNonEmptyString_eq {s : String}
    (h : boundedNonEmptyString v = some s) : isReference s = true := by
  obtain ⟨-, href⟩ := Option.filter_eq_some_iff.mp h
  exact href

variable {d : ProcessingLineageDelivery}

theorem canonical_of_classifyDelivery (h : classifyDelivery v = .ok d) : d.Canonical := by
  unfold classifyDelivery at h
  split at h
  · next fs =>
      split at h
      · cases h
      · split at h
        · cases h
        · split at h
          · cases h
          · next disposition hdisposition =>
              split at h
              · cases h
              · next restrictions hrestrictions =>
                  split at h
                  · cases h
                  next hordinary =>
                  split at h
                  · cases h
                  next hlocal =>
                  obtain rfl := Except.ok.inj h
                  refine ⟨?_, ?_⟩
                  · unfold classifyRestrictions at hrestrictions
                    split at hrestrictions
                    · split at hrestrictions
                      · cases hrestrictions
                      · obtain rfl := Except.ok.inj hrestrictions
                        exact publishedOf_idem _
                    · cases hrestrictions
                  · cases disposition with
                    | ordinary => simpa using hordinary
                    | localOnly => simpa using hlocal
  · cases h

variable {l : ProcessingLineageV1}

/-- **What is accepted is canonical.** -/
theorem canonical_of_classify (h : classifyProcessingLineage v = .verified l) : l.Canonical := by
  unfold classifyProcessingLineage at h
  split at h
  · cases h
  · cases h
  · next fs =>
      split at h
      · cases h
      · next lineage hroot =>
          obtain rfl := ClassifiedProcessingLineage.verified.inj h
          unfold classifyRoot at hroot
          split at hroot
          · cases hroot
          split at hroot
          · cases hroot
          split at hroot
          · cases hroot
          split at hroot
          · cases hroot
          next principalRef hprincipal =>
          split at hroot
          · cases hroot
          next registrationRef hregistration =>
          split at hroot
          · cases hroot
          split at hroot
          · cases hroot
          next operation hoperation =>
          split at hroot
          · cases hroot
          next targetUserId htarget =>
          split at hroot
          · cases hroot
          next delivery hdelivery =>
          obtain rfl := Except.ok.inj hroot
          exact ⟨boundedNonEmptyString_eq hprincipal, boundedNonEmptyString_eq hregistration,
            boundedNonEmptyString_eq htarget, canonical_of_classifyDelivery hdelivery⟩
  · cases h

/-! ### The persisted value is read back -/

theorem operationOf_text (o : ProcessingLineageOperation) :
    operationOf (some (.str o.text)) = some o := by
  cases o <;> rfl

theorem dispositionOf_text (d : ProcessingLineageDisposition) :
    dispositionOf (some (.str d.text)) = some d := by
  cases d <;> rfl

theorem restrictionOf_text (r : ProcessingLineageRestriction) :
    restrictionOf (.str r.text) = some r := by
  cases r <;> rfl

theorem classifyRestrictions_ofStrings (rs : List ProcessingLineageRestriction) :
    classifyRestrictions (some (.ofStrings (rs.map (·.text)))) = .ok (publishedOf rs) := by
  have hparse : ((rs.map (·.text)).map Value.str).mapM restrictionOf = some rs := by
    induction rs with
    | nil => rfl
    | cons r rs ih =>
        rw [List.map_cons, List.map_cons, List.mapM_cons, restrictionOf_text, ih]
        rfl
  unfold classifyRestrictions Value.ofStrings
  simp only [Values.toList_ofList, hparse]

theorem classifyDelivery_toValue (h : d.Canonical) :
    classifyDelivery (some d.toValue) = .ok d := by
  obtain ⟨version, disposition, restrictions⟩ := d
  have hrest : publishedOf restrictions = restrictions := h.restrictions
  have hdisp : disposition = .localOnly ↔ restrictions ≠ [] := h.disposition
  have hkeys : exactStringKeys (.cons "version" (.str version.text)
      (.cons "disposition" (.str disposition.text)
      (.cons "restrictions" (.ofStrings (restrictions.map (·.text))) .nil))) deliveryKeys = true :=
    rfl
  have hordinary : ¬(disposition = .ordinary ∧ restrictions ≠ []) := by
    rintro ⟨rfl, hne⟩
    cases hdisp.mpr hne
  have hlocal : ¬(disposition = .localOnly ∧ restrictions = []) := by
    rintro ⟨hd, hnil⟩
    exact hdisp.mp hd hnil
  cases version
  unfold classifyDelivery ProcessingLineageDelivery.toValue
  simp only [hkeys, Fields.get?]
  simp [dispositionOf_text, classifyRestrictions_ofStrings, hrest, hordinary, hlocal]

/-- **A canonical lineage is read back** from the value it is persisted as. -/
theorem classify_toValue (h : l.Canonical) :
    classifyProcessingLineage (some l.toValue) = .verified l := by
  obtain ⟨state, origin, principalRef, registrationRef, version, operation, userId, delivery⟩ := l
  have href : ∀ {s : String}, isReference s = true →
      boundedNonEmptyString (some (.str s)) = some s := by
    intro s hs
    simp [boundedNonEmptyString, Value.str?, Option.filter, hs]
  have hprincipal := href h.principalRef
  have hregistration := href h.registrationRef
  have htarget := href h.targetUserId
  have hdelivery := classifyDelivery_toValue h.delivery
  simp only at hprincipal hregistration htarget hdelivery
  cases state
  cases origin
  cases version
  unfold classifyProcessingLineage ProcessingLineageV1.toValue classifyRoot
  simp [exactStringKeys, Fields.keys, rootKeys, Fields.get?, hprincipal, hregistration, htarget,
    hdelivery, operationOf_text]

theorem serialize_eq (h : l.Canonical) :
    serializeProcessingLineage l = some l := by
  unfold serializeProcessingLineage
  rw [classify_toValue h]

/-! ### What a join is -/

theorem mem_joinDelivery {l r : ProcessingLineageDelivery} {x : ProcessingLineageRestriction} :
    x ∈ (joinDelivery l r).restrictions ↔ x ∈ l.restrictions ∨ x ∈ r.restrictions := by
  have hall : x ∈ processingLineageRestrictions := by cases x <;> decide
  simp [joinDelivery, hall]

theorem canonical_joinDelivery (l r : ProcessingLineageDelivery) : (joinDelivery l r).Canonical := by
  constructor
  · have hunion : publishedOf (joinDelivery l r).restrictions =
        processingLineageRestrictions.filter fun x =>
          x ∈ l.restrictions || x ∈ r.restrictions := by
      refine List.filter_congr fun x _ => ?_
      rw [decide_eq_decide.mpr mem_joinDelivery, Bool.decide_or]
    exact hunion
  · unfold joinDelivery
    simp only
    split
    · next hpos => exact iff_of_true rfl (List.ne_nil_of_length_pos hpos)
    · next hzero =>
        refine iff_of_false (fun h => by cases h) ?_
        simpa using hzero

theorem joinMismatch_eq_none {l r : ProcessingLineageV1} :
    joinMismatch l r = none ↔
      l.producerPrincipalRef = r.producerPrincipalRef ∧
        l.producerRegistrationRef = r.producerRegistrationRef ∧
          l.admittedOperation = r.admittedOperation ∧ l.targetUserId = r.targetUserId := by
  have horigin : l.origin = r.origin := by cases l.origin; cases r.origin; rfl
  have hversion : l.processingPolicyVersion = r.processingPolicyVersion := by
    cases l.processingPolicyVersion; cases r.processingPolicyVersion; rfl
  unfold joinMismatch
  rw [if_neg (not_not.mpr horigin), if_neg (not_not.mpr hversion)]
  constructor
  · intro h
    split at h
    · cases h
    next hprincipal =>
    split at h
    · cases h
    next hregistration =>
    split at h
    · cases h
    next hoperation =>
    split at h
    · cases h
    next htarget =>
    exact ⟨not_not.mp hprincipal, not_not.mp hregistration, not_not.mp hoperation,
      not_not.mp htarget⟩
  · rintro ⟨hprincipal, hregistration, hoperation, htarget⟩
    rw [if_neg (not_not.mpr hprincipal), if_neg (not_not.mpr hregistration),
      if_neg (not_not.mpr hoperation), if_neg (not_not.mpr htarget)]

/-- **The join of two canonical lineages**: it is refused where they differ, and otherwise carries
every restriction of either. -/
theorem join_verified {l r : ProcessingLineageV1} (hl : l.Canonical) :
    conservativeJoinProcessingLineage (.verified l) (.verified r) =
      match joinMismatch l r with
      | some reason => .refused reason
      | none => .joined { l with delivery := joinDelivery l.delivery r.delivery } := by
  unfold conservativeJoinProcessingLineage
  simp only
  split
  · rfl
  · have hcanonical :
        ({ l with delivery := joinDelivery l.delivery r.delivery } : ProcessingLineageV1).Canonical :=
      ⟨hl.principalRef, hl.registrationRef, hl.targetUserId, canonical_joinDelivery _ _⟩
    rw [serialize_eq hcanonical]

end Runir
