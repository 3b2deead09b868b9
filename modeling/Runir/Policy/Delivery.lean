import Runir.Policy.Consumer

/-!
# Policy — Delivery

`src/app/consumer-policy/delivery.ts`: whether a row may reach a consumer, and what a join of two
lineages does to that.

* `decideConsumerDelivery`: the decision on a persisted lineage.
* `join_delivers`: who may be handed the joined content may be handed each part, an ordinary part
  of local content apart, which takes the ordinary grant.
-/

namespace Runir

inductive ConsumerDeliveryWithholdReason where
  | consumerContextInvalid | targetUserMismatch | ordinaryNotGranted
  | localOnlyRequiresSameDevice | restrictionNotGranted | lineageInvalid
  deriving DecidableEq

structure DeliveryAllowance where
  disposition : ProcessingLineageDisposition
  registrationRef : String
  provider : ConsumerProvider
  client : ConsumerClient
  locality : ConsumerLocality
  deriving DecidableEq

/-- `ConsumerDeliveryDecision`. -/
inductive ConsumerDeliveryDecision where
  | allow (allowance : DeliveryAllowance)
  | withhold (reason : ConsumerDeliveryWithholdReason)
      (authorityReason : Option ConsumerAdmissionRefusalReason)
      (lineageReason : Option ProcessingLineageInvalidReason)
  | legacyGeneric
  deriving DecidableEq

/-- Why a grant does not cover a lineage. -/
def grantRefusal (grant : CurrentConsumerDeliveryGrant) (lineage : ProcessingLineageV1) :
    Option ConsumerDeliveryWithholdReason :=
  if grant.context.targetUserId ≠ lineage.targetUserId then some .targetUserMismatch
  else if lineage.delivery.disposition = .ordinary then
    if grant.allowOrdinary then none else some .ordinaryNotGranted
  else if grant.locality ≠ .sameDevice then some .localOnlyRequiresSameDevice
  else if lineage.delivery.restrictions.all fun r => r ∈ grant.allowedLocalOnlyRestrictions then none
  else some .restrictionNotGranted

section
variable (host : Host) (now : Int) (authorities : ConsumerAuthorities) (authority : Option Nat)
  (context : Option ContextObject)

def decideConsumerDelivery (persistedLineage : Option Value) : ConsumerDeliveryDecision :=
  match classifyProcessingLineage persistedLineage with
  | .legacyUnknown => .legacyGeneric
  | .invalid reason => .withhold .lineageInvalid none (some reason)
  | .verified lineage =>
      match getCurrentConsumerDeliveryGrant host now authorities authority context with
      | .error reason => .withhold .consumerContextInvalid (some reason) none
      | .ok grant =>
          match grantRefusal grant lineage with
          | some reason => .withhold reason none none
          | none =>
              .allow
                { disposition := lineage.delivery.disposition
                  registrationRef := grant.registrationRef
                  provider := grant.provider
                  client := grant.client
                  locality := grant.locality }

/-- The decision on a lineage is to allow it. -/
def Allows (lineage : ProcessingLineageV1) : Prop :=
  ∃ allowance,
    decideConsumerDelivery host now authorities authority context (some lineage.toValue) =
      .allow allowance

/-- The context's registration grants content of the ordinary disposition. -/
def GrantsOrdinary : Prop :=
  ∃ grant, getCurrentConsumerDeliveryGrant host now authorities authority context = .ok grant ∧
    grant.allowOrdinary = true

end

variable {host : Host} {now : Int} {authorities : ConsumerAuthorities} {authority : Option Nat}
  {context : Option ContextObject}

theorem decide_canonical {l : ProcessingLineageV1} (h : l.Canonical) :
    decideConsumerDelivery host now authorities authority context (some l.toValue) =
      match getCurrentConsumerDeliveryGrant host now authorities authority context with
      | .error reason => .withhold .consumerContextInvalid (some reason) none
      | .ok grant =>
          match grantRefusal grant l with
          | some reason => .withhold reason none none
          | none =>
              .allow ⟨l.delivery.disposition, grant.registrationRef, grant.provider, grant.client,
                grant.locality⟩ := by
  unfold decideConsumerDelivery
  rw [classify_toValue h]

/-- A lineage is allowed where the context has a grant that covers it. -/
theorem allows_iff {l : ProcessingLineageV1} (h : l.Canonical) :
    Allows host now authorities authority context l ↔
      ∃ grant, getCurrentConsumerDeliveryGrant host now authorities authority context = .ok grant ∧
        grantRefusal grant l = none := by
  unfold Allows
  rw [decide_canonical h]
  cases getCurrentConsumerDeliveryGrant host now authorities authority context with
  | error reason => simp
  | ok grant =>
      cases hrefusal : grantRefusal grant l with
      | none => simp [hrefusal]
      | some reason => simp [hrefusal]

/-! ### Parts of what is allowed -/

/-- A grant that covers a lineage covers one of the same user with fewer restrictions, unless that
one is ordinary, the other local, and ordinary content is not granted. -/
theorem grantRefusal_part {grant : CurrentConsumerDeliveryGrant} {c x : ProcessingLineageV1}
    (hc : c.delivery.Canonical) (hx : x.delivery.Canonical)
    (htarget : x.targetUserId = c.targetUserId)
    (hsub : ∀ r ∈ x.delivery.restrictions, r ∈ c.delivery.restrictions)
    (h : grantRefusal grant c = none) :
    grantRefusal grant x = none ∨
      x.delivery.disposition = .ordinary ∧ c.delivery.disposition = .localOnly ∧
        grant.allowOrdinary = false ∧ grantRefusal grant x = some .ordinaryNotGranted := by
  unfold grantRefusal at h ⊢
  rw [htarget]
  split at h
  · cases h
  next huser =>
  rw [if_neg huser]
  split at h
  · next hordinary =>
      -- the whole is ordinary, hence unrestricted, and so is the part
      have hnil : c.delivery.restrictions = [] := by
        by_contra hne
        rw [hc.disposition.mpr hne] at hordinary
        cases hordinary
      have hxordinary : x.delivery.disposition = .ordinary := by
        cases hd : x.delivery.disposition with
        | ordinary => rfl
        | localOnly =>
            obtain ⟨r, rs, hrs⟩ := List.exists_cons_of_ne_nil (hx.disposition.mp hd)
            have hr := hsub r (by rw [hrs]; exact List.mem_cons_self)
            rw [hnil] at hr
            cases hr
      rw [if_pos hxordinary]
      exact Or.inl h
  · next hlocal =>
      have hclocal : c.delivery.disposition = .localOnly := by
        cases hd : c.delivery.disposition with
        | ordinary => exact absurd hd hlocal
        | localOnly => rfl
      split at h
      · cases h
      next hdevice =>
      split at h
      · next hall =>
          by_cases hxordinary : x.delivery.disposition = .ordinary
          · rw [if_pos hxordinary]
            cases hgrant : grant.allowOrdinary with
            | true => exact Or.inl rfl
            | false => exact Or.inr ⟨hxordinary, hclocal, rfl, rfl⟩
          · have hxall : (x.delivery.restrictions.all fun r =>
                r ∈ grant.allowedLocalOnlyRestrictions) = true := by
              rw [List.all_eq_true] at hall ⊢
              exact fun r hr => hall r (hsub r hr)
            rw [if_neg hxordinary, if_neg hdevice, if_pos hxall]
            exact Or.inl rfl
      · cases h

/-- **The join never widens delivery**, ordinary content that is joined to local content and is
not granted by itself apart. -/
theorem join_delivers {va vb : Option Value} {a b c : ProcessingLineageV1}
    (ha : classifyProcessingLineage va = .verified a)
    (hb : classifyProcessingLineage vb = .verified b)
    (hc : conservativeJoinProcessingLineage (classifyProcessingLineage va)
      (classifyProcessingLineage vb) = .joined c)
    (hallow : Allows host now authorities authority context c) :
    ∀ x, x = a ∨ x = b →
      Allows host now authorities authority context x ∨
        x.delivery.disposition = .ordinary ∧ c.delivery.disposition = .localOnly ∧
          ¬GrantsOrdinary host now authorities authority context ∧
          decideConsumerDelivery host now authorities authority context (some x.toValue) =
            .withhold .ordinaryNotGranted none none := by
  have hcanonA := canonical_of_classify ha
  have hcanonB := canonical_of_classify hb
  rw [ha, hb, join_verified hcanonA] at hc
  split at hc
  · cases hc
  next hnone =>
  obtain rfl := ProcessingLineageJoinResult.joined.inj hc
  obtain ⟨-, -, -, huser⟩ := joinMismatch_eq_none.mp hnone
  have hcanonC : ({ a with delivery := joinDelivery a.delivery b.delivery } :
      ProcessingLineageV1).Canonical :=
    ⟨hcanonA.principalRef, hcanonA.registrationRef, hcanonA.targetUserId,
      canonical_joinDelivery _ _⟩
  obtain ⟨grant, hgrant, hcovers⟩ := (allows_iff hcanonC).mp hallow
  -- what holds of either part, once it is known to be one
  have hpart : ∀ x : ProcessingLineageV1, x.Canonical → x.targetUserId = a.targetUserId →
      (∀ r ∈ x.delivery.restrictions, r ∈ (joinDelivery a.delivery b.delivery).restrictions) →
      Allows host now authorities authority context x ∨
        x.delivery.disposition = .ordinary ∧
          (joinDelivery a.delivery b.delivery).disposition = .localOnly ∧
          ¬GrantsOrdinary host now authorities authority context ∧
          decideConsumerDelivery host now authorities authority context (some x.toValue) =
            .withhold .ordinaryNotGranted none none := by
    intro x hx htarget hsub
    rcases grantRefusal_part hcanonC.delivery hx.delivery htarget hsub hcovers with
      hnone | ⟨hordinary, hlocal, hno, hrefusal⟩
    · exact Or.inl ((allows_iff hx).mpr ⟨grant, hgrant, hnone⟩)
    · refine Or.inr ⟨hordinary, hlocal, ?_, ?_⟩
      · rintro ⟨grant', hgrant', hyes⟩
        obtain rfl := Except.ok.inj (hgrant.symm.trans hgrant')
        rw [hno] at hyes
        cases hyes
      · rw [decide_canonical hx, hgrant]
        simp only [hrefusal]
  rintro x (rfl | rfl)
  · exact hpart x hcanonA rfl fun r hr => mem_joinDelivery.mpr (Or.inl hr)
  · exact hpart x hcanonB huser.symm fun r hr => mem_joinDelivery.mpr (Or.inr hr)

/-! ### A consumer of local content only -/

section

/-- A registration of the owner's for content derived from audio, on the same device. -/
def audioRegistration (allowOrdinary : Bool) : ConsumerRegistration where
  registrationRef := "registration"
  principalRef := "consumer"
  provider := .localHermes
  client := .hermes
  locality := .sameDevice
  authorizedOperations := [.recall]
  authorizedTargetUsers := ["owner"]
  authorizedTiers := [.restricted]
  allowOrdinary := allowOrdinary
  allowedLocalOnlyRestrictions := [.audioDerived]

def audioAuthorities (allowOrdinary : Bool) : ConsumerAuthorities := fun _ =>
  { byPrincipal := .ofList [("consumer", audioRegistration allowOrdinary)]
    byRegistration := .ofList [("registration", audioRegistration allowOrdinary)] }

def audioContext : ConsumerDeliveryContext :=
  ⟨"consumer", "registration", .localHermes, .hermes, .sameDevice, .recall, "owner", .restricted⟩

def audioObject : ContextObject := ⟨audioContext, some ⟨0, audioContext⟩⟩

/-- A lineage of the owner's, ordinary or derived from audio. -/
def ownerLineage (restrictions : List ProcessingLineageRestriction) : ProcessingLineageV1 where
  state := .minniVerified
  origin := .minni
  producerPrincipalRef := "producer"
  producerRegistrationRef := "producer-registration"
  processingPolicyVersion := .minniLocalV1
  admittedOperation := .captureIngest
  targetUserId := "owner"
  delivery := joinDelivery ⟨.minniDeliveryV1, .ordinary, []⟩ ⟨.minniDeliveryV1, .ordinary, restrictions⟩

theorem canonical_ownerLineage (rs : List ProcessingLineageRestriction) :
    (ownerLineage rs).Canonical where
  principalRef := by
    change isReference "producer" = true
    decide
  registrationRef := by
    change isReference "producer-registration" = true
    decide
  targetUserId := by
    change isReference "owner" = true
    decide
  delivery := canonical_joinDelivery _ _

theorem classify_ownerLineage (rs : List ProcessingLineageRestriction) :
    classifyProcessingLineage (some (ownerLineage rs).toValue) = .verified (ownerLineage rs) :=
  classify_toValue (canonical_ownerLineage rs)

theorem join_ownerLineage :
    conservativeJoinProcessingLineage (classifyProcessingLineage (some (ownerLineage []).toValue))
      (classifyProcessingLineage (some (ownerLineage [.audioDerived]).toValue)) =
        .joined (ownerLineage [.audioDerived]) := by
  rw [classify_ownerLineage, classify_ownerLineage, join_verified (canonical_ownerLineage [])]
  rfl

theorem allows_ownerLineage (allowOrdinary : Bool) :
    Allows .ascii 0 (audioAuthorities allowOrdinary) (some 0) (some audioObject)
      (ownerLineage [.audioDerived]) := by
  refine (allows_iff (canonical_ownerLineage _)).mpr ⟨_, rfl, ?_⟩
  rfl

theorem join_delivers_audio :
    Allows .ascii 0 (audioAuthorities true) (some 0) (some audioObject) (ownerLineage []) := by
  have hparts := join_delivers (classify_ownerLineage []) (classify_ownerLineage [.audioDerived])
    join_ownerLineage (allows_ownerLineage true) (ownerLineage []) (Or.inl rfl)
  refine hparts.resolve_right ?_
  rintro ⟨-, -, hno, -⟩
  exact hno ⟨_, rfl, rfl⟩

/-- **The join can widen delivery.**  A consumer that is granted content derived from audio, and no
ordinary content, is handed ordinary content once it is joined to some of the former. -/
theorem join_widens :
    ¬∀ (host : Host) (now : Int) (authorities : ConsumerAuthorities) (authority : Option Nat)
        (context : Option ContextObject) (va vb : Option Value) (a b c : ProcessingLineageV1),
        classifyProcessingLineage va = .verified a → classifyProcessingLineage vb = .verified b →
        conservativeJoinProcessingLineage (classifyProcessingLineage va)
          (classifyProcessingLineage vb) = .joined c →
        Allows host now authorities authority context c →
        Allows host now authorities authority context a ∧
          Allows host now authorities authority context b := by
  intro hall
  obtain ⟨hordinary, -⟩ := hall .ascii 0 (audioAuthorities false) (some 0) (some audioObject) _ _ _ _
    _ (classify_ownerLineage []) (classify_ownerLineage [.audioDerived]) join_ownerLineage
    (allows_ownerLineage false)
  obtain ⟨grant, hgrant, hcovers⟩ := (allows_iff (canonical_ownerLineage [])).mp hordinary
  obtain rfl := Except.ok.inj hgrant
  cases hcovers

end

end Runir
