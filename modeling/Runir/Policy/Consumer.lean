import Runir.Lib.Host
import Runir.Lib.OrdMap
import Runir.Policy.Lineage

/-!
# Policy — Consumers

`src/app/consumer-policy/authority.ts`: who may be handed content admitted from Minni.

* `ConsumerAuthorityState`: the registrations an authority holds, by principal and by reference,
  and which of them are revoked.
* `ContextObject`: a delivery context, with what it was bound to when it was built.
* `getCurrentConsumerDeliveryGrant`: what a context is granted now.

An authority and a context are known by identity: an authority names its state, and a context
that was not built here has no binding.
-/

namespace Runir

inductive ConsumerOperation where
  | recall | summaryDelivery
  deriving DecidableEq

inductive ConsumerProvider where
  | openai | anthropic | xai | localHermes | cloudHermes
  deriving DecidableEq

inductive ConsumerClient where
  | codex | claude | grok | pi | hermes
  deriving DecidableEq

inductive ConsumerLocality where
  | sameDevice | cloud
  deriving DecidableEq

inductive ConsumerTier where
  | ordinary | restricted
  deriving DecidableEq

inductive RegistrationStatus where
  | active | revoked
  deriving DecidableEq

structure ConsumerRegistration where
  registrationRef : String
  principalRef : String
  provider : ConsumerProvider
  client : ConsumerClient
  locality : ConsumerLocality
  authorizedOperations : List ConsumerOperation
  authorizedTargetUsers : List String
  authorizedTiers : List ConsumerTier
  allowOrdinary : Bool
  allowedLocalOnlyRestrictions : List ProcessingLineageRestriction
  status : RegistrationStatus := .active
  expiresAt : Option String := none
  deriving DecidableEq

structure ConsumerDeliveryContext where
  principalRef : String
  registrationRef : String
  provider : ConsumerProvider
  client : ConsumerClient
  locality : ConsumerLocality
  operation : ConsumerOperation
  targetUserId : String
  tier : ConsumerTier
  deriving DecidableEq

inductive ConsumerAdmissionRefusalReason where
  | principalMissing | principalUntrusted | targetUserMissing | targetUserUntrusted
  | requestedUserMismatch | operationUntrusted | tierUntrusted | registrationMissing
  | registrationMismatch | registrationRevoked | registrationExpired | operationNotAuthorized
  | targetUserNotAuthorized | tierNotAuthorized | contextInvalid | authorityMismatch
  deriving DecidableEq

structure ConsumerAuthorityState where
  byPrincipal : OrdMap String ConsumerRegistration := .empty
  byRegistration : OrdMap String ConsumerRegistration := .empty
  revoked : List String := []

/-- The state of every authority, by identity. -/
abbrev ConsumerAuthorities := Nat → ConsumerAuthorityState

/-- What a context was built for, and in which state. -/
structure ConsumerContextBinding where
  state : Nat
  bound : ConsumerDeliveryContext
  deriving DecidableEq

/-- An object a caller presents as a context. -/
structure ContextObject where
  fields : ConsumerDeliveryContext
  binding : Option ConsumerContextBinding
  deriving DecidableEq

structure CurrentConsumerDeliveryGrant where
  context : ConsumerDeliveryContext
  registrationRef : String
  provider : ConsumerProvider
  client : ConsumerClient
  locality : ConsumerLocality
  allowOrdinary : Bool
  allowedLocalOnlyRestrictions : List ProcessingLineageRestriction
  expiresAt : Option String
  deriving DecidableEq

section
variable (host : Host) (now : Int)

/-- `isExpired`: a time that cannot be read has passed. -/
def isExpired (expiresAt : Option String) : Bool :=
  match expiresAt with
  | none => false
  | some s =>
      if s = "" then false
      else
        match host.dateParse s with
        | none => true
        | some ms => ms ≤ now

/-- `currentContextRefusal`. -/
def currentContextRefusal (state : ConsumerAuthorityState) (context : ConsumerDeliveryContext)
    (bound : ConsumerDeliveryContext) : Option ConsumerAdmissionRefusalReason :=
  match state.byRegistration.get? bound.registrationRef with
  | none => some .registrationMissing
  | some registration =>
      if registration.registrationRef ≠ bound.registrationRef ∨
          registration.principalRef ≠ bound.principalRef then some .registrationMismatch
      else if (state.byPrincipal.get? bound.principalRef).all fun r =>
          r.registrationRef ≠ bound.registrationRef then some .registrationMismatch
      else if registration.provider ≠ bound.provider ∨ registration.client ≠ bound.client ∨
          registration.locality ≠ bound.locality then some .registrationMismatch
      else if bound.registrationRef ∈ state.revoked ∨ registration.status ≠ .active then
        some .registrationRevoked
      else if isExpired host now registration.expiresAt then some .registrationExpired
      else if bound.operation ∉ registration.authorizedOperations then some .operationNotAuthorized
      else if bound.targetUserId ∉ registration.authorizedTargetUsers then
        some .targetUserNotAuthorized
      else if bound.tier ∉ registration.authorizedTiers then some .tierNotAuthorized
      else if context ≠ bound then some .contextInvalid
      else none

/-- `bindingForContext`: the context and what it is bound to, where both still stand.  An
authority that was not created here has no state; `none` as a context is no object. -/
def bindingForContext (authorities : ConsumerAuthorities) (authority : Option Nat)
    (value : Option ContextObject) :
    Except ConsumerAdmissionRefusalReason (ConsumerContextBinding × ConsumerDeliveryContext) :=
  match authority with
  | none => .error .authorityMismatch
  | some state =>
      match value.bind fun object => object.binding.map fun binding => (object, binding) with
      | none => .error .contextInvalid
      | some (object, binding) =>
          if binding.state ≠ state then .error .authorityMismatch
          else if object.fields ≠ binding.bound then .error .contextInvalid
          else
            match currentContextRefusal host now (authorities state) object.fields binding.bound with
            | some reason => .error reason
            | none => .ok (binding, object.fields)

def getCurrentConsumerDeliveryGrant (authorities : ConsumerAuthorities) (authority : Option Nat)
    (value : Option ContextObject) :
    Except ConsumerAdmissionRefusalReason CurrentConsumerDeliveryGrant :=
  match bindingForContext host now authorities authority value with
  | .error reason => .error reason
  | .ok (binding, context) =>
      match (authorities binding.state).byRegistration.get? binding.bound.registrationRef with
      | none => .error .registrationMissing
      | some registration =>
          .ok
            { context := context
              registrationRef := registration.registrationRef
              provider := registration.provider
              client := registration.client
              locality := registration.locality
              allowOrdinary := registration.allowOrdinary
              allowedLocalOnlyRestrictions := registration.allowedLocalOnlyRestrictions
              expiresAt := registration.expiresAt.filter Text.truthy }

end

end Runir
