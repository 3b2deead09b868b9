import Runir.Policy.Producer

/-!
# Policy — The consumer registry

`src/app/consumer-policy/authority.ts`, where it changes: registrations are reviewed, added to an
authority when it is made, revoked, removed and replaced; a consumer is admitted for one operation,
target user and tier, and what it was admitted for is looked at again when its callback is done.
-/

namespace Runir

structure ConsumerAdmissionInput where
  principal : Option (Presented Producer.PrincipalFields)
  operation : Option (Presented ConsumerOperation)
  tier : Option (Presented ConsumerTier)
  targetUser : Option (Presented String)
  requestedUserId : Option Value := none

/-- The identity maps of the module, and the authorities there are. -/
structure ConsumerWorld where
  authorities : List ConsumerAuthorityState := []
  principals : List String := []
  targetUsers : List String := []
  operations : List ConsumerOperation := []
  tiers : List ConsumerTier := []
  registrations : List ConsumerRegistration := []

/-! ### Registrations -/

/-- `createReviewedConsumerRegistration`; `status` is active where it is not given. -/
def createReviewedConsumerRegistration (host : Host) (input : ConsumerRegistration) :
    Except String ConsumerRegistration :=
  let targetUsers := (input.authorizedTargetUsers.map Text.trim).filter Text.truthy
  if !isReference input.registrationRef || !isReference input.principalRef then
    .error "consumer registration references are required"
  else if input.authorizedOperations = [] then
    .error "consumer registration operations are invalid"
  else if input.authorizedTiers = [] then .error "consumer registration tiers are invalid"
  else if targetUsers = [] ∨ targetUsers.any (fun u => !isReference u) then
    .error "consumer registration target users are invalid"
  else if input.expiresAt.any fun s => (host.dateParse s).isNone then
    .error "consumer registration expiry is invalid"
  else
    .ok
      { input with
        authorizedOperations := input.authorizedOperations.eraseDups
        authorizedTargetUsers := targetUsers.eraseDups
        authorizedTiers := input.authorizedTiers.eraseDups
        allowedLocalOnlyRestrictions := publishedOf input.allowedLocalOnlyRestrictions
        expiresAt := input.expiresAt.filter Text.truthy }

/-- One registration of `createConsumerAuthority`; `none` was not made by the review. -/
def ConsumerAuthorityState.add (state : ConsumerAuthorityState)
    (registration : Option ConsumerRegistration) : Except String ConsumerAuthorityState :=
  match registration with
  | none => .error "consumer registration must come from reviewed server construction"
  | some registration =>
      if state.byPrincipal.has registration.principalRef then
        .error "consumer principal has multiple registrations"
      else if state.byRegistration.has registration.registrationRef then
        .error "consumer registration reference is duplicated"
      else
        .ok
          { state with
            byPrincipal := state.byPrincipal.set registration.principalRef registration
            byRegistration := state.byRegistration.set registration.registrationRef registration }

def createConsumerAuthority (registrations : List (Option ConsumerRegistration)) :
    Except String ConsumerAuthorityState :=
  registrations.foldlM ConsumerAuthorityState.add {}

def revokeConsumerRegistration (state : ConsumerAuthorityState) (registrationRef : String) :
    Except String ConsumerAuthorityState :=
  if !isReference registrationRef || !state.byRegistration.has registrationRef then
    .error "consumer registration is unknown"
  else .ok { state with revoked := state.revoked ++ [registrationRef] }

def removeConsumerRegistration (state : ConsumerAuthorityState) (registrationRef : String) :
    Except String ConsumerAuthorityState :=
  match state.byRegistration.get? registrationRef with
  | none => .error "consumer registration is unknown"
  | some registration =>
      .ok
        { byPrincipal := state.byPrincipal.erase registration.principalRef
          byRegistration := state.byRegistration.erase registrationRef
          revoked := state.revoked.filter fun r => r ≠ registrationRef }

def replaceConsumerRegistration (state : ConsumerAuthorityState)
    (registration : ConsumerRegistration) : Except String ConsumerAuthorityState :=
  match state.byRegistration.get? registration.registrationRef with
  | none => .error "consumer registration is unknown"
  | some current =>
      if (state.byPrincipal.get? registration.principalRef).any fun r =>
          r.registrationRef ≠ registration.registrationRef then
        .error "consumer principal has multiple registrations"
      else
        .ok
          { byPrincipal :=
              (state.byPrincipal.erase current.principalRef).set registration.principalRef
                registration
            byRegistration := state.byRegistration.set registration.registrationRef registration
            revoked := state.revoked.filter fun r => r ≠ registration.registrationRef }

/-! ### Admission -/

namespace ConsumerWorld
variable (world : ConsumerWorld)

/-- `isServerAuthenticatedConsumerPrincipal`: the reference of a principal made here. -/
def trustedPrincipal (object : Option (Presented Producer.PrincipalFields)) : Option String :=
  (Presented.get? object world.principals).filter fun ref =>
    object.any (fun o => o.fields = ⟨ref, "server"⟩) && isReference ref

/-- `isServerResolvedConsumerTarget`. -/
def trustedTargetUser (object : Option (Presented String)) : Option String :=
  (Presented.get? object world.targetUsers).filter fun userId =>
    object.any (fun o => o.fields = userId) && isReference userId

/-- `isServerSelectedConsumerOperation`. -/
def trustedOperation (object : Option (Presented ConsumerOperation)) : Option ConsumerOperation :=
  (Presented.get? object world.operations).filter fun operation =>
    object.any fun o => o.fields = operation

/-- `isServerSelectedConsumerTier`. -/
def trustedTier (object : Option (Presented ConsumerTier)) : Option ConsumerTier :=
  (Presented.get? object world.tiers).filter fun tier => object.any fun o => o.fields = tier

/-- The authorities, as a grant looks them up. -/
def authority? (authority : Nat) : Option Nat :=
  if authority < world.authorities.length then some authority else none

def stateOf : ConsumerAuthorities := fun i => world.authorities.getD i {}

section
variable (host : Host) (now : Int)

/-- `authority.resolve(input)` of an authority made here: the fields of the context built. -/
def admitted (state : ConsumerAuthorityState) (input : ConsumerAdmissionInput) :
    Except ConsumerAdmissionRefusalReason ConsumerDeliveryContext :=
  if input.principal.isNone then .error .principalMissing
  else
    match world.trustedPrincipal input.principal with
    | none => .error .principalUntrusted
    | some principalRef =>
        if input.targetUser.isNone then .error .targetUserMissing
        else
          match world.trustedTargetUser input.targetUser, world.trustedOperation input.operation,
              world.trustedTier input.tier with
          | none, _, _ => .error .targetUserUntrusted
          | _, none, _ => .error .operationUntrusted
          | _, _, none => .error .tierUntrusted
          | some userId, some operation, some tier =>
              if input.requestedUserId.any fun v => v ≠ .str userId then
                .error .requestedUserMismatch
              else
                match state.byPrincipal.get? principalRef with
                | none => .error .registrationMissing
                | some registration =>
                    if registration.principalRef ≠ principalRef then .error .registrationMismatch
                    else if registration.registrationRef ∈ state.revoked ∨
                        registration.status ≠ .active then .error .registrationRevoked
                    else if isExpired host now registration.expiresAt then
                      .error .registrationExpired
                    else if operation ∉ registration.authorizedOperations then
                      .error .operationNotAuthorized
                    else if userId ∉ registration.authorizedTargetUsers then
                      .error .targetUserNotAuthorized
                    else if tier ∉ registration.authorizedTiers then .error .tierNotAuthorized
                    else
                      .ok
                        { principalRef := principalRef
                          registrationRef := registration.registrationRef
                          provider := registration.provider
                          client := registration.client
                          locality := registration.locality
                          operation := operation
                          targetUserId := userId
                          tier := tier }

end

end ConsumerWorld

/-- An authority `runWithConsumerAdmission` is handed: one made here, or an object with a `resolve`
of its own. -/
inductive ConsumerAuthorityRef where
  | created (authority : Nat)
  | foreign (resolve : ConsumerAdmissionInput →
      Except ConsumerAdmissionRefusalReason (Option ContextObject))

section
variable (host : Host) (now : Int)

/-- `consumerAuthorityIdentity.get(authority)`. -/
def ConsumerAuthorityRef.state? (world : ConsumerWorld) : ConsumerAuthorityRef → Option Nat
  | .created authority => world.authority? authority
  | .foreign _ => none

/-- `authority.resolve(input)`. -/
def ConsumerAuthorityRef.resolve (world : ConsumerWorld) (input : ConsumerAdmissionInput) :
    ConsumerAuthorityRef → Except ConsumerAdmissionRefusalReason (Option ContextObject)
  | .created authority =>
      match world.authorities[authority]? with
      | none => .error .authorityMismatch
      | some state =>
          match world.admitted host now state input with
          | .error reason => .error reason
          | .ok context => .ok (some ⟨context, some ⟨authority, context⟩⟩)
  | .foreign resolve => resolve input

/-- `consumerGrantSnapshotMatches`, of grants to one context. -/
def consumerGrantSnapshotMatches (initial current : CurrentConsumerDeliveryGrant) : Bool :=
  initial.registrationRef = current.registrationRef && initial.provider = current.provider &&
    initial.client = current.client && initial.locality = current.locality &&
    initial.allowOrdinary = current.allowOrdinary && initial.expiresAt = current.expiresAt &&
    initial.allowedLocalOnlyRestrictions = current.allowedLocalOnlyRestrictions

/-- `runWithConsumerAdmission`, up to the callback: the context it is called with, and the grant it
is called under. -/
def beginConsumerAdmission (world : ConsumerWorld) (authority : ConsumerAuthorityRef)
    (input : ConsumerAdmissionInput) :
    Except ConsumerAdmissionRefusalReason (Option ContextObject × CurrentConsumerDeliveryGrant) :=
  match authority.resolve host now world input with
  | .error reason => .error reason
  | .ok context =>
      match getCurrentConsumerDeliveryGrant host now world.stateOf (authority.state? world)
          context with
      | .error reason => .error reason
      | .ok grant => .ok (context, grant)

/-- `runWithConsumerAdmission`, from the end of the callback: its value is released where this does
not refuse. -/
def releaseConsumerValue (world : ConsumerWorld) (authority : ConsumerAuthorityRef)
    (context : Option ContextObject) (initialGrant : CurrentConsumerDeliveryGrant) :
    Except ConsumerAdmissionRefusalReason CurrentConsumerDeliveryGrant :=
  match getCurrentConsumerDeliveryGrant host now world.stateOf (authority.state? world) context with
  | .error reason => .error reason
  | .ok currentGrant =>
      if consumerGrantSnapshotMatches initialGrant currentGrant then .ok currentGrant
      else .error .contextInvalid

end

end Runir
