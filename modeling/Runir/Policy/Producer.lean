import Runir.Lib.Registry
import Runir.Policy.Consumer

/-!
# Policy — Producers

`src/app/processing-policy/authority.ts`: who may run an operation on content of Minni's.

* `AuthorityState`: the registrations an authority holds, by principal and by reference, and which
  of them are revoked.
* `resolve`: a context for a principal, an operation and a target user the server has set.
* `mintProcessingLineage`: a lineage to be persisted, from a context still granted.
* `runWithMintedProcessingLineage`: what a minted lineage lets a callback do.

Principals, contexts and minted lineages are known by identity: an object is looked up in the map
of those made here, and one that is not found there is refused whatever it says.
-/

namespace Runir

/-- An object a caller presents: what it says, and its place among those made here, if it is one
of them. -/
structure Presented (φ : Type*) where
  fields : φ
  identity : Option Nat
  deriving DecidableEq

/-- `identityMap.get(object)`. -/
def Presented.get? {φ β : Type*} (object : Option (Presented φ)) (made : List β) : Option β :=
  object.bind fun o => o.identity.bind fun i => made[i]?

namespace Producer

abbrev ProducerOperation := ProcessingLineageOperation

def minniOrigin : String := "minni"

def minniProcessingPolicyVersion : String := "runir.minni.local/v1"

structure TrustedProducerRegistration where
  registrationRef : String
  principalRef : String
  origin : String := minniOrigin
  policyVersion : String := minniProcessingPolicyVersion
  authorizedOperations : List ProducerOperation
  authorizedTargetUsers : List String
  status : RegistrationStatus := .active
  expiresAt : Option String := none
  deriving DecidableEq

structure ProcessingPolicyContext where
  principalRef : String
  registrationRef : String
  origin : String
  policyVersion : String
  operation : ProducerOperation
  targetUserId : String
  mode : String
  lineageState : String
  deriving DecidableEq

inductive ProducerAdmissionRefusalReason where
  | principalMissing | principalUntrusted | targetUserMissing | targetUserUntrusted
  | requestedUserMismatch | operationUntrusted | registrationMissing | registrationMismatch
  | registrationRevoked | registrationExpired | operationNotAuthorized | targetUserNotAuthorized
  | targetUserMismatch | operationMismatch | registrationInvalid | contextInvalid
  | authorityMismatch | lineagePresent | deliveryResolverUnconfigured | deliveryResolverUntrusted
  | deliveryEvidenceInvalid | lineageInvalid
  deriving DecidableEq

structure AuthorityState where
  byPrincipal : OrdMap String TrustedProducerRegistration := .empty
  byRegistration : OrdMap String TrustedProducerRegistration := .empty
  revoked : List String := []

/-- What a context was built for, and in which authority.  `identity` is the context's own: two
contexts with the same fields are two. -/
structure ProcessingPolicyContextBinding where
  identity : Nat
  state : Nat
  context : ProcessingPolicyContext
  principalRef : String
  registrationRef : String
  operation : ProducerOperation
  targetUserId : String
  deriving DecidableEq

structure ProducerDeliveryEvidenceBinding where
  state : Nat
  contextBinding : ProcessingPolicyContextBinding
  restrictions : List ProcessingLineageRestriction
  deriving DecidableEq

structure MintedProcessingLineageBinding where
  state : Nat
  contextBinding : ProcessingPolicyContextBinding
  lineage : ProcessingLineageV1
  deriving DecidableEq

/-- What a principal says: its reference, and by whom it was authenticated. -/
structure PrincipalFields where
  principalRef : String
  authenticatedBy : String
  deriving DecidableEq

structure ProducerAdmissionInput where
  principal : Option (Presented PrincipalFields)
  operation : Option (Presented String)
  targetUser : Option (Presented String)
  requestedUserId : Option Value := none

/-- What `mintProcessingLineage` is given for the delivery. -/
inductive Delivery where
  /-- `productionProducerDeliveryResolver`. -/
  | unconfigured
  /-- `syntheticProducerDeliveryResolver`. -/
  | synthetic
  /-- Evidence, or an object that passes itself off as some. -/
  | evidence (object : Option (Presented Unit))

/-- The authorities there are, and the identity maps of the module. -/
structure ProducerWorld where
  authorities : List AuthorityState := []
  principals : List String := []
  targetUsers : List String := []
  operations : List ProducerOperation := []
  contexts : List ProcessingPolicyContextBinding := []
  evidences : List ProducerDeliveryEvidenceBinding := []
  minted : List MintedProcessingLineageBinding := []

def nonEmptyString (s : String) : Bool := 0 < Text.length (Text.trim s)

/-! ### The registry -/

/-- One registration of `createProducerAuthority`. -/
def AuthorityState.add (state : AuthorityState) (registration : TrustedProducerRegistration) :
    Except String AuthorityState :=
  if registration.origin ≠ minniOrigin ∨
      registration.policyVersion ≠ minniProcessingPolicyVersion then
    .error "producer registration policy is unsupported"
  else if state.byPrincipal.has registration.principalRef then
    .error "producer principal has multiple registrations"
  else if state.byRegistration.has registration.registrationRef then
    .error "producer registration reference is duplicated"
  else
    .ok
      { state with
        byPrincipal := state.byPrincipal.set registration.principalRef registration
        byRegistration := state.byRegistration.set registration.registrationRef registration }

def createProducerAuthority (registrations : List TrustedProducerRegistration) :
    Except String AuthorityState :=
  registrations.foldlM AuthorityState.add {}

def revokeProducerRegistration (state : AuthorityState) (registrationRef : String) :
    Except String AuthorityState :=
  if !nonEmptyString registrationRef ||
      !state.byRegistration.has (Text.trim registrationRef) then
    .error "producer registration is unknown"
  else .ok { state with revoked := state.revoked ++ [Text.trim registrationRef] }

def removeProducerRegistration (state : AuthorityState) (registrationRef : String) :
    Except String AuthorityState :=
  let normalizedRef := Text.trim registrationRef
  match state.byRegistration.get? normalizedRef with
  | none => .error "producer registration is unknown"
  | some registration =>
      if !nonEmptyString registrationRef then .error "producer registration is unknown"
      else
        .ok
          { byPrincipal := state.byPrincipal.erase registration.principalRef
            byRegistration := state.byRegistration.erase normalizedRef
            revoked := state.revoked.filter fun r => r ≠ normalizedRef }

def replaceProducerRegistration (state : AuthorityState)
    (registration : TrustedProducerRegistration) : Except String AuthorityState :=
  if registration.origin ≠ minniOrigin ∨
      registration.policyVersion ≠ minniProcessingPolicyVersion then
    .error "producer registration policy is unsupported"
  else
    match state.byRegistration.get? registration.registrationRef with
    | none => .error "producer registration is unknown"
    | some current =>
        if (state.byPrincipal.get? registration.principalRef).any fun r =>
            r.registrationRef ≠ registration.registrationRef then
          .error "producer principal has multiple registrations"
        else
          .ok
            { byPrincipal :=
                (state.byPrincipal.erase current.principalRef).set registration.principalRef
                  registration
              byRegistration := state.byRegistration.set registration.registrationRef registration
              revoked := state.revoked.filter fun r => r ≠ registration.registrationRef }

/-! ### Admission -/

section
variable (world : ProducerWorld)

/-- `isServerAuthenticatedPrincipal`: the reference of a principal made here. -/
def trustedPrincipal (object : Option (Presented PrincipalFields)) : Option String :=
  (Presented.get? object world.principals).filter fun ref =>
    object.any (fun o => o.fields = ⟨ref, "server"⟩) && nonEmptyString ref

/-- `isServerResolvedTargetUser`. -/
def trustedTargetUser (object : Option (Presented String)) : Option String :=
  (Presented.get? object world.targetUsers).filter fun userId =>
    object.any (fun o => o.fields = userId) && nonEmptyString userId

/-- `isServerSelectedProducerOperation`. -/
def trustedOperation (object : Option (Presented String)) : Option ProducerOperation :=
  (Presented.get? object world.operations).filter fun operation =>
    object.any fun o => o.fields = operation.text

def contextFieldsMatchBinding (context : ProcessingPolicyContext)
    (binding : ProcessingPolicyContextBinding) : Bool :=
  context.principalRef = binding.principalRef && context.registrationRef = binding.registrationRef &&
    context.origin = minniOrigin && context.policyVersion = minniProcessingPolicyVersion &&
    context.operation = binding.operation && context.targetUserId = binding.targetUserId &&
    context.mode = "local-only" && context.lineageState = "minni_verified"

/-- `isTrustedProcessingPolicyContext`: what a context made here is bound to. -/
def trustedContext (object : Option (Presented ProcessingPolicyContext)) :
    Option ProcessingPolicyContextBinding :=
  (Presented.get? object world.contexts).filter fun binding =>
    object.any fun o => contextFieldsMatchBinding o.fields binding

end

/-- What a caller expects of a context. -/
structure Expected where
  operation : Option ProducerOperation := none
  targetUserId : Option String := none

section
variable (host : Host) (now : Int)

/-- `currentContextRefusal`. -/
def currentContextRefusal (state : AuthorityState) (context : ProcessingPolicyContext)
    (binding : ProcessingPolicyContextBinding) (expected : Expected) :
    Option ProducerAdmissionRefusalReason :=
  match state.byRegistration.get? binding.registrationRef with
  | none => some .registrationMissing
  | some registration =>
      if registration.registrationRef ≠ binding.registrationRef ∨
          registration.principalRef ≠ binding.principalRef then some .registrationMismatch
      else if registration.origin ≠ minniOrigin ∨
          registration.policyVersion ≠ minniProcessingPolicyVersion then some .registrationInvalid
      else if (state.byPrincipal.get? binding.principalRef).all fun r =>
          r.registrationRef ≠ binding.registrationRef then some .registrationMismatch
      else if binding.registrationRef ∈ state.revoked ∨ registration.status ≠ .active then
        some .registrationRevoked
      else if isExpired host now registration.expiresAt then some .registrationExpired
      else if binding.operation ∉ registration.authorizedOperations then some .operationNotAuthorized
      else if binding.targetUserId ∉ registration.authorizedTargetUsers then
        some .targetUserNotAuthorized
      else if expected.targetUserId.any fun u => context.targetUserId ≠ u then
        some .targetUserMismatch
      else if expected.operation.any fun o => context.operation ≠ o then some .operationMismatch
      else none

/-- The registration a principal is admitted by, with the operation and the target user. -/
def admitted (world : ProducerWorld) (state : AuthorityState) (input : ProducerAdmissionInput) :
    Except ProducerAdmissionRefusalReason
      (TrustedProducerRegistration × String × ProducerOperation × String) :=
  if input.principal.isNone then .error .principalMissing
  else
    match trustedPrincipal world input.principal with
    | none => .error .principalUntrusted
    | some principalRef =>
        if input.targetUser.isNone then .error .targetUserMissing
        else
          match trustedTargetUser world input.targetUser with
          | none => .error .targetUserUntrusted
          | some userId =>
              match trustedOperation world input.operation with
              | none => .error .operationUntrusted
              | some operation =>
                  if input.requestedUserId.any fun v => v ≠ .str userId then
                    .error .requestedUserMismatch
                  else
                    match state.byPrincipal.get? principalRef with
                    | none => .error .registrationMissing
                    | some registration =>
                        if registration.principalRef ≠ principalRef then
                          .error .registrationMismatch
                        else if registration.registrationRef ∈ state.revoked ∨
                            registration.status ≠ .active then .error .registrationRevoked
                        else if isExpired host now registration.expiresAt then
                          .error .registrationExpired
                        else if operation ∉ registration.authorizedOperations then
                          .error .operationNotAuthorized
                        else if userId ∉ registration.authorizedTargetUsers then
                          .error .targetUserNotAuthorized
                        else .ok (registration, principalRef, operation, userId)

/-- `buildContext`: the context and what it is bound to, as the next of those made here. -/
def buildContext (world : ProducerWorld) (state : Nat) (principalRef : String)
    (registration : TrustedProducerRegistration) (operation : ProducerOperation)
    (targetUserId : String) : ProcessingPolicyContextBinding where
  identity := world.contexts.length
  state := state
  context :=
    { principalRef := principalRef
      registrationRef := registration.registrationRef
      origin := minniOrigin
      policyVersion := minniProcessingPolicyVersion
      operation := operation
      targetUserId := targetUserId
      mode := "local-only"
      lineageState := "minni_verified" }
  principalRef := principalRef
  registrationRef := registration.registrationRef
  operation := operation
  targetUserId := targetUserId

/-- `authority.resolve(input)` of an authority made here. -/
def resolve (world : ProducerWorld) (authority : Nat) (input : ProducerAdmissionInput) :
    Except ProducerAdmissionRefusalReason ProcessingPolicyContextBinding :=
  match world.authorities[authority]? with
  | none => .error .authorityMismatch
  | some state =>
      match admitted host now world state input with
      | .error reason => .error reason
      | .ok (registration, principalRef, operation, userId) =>
          .ok (buildContext world authority principalRef registration operation userId)

/-- The context an authority is handed, where it is one of its own. -/
def contextOf (world : ProducerWorld) (authority : Nat)
    (context : Option (Presented ProcessingPolicyContext)) :
    Option (AuthorityState × ProcessingPolicyContextBinding) :=
  (world.authorities[authority]?).bind fun state =>
    ((trustedContext world context).filter fun binding => binding.state = authority).map
      fun binding => (state, binding)

/-- `syntheticProducerDeliveryResolver.resolve`. -/
def syntheticEvidence (world : ProducerWorld) (authority : Nat)
    (context : Option (Presented ProcessingPolicyContext)) :
    Except ProducerAdmissionRefusalReason ProducerDeliveryEvidenceBinding :=
  match contextOf world authority context with
  | none => .error .authorityMismatch
  | some (_, binding) =>
      .ok
        { state := authority
          contextBinding := binding
          restrictions :=
            match binding.operation with
            | .captureIngest => []
            | .scheduledMaintenance => [.audioDerived]
            | .forcedMaintenance => [.audioDerived, .excludedSource, .producerLocalOnly] }

/-- The evidence `mintProcessingLineage` goes by, from a resolver or as presented. -/
def evidenceOf (world : ProducerWorld) (state : AuthorityState) (authority : Nat)
    (context : Option (Presented ProcessingPolicyContext))
    (binding : ProcessingPolicyContextBinding) (delivery : Delivery) :
    Except ProducerAdmissionRefusalReason ProducerDeliveryEvidenceBinding :=
  match delivery with
  | .unconfigured => .error .deliveryResolverUnconfigured
  | .synthetic =>
      match syntheticEvidence world authority context with
      | .error reason => .error reason
      | .ok evidence =>
          match currentContextRefusal host now state binding.context binding {} with
          | some reason => .error reason
          | none => .ok evidence
  | .evidence object =>
      match Presented.get? object world.evidences with
      | none => .error .deliveryResolverUntrusted
      | some evidence =>
          if evidence.state ≠ authority ∨ evidence.contextBinding ≠ binding then
            .error .authorityMismatch
          else .ok evidence

/-- The lineage a context stands for, before it is classified. -/
def lineageFor (context : ProcessingPolicyContext) (restrictions : List ProcessingLineageRestriction) :
    ProcessingLineageV1 where
  state := .minniVerified
  origin := .minni
  producerPrincipalRef := context.principalRef
  producerRegistrationRef := context.registrationRef
  processingPolicyVersion := .minniLocalV1
  admittedOperation := context.operation
  targetUserId := context.targetUserId
  delivery :=
    { version := .minniDeliveryV1
      disposition := if restrictions ≠ [] then .localOnly else .ordinary
      restrictions := restrictions }

def mintProcessingLineage (world : ProducerWorld) (authority : Nat)
    (context : Option (Presented ProcessingPolicyContext)) (delivery : Delivery) :
    Except ProducerAdmissionRefusalReason MintedProcessingLineageBinding :=
  match contextOf world authority context with
  | none => .error .authorityMismatch
  | some (state, binding) =>
      match currentContextRefusal host now state binding.context binding {} with
      | some reason => .error reason
      | none =>
          match evidenceOf host now world state authority context binding delivery with
          | .error reason => .error reason
          | .ok evidence =>
              if evidence.state ≠ authority ∨ evidence.contextBinding ≠ binding then
                .error .deliveryEvidenceInvalid
              else
                match classifyProcessingLineage
                    (some (lineageFor binding.context evidence.restrictions).toValue) with
                | .verified lineage => .ok ⟨authority, binding, lineage⟩
                | _ => .error .lineageInvalid

/-- `runWithMintedProcessingLineage`: what the callback is called with, where it is called. -/
def runWithMintedProcessingLineage (world : ProducerWorld) (authority : Nat)
    (minted : Option (Presented Unit)) (expected : Expected) :
    Except ProducerAdmissionRefusalReason (ProcessingLineageV1 × ProcessingPolicyContext) :=
  match world.authorities[authority]?, Presented.get? minted world.minted with
  | some state, some binding =>
      if binding.state ≠ authority then .error .authorityMismatch
      else
        match currentContextRefusal host now state binding.contextBinding.context
            binding.contextBinding expected with
        | some reason => .error reason
        | none =>
            if binding.lineage.targetUserId ≠ binding.contextBinding.targetUserId ∨
                binding.lineage.admittedOperation ≠ binding.contextBinding.operation ∨
                binding.lineage.producerPrincipalRef ≠ binding.contextBinding.principalRef ∨
                binding.lineage.producerRegistrationRef ≠
                  binding.contextBinding.registrationRef then .error .lineageInvalid
            else .ok (binding.lineage, binding.contextBinding.context)
  | _, _ => .error .lineageInvalid

/-- `runWithProducerAdmission`: the context its callback is called with, where it is called. -/
def runWithProducerAdmission (world : ProducerWorld) (authority : Nat)
    (input : ProducerAdmissionInput) :
    Except ProducerAdmissionRefusalReason ProcessingPolicyContextBinding :=
  resolve host now world authority input

end

end Producer

end Runir
