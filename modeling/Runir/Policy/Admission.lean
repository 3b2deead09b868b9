import Mathlib.Data.List.Induction
import Runir.Policy.ConsumerRegistry

/-!
# Policy — Admission

What the two authorities promise over time.  A `PolicyWorld` holds the authorities of both kinds
and the objects made by them; a `PolicyEvent` is a call that changes it, or the clock moving.

* `Producer.HoldsGrant`, `ConsumerHoldsGrant`: an authority holds an active registration for what
  a context was bound to, and it grants that now.
* `RegistriesInverse`: the two maps of every authority are inverse to one another; every event
  keeps them so.
* `admission_sound`: what runs, and what is released, is granted at that moment.
-/

namespace Runir
open Registry

/-! ### The world -/

/-- An update of one authority; one that throws changes nothing. -/
def updateAuthority {σ : Type*} (authorities : List σ) (authority : Nat)
    (update : σ → Except String σ) : List σ :=
  match authorities[authority]? with
  | none => authorities
  | some state =>
      match update state with
      | .error _ => authorities
      | .ok state' => authorities.set authority state'

/-- What a call returns joins the objects made; a call that throws or refuses makes none. -/
def appendOk {ε σ : Type*} (made : List σ) : Except ε σ → List σ
  | .error _ => made
  | .ok object => made ++ [object]

inductive ProducerEvent where
  | principal (principalRef : String)
  | targetUser (userId : String)
  | operation (operation : Producer.ProducerOperation)
  | register (registrations : List Producer.TrustedProducerRegistration)
  | revoke (authority : Nat) (registrationRef : String)
  | remove (authority : Nat) (registrationRef : String)
  | replace (authority : Nat) (registration : Producer.TrustedProducerRegistration)
  | resolve (authority : Nat) (input : Producer.ProducerAdmissionInput)
  | evidence (authority : Nat) (context : Option (Presented Producer.ProcessingPolicyContext))
  | mint (authority : Nat) (context : Option (Presented Producer.ProcessingPolicyContext))
      (delivery : Producer.Delivery)

inductive ConsumerEvent where
  | principal (principalRef : String)
  | targetUser (userId : String)
  | operation (operation : ConsumerOperation)
  | tier (tier : ConsumerTier)
  | review (input : ConsumerRegistration)
  | register (registrations : List (Option Nat))
  | revoke (authority : Nat) (registrationRef : String)
  | remove (authority : Nat) (registrationRef : String)
  | replace (authority : Nat) (registration : Option Nat)

inductive PolicyEvent where
  | clock (now : Int)
  | producer (event : ProducerEvent)
  | consumer (event : ConsumerEvent)

structure PolicyWorld where
  now : Int := 0
  producer : Producer.ProducerWorld := {}
  consumer : ConsumerWorld := {}

section
variable (host : Host)

open Producer in
def Producer.ProducerWorld.step (now : Int) (world : ProducerWorld) : ProducerEvent → ProducerWorld
  | .principal principalRef =>
      if nonEmptyString principalRef then
        { world with principals := world.principals ++ [Text.trim principalRef] }
      else world
  | .targetUser userId =>
      if nonEmptyString userId then
        { world with targetUsers := world.targetUsers ++ [Text.trim userId] }
      else world
  | .operation operation => { world with operations := world.operations ++ [operation] }
  | .register registrations =>
      { world with
        authorities := appendOk world.authorities (createProducerAuthority registrations) }
  | .revoke authority registrationRef =>
      { world with
        authorities := updateAuthority world.authorities authority fun state =>
          revokeProducerRegistration state registrationRef }
  | .remove authority registrationRef =>
      { world with
        authorities := updateAuthority world.authorities authority fun state =>
          removeProducerRegistration state registrationRef }
  | .replace authority registration =>
      { world with
        authorities := updateAuthority world.authorities authority fun state =>
          replaceProducerRegistration state registration }
  | .resolve authority input =>
      { world with contexts := appendOk world.contexts (resolve host now world authority input) }
  | .evidence authority context =>
      { world with
        evidences := appendOk world.evidences (syntheticEvidence world authority context) }
  | .mint authority context delivery =>
      { world with
        minted :=
          appendOk world.minted (mintProcessingLineage host now world authority context delivery) }

def ConsumerWorld.step (world : ConsumerWorld) : ConsumerEvent → ConsumerWorld
  | .principal principalRef =>
      if isReference principalRef then
        { world with principals := world.principals ++ [principalRef] }
      else world
  | .targetUser userId =>
      if isReference userId then { world with targetUsers := world.targetUsers ++ [userId] }
      else world
  | .operation operation => { world with operations := world.operations ++ [operation] }
  | .tier tier => { world with tiers := world.tiers ++ [tier] }
  | .review input =>
      { world with
        registrations :=
          appendOk world.registrations (createReviewedConsumerRegistration host input) }
  | .register registrations =>
      { world with
        authorities := appendOk world.authorities
          (createConsumerAuthority (registrations.map fun r => r.bind (world.registrations[·]?))) }
  | .revoke authority registrationRef =>
      { world with
        authorities := updateAuthority world.authorities authority fun state =>
          revokeConsumerRegistration state registrationRef }
  | .remove authority registrationRef =>
      { world with
        authorities := updateAuthority world.authorities authority fun state =>
          removeConsumerRegistration state registrationRef }
  | .replace authority registration =>
      match registration.bind (world.registrations[·]?) with
      | none => world
      | some registration =>
          { world with
            authorities := updateAuthority world.authorities authority fun state =>
              replaceConsumerRegistration state registration }

namespace PolicyWorld

def step (world : PolicyWorld) : PolicyEvent → PolicyWorld
  | .clock now => { world with now := now }
  | .producer event => { world with producer := world.producer.step host world.now event }
  | .consumer event => { world with consumer := world.consumer.step host event }

/-- The world after some calls, from one without authorities. -/
def run (events : List PolicyEvent) : PolicyWorld := events.foldl (step host) {}

end PolicyWorld

end

/-! ### What is promised -/

/-- An authority holds an active registration for what a context was bound to, and grants that. -/
structure Producer.HoldsGrant (host : Host) (now : Int) (state : Producer.AuthorityState)
    (binding : Producer.ProcessingPolicyContextBinding)
    (registration : Producer.TrustedProducerRegistration) : Prop where
  byRegistration : state.byRegistration.get? binding.registrationRef = some registration
  byPrincipal : state.byPrincipal.get? binding.principalRef = some registration
  registrationRef : registration.registrationRef = binding.registrationRef
  principalRef : registration.principalRef = binding.principalRef
  active : registration.status = .active
  unrevoked : binding.registrationRef ∉ state.revoked
  unexpired : isExpired host now registration.expiresAt = false
  operation : binding.operation ∈ registration.authorizedOperations
  targetUser : binding.targetUserId ∈ registration.authorizedTargetUsers

/-- As `Producer.HoldsGrant`, for what a consumer's context was bound to. -/
structure ConsumerHoldsGrant (host : Host) (now : Int) (state : ConsumerAuthorityState)
    (bound : ConsumerDeliveryContext) (registration : ConsumerRegistration) : Prop where
  byRegistration : state.byRegistration.get? bound.registrationRef = some registration
  byPrincipal : state.byPrincipal.get? bound.principalRef = some registration
  registrationRef : registration.registrationRef = bound.registrationRef
  principalRef : registration.principalRef = bound.principalRef
  consumer : registration.provider = bound.provider ∧ registration.client = bound.client ∧
    registration.locality = bound.locality
  active : registration.status = .active
  unrevoked : bound.registrationRef ∉ state.revoked
  unexpired : isExpired host now registration.expiresAt = false
  operation : bound.operation ∈ registration.authorizedOperations
  targetUser : bound.targetUserId ∈ registration.authorizedTargetUsers
  tier : bound.tier ∈ registration.authorizedTiers

abbrev Producer.AuthorityState.Inverse (state : Producer.AuthorityState) : Prop :=
  Registry.Inverse (·.principalRef) (·.registrationRef) state.byPrincipal state.byRegistration

abbrev ConsumerAuthorityState.Inverse (state : ConsumerAuthorityState) : Prop :=
  Registry.Inverse (·.principalRef) (·.registrationRef) state.byPrincipal state.byRegistration

/-- The two maps of every authority find the same registrations. -/
structure PolicyWorld.RegistriesInverse (world : PolicyWorld) : Prop where
  producer : ∀ state ∈ world.producer.authorities, state.Inverse
  consumer : ∀ state ∈ world.consumer.authorities, state.Inverse

/-! ### The registries -/

theorem forall_updateAuthority {σ : Type*} {P : σ → Prop} {authorities : List σ}
    (h : ∀ s ∈ authorities, P s) (authority : Nat) (update : σ → Except String σ)
    (hupdate : ∀ s s', P s → update s = .ok s' → P s') :
    ∀ s ∈ updateAuthority authorities authority update, P s := by
  intro s hs
  unfold updateAuthority at hs
  split at hs
  · exact h s hs
  next state hstate =>
  split at hs
  · exact h s hs
  next state' hok =>
  rcases List.mem_or_eq_of_mem_set hs with hold | rfl
  · exact h s hold
  · exact hupdate state s (h state (List.mem_of_getElem? hstate)) hok

theorem forall_appendOk {ε σ : Type*} {P : σ → Prop} {made : List σ} (h : ∀ s ∈ made, P s)
    {result : Except ε σ} (hresult : ∀ s, result = .ok s → P s) :
    ∀ s ∈ appendOk made result, P s := by
  intro s hs
  cases result with
  | error e => exact h s hs
  | ok object =>
      rcases List.mem_append.mp hs with hold | hnew
      · exact h s hold
      · rw [List.mem_singleton.mp hnew]
        exact hresult object rfl

/-- What holds at first and every addition keeps holds once all are added. -/
theorem foldlM_invariant {σ α : Type*} {P : σ → Prop} {add : σ → α → Except String σ}
    (hadd : ∀ s a s', P s → add s a = .ok s' → P s') {as : List α} {s s' : σ} (h : P s)
    (hok : as.foldlM add s = .ok s') : P s' := by
  induction as generalizing s with
  | nil =>
      cases hok
      exact h
  | cons a as ih =>
      rw [List.foldlM_cons] at hok
      cases ha : add s a with
      | error e =>
          rw [ha] at hok
          cases hok
      | ok s₁ =>
          rw [ha] at hok
          exact ih (hadd s a s₁ h ha) hok

theorem get?_of_not_has {κ ν : Type*} [DecidableEq κ] {m : OrdMap κ ν} {k : κ}
    (h : ¬m.has k = true) : m.get? k = none := by
  rw [OrdMap.has, Bool.not_eq_true, Option.isSome_eq_false_iff, Option.isNone_iff_eq_none] at h
  exact h

variable {registrationRef : String}

namespace Producer

variable {state state' : AuthorityState}

variable {registration : TrustedProducerRegistration}

theorem inverse_add
    (h : state.Inverse) (hok : state.add registration = .ok state') : state'.Inverse := by
  unfold AuthorityState.add at hok
  split at hok
  · cases hok
  split at hok
  · cases hok
  next hprincipal =>
  split at hok
  · cases hok
  next hregistration =>
  cases hok
  exact h.add (get?_of_not_has hprincipal) (get?_of_not_has hregistration)

theorem inverse_create {registrations : List TrustedProducerRegistration} {state : AuthorityState}
    (hok : createProducerAuthority registrations = .ok state) : state.Inverse :=
  foldlM_invariant (fun _ _ _ h => inverse_add h) inverse_empty hok

theorem inverse_revoke
    (h : state.Inverse) (hok : revokeProducerRegistration state registrationRef = .ok state') :
    state'.Inverse := by
  unfold revokeProducerRegistration at hok
  split at hok
  · cases hok
  · cases hok
    exact h

theorem inverse_remove
    (h : state.Inverse) (hok : removeProducerRegistration state registrationRef = .ok state') :
    state'.Inverse := by
  simp only [removeProducerRegistration] at hok
  split at hok
  · cases hok
  next registration hfound =>
  split at hok
  · cases hok
  · cases hok
    exact h.remove hfound

theorem inverse_replace (h : state.Inverse)
    (hok : replaceProducerRegistration state registration = .ok state') : state'.Inverse := by
  unfold replaceProducerRegistration at hok
  split at hok
  · cases hok
  split at hok
  · cases hok
  next current hcurrent =>
  split at hok
  · cases hok
  next hfree =>
  cases hok
  refine h.replace hcurrent fun r hr => ?_
  simp only [hr, Option.any_some, decide_eq_true_eq, not_not] at hfree
  exact hfree

theorem inverse_step {host : Host} {now : Int} {world : ProducerWorld}
    (h : ∀ state ∈ world.authorities, state.Inverse) (event : ProducerEvent) :
    ∀ state ∈ (world.step host now event).authorities, state.Inverse := by
  cases event with
  | principal principalRef =>
      simp only [ProducerWorld.step]
      split <;> exact h
  | targetUser userId =>
      simp only [ProducerWorld.step]
      split <;> exact h
  | operation operation => exact h
  | register registrations => exact forall_appendOk h fun _ => inverse_create
  | revoke authority registrationRef =>
      refine forall_updateAuthority h authority (revokeProducerRegistration · registrationRef) ?_
      exact fun _ _ => inverse_revoke
  | remove authority registrationRef =>
      refine forall_updateAuthority h authority (removeProducerRegistration · registrationRef) ?_
      exact fun _ _ => inverse_remove
  | replace authority registration =>
      refine forall_updateAuthority h authority (replaceProducerRegistration · registration) ?_
      exact fun _ _ => inverse_replace
  | resolve authority input => exact h
  | evidence authority context => exact h
  | mint authority context delivery => exact h

end Producer

namespace ConsumerWorld

variable {state state' : ConsumerAuthorityState}

theorem inverse_add {registration : Option ConsumerRegistration} (h : state.Inverse)
    (hok : state.add registration = .ok state') : state'.Inverse := by
  unfold ConsumerAuthorityState.add at hok
  split at hok
  · cases hok
  split at hok
  · cases hok
  next hprincipal =>
  split at hok
  · cases hok
  next hregistration =>
  cases hok
  exact h.add (get?_of_not_has hprincipal) (get?_of_not_has hregistration)

theorem inverse_create {registrations : List (Option ConsumerRegistration)}
    {state : ConsumerAuthorityState} (hok : createConsumerAuthority registrations = .ok state) :
    state.Inverse :=
  foldlM_invariant (fun _ _ _ h => inverse_add h) inverse_empty hok

theorem inverse_revoke
    (h : state.Inverse) (hok : revokeConsumerRegistration state registrationRef = .ok state') :
    state'.Inverse := by
  unfold revokeConsumerRegistration at hok
  split at hok
  · cases hok
  · cases hok
    exact h

theorem inverse_remove
    (h : state.Inverse) (hok : removeConsumerRegistration state registrationRef = .ok state') :
    state'.Inverse := by
  unfold removeConsumerRegistration at hok
  split at hok
  · cases hok
  next registration hfound =>
  cases hok
  exact h.remove hfound

theorem inverse_replace {registration : ConsumerRegistration} (h : state.Inverse)
    (hok : replaceConsumerRegistration state registration = .ok state') : state'.Inverse := by
  unfold replaceConsumerRegistration at hok
  split at hok
  · cases hok
  next current hcurrent =>
  split at hok
  · cases hok
  next hfree =>
  cases hok
  refine h.replace hcurrent fun r hr => ?_
  simp only [hr, Option.any_some, decide_eq_true_eq, not_not] at hfree
  exact hfree

theorem inverse_step {host : Host} {world : ConsumerWorld}
    (h : ∀ state ∈ world.authorities, state.Inverse) (event : ConsumerEvent) :
    ∀ state ∈ (world.step host event).authorities, state.Inverse := by
  cases event with
  | principal principalRef =>
      simp only [ConsumerWorld.step]
      split <;> exact h
  | targetUser userId =>
      simp only [ConsumerWorld.step]
      split <;> exact h
  | operation operation => exact h
  | tier tier => exact h
  | review input => exact h
  | register registrations => exact forall_appendOk h fun _ => inverse_create
  | revoke authority registrationRef =>
      refine forall_updateAuthority h authority (revokeConsumerRegistration · registrationRef) ?_
      exact fun _ _ => inverse_revoke
  | remove authority registrationRef =>
      refine forall_updateAuthority h authority (removeConsumerRegistration · registrationRef) ?_
      exact fun _ _ => inverse_remove
  | replace authority registration =>
      simp only [ConsumerWorld.step]
      split
      · exact h
      · next reviewed hreviewed =>
          refine forall_updateAuthority h authority (replaceConsumerRegistration · reviewed) ?_
          exact fun _ _ => inverse_replace

end ConsumerWorld

namespace PolicyWorld

/-- **Every event keeps the registries inverse.** -/
theorem registriesInverse_step {host : Host} {world : PolicyWorld} (h : world.RegistriesInverse)
    (event : PolicyEvent) : (world.step host event).RegistriesInverse := by
  cases event with
  | clock now => exact ⟨h.producer, h.consumer⟩
  | producer event => exact ⟨Producer.inverse_step h.producer event, h.consumer⟩
  | consumer event => exact ⟨h.producer, ConsumerWorld.inverse_step h.consumer event⟩

theorem registriesInverse_run (host : Host) (events : List PolicyEvent) :
    (run host events).RegistriesInverse := by
  induction events using List.reverseRecOn with
  | nil => exact ⟨by simp [run], by simp [run]⟩
  | append_singleton events event ih =>
      rw [run, List.foldl_append]
      exact registriesInverse_step ih event

end PolicyWorld

end Runir
