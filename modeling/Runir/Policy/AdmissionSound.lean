import Runir.Policy.Admission

/-!
# Policy — Admission is sound

* `Producer.holdsGrant_of_current`, `Producer.holdsGrant_of_resolve`: what the producers' checks let
  through is granted.
* `consumerHoldsGrant_of_grant`: so is what a consumer holds a grant for.
* `madeHere_run`: every lineage minted in a run was granted when it was minted.
* `admission_sound`: what runs, and what is released, is granted at that moment.
-/

namespace Runir

namespace Producer
variable {host : Host} {now : Int} {world : ProducerWorld}

/-! ### What the producers' checks let through -/

variable {binding : ProcessingPolicyContextBinding}

theorem holdsGrant_of_current {state : AuthorityState} {context : ProcessingPolicyContext}
    {expected : Expected} (h : state.Inverse)
    (hcurrent : currentContextRefusal host now state context binding expected = none) :
    ∃ registration, HoldsGrant host now state binding registration := by
  unfold currentContextRefusal at hcurrent
  split at hcurrent
  · cases hcurrent
  next registration hfound =>
  split at hcurrent
  · cases hcurrent
  next hmatch =>
  split at hcurrent
  · cases hcurrent
  split at hcurrent
  · cases hcurrent
  next hprincipal =>
  split at hcurrent
  · cases hcurrent
  next hrevoked =>
  split at hcurrent
  · cases hcurrent
  next hexpired =>
  split at hcurrent
  · cases hcurrent
  next hoperation =>
  split at hcurrent
  · cases hcurrent
  next htarget =>
  rw [not_or, not_not, not_not] at hmatch
  rw [not_or, not_not] at hrevoked
  refine ⟨registration, ?_⟩
  exact
    { byRegistration := hfound
      byPrincipal := hmatch.2 ▸ (h.of_name _ _ hfound).2
      registrationRef := hmatch.1
      principalRef := hmatch.2
      active := hrevoked.2
      unrevoked := hrevoked.1
      unexpired := Bool.eq_false_iff.mpr hexpired
      operation := not_not.mp hoperation
      targetUser := not_not.mp htarget }

variable {input : ProducerAdmissionInput}

theorem holdsGrant_of_admitted {state : AuthorityState}
    {registration : TrustedProducerRegistration} {principalRef userId : String}
    {operation : ProducerOperation} (h : state.Inverse) (authority : Nat)
    (hok : admitted host now world state input = .ok (registration, principalRef, operation, userId)) :
    HoldsGrant host now state
      (buildContext world authority principalRef registration operation userId) registration := by
  unfold admitted at hok
  split at hok
  · cases hok
  split at hok
  · cases hok
  next ref hprincipal =>
  split at hok
  · cases hok
  split at hok
  · cases hok
  next user huser =>
  split at hok
  · cases hok
  next op hop =>
  split at hok
  · cases hok
  split at hok
  · cases hok
  next r hfound =>
  split at hok
  · cases hok
  next hmatch =>
  split at hok
  · cases hok
  next hrevoked =>
  split at hok
  · cases hok
  next hexpired =>
  split at hok
  · cases hok
  next hoperation =>
  split at hok
  · cases hok
  next htarget =>
  cases hok
  rw [not_or, not_not] at hrevoked
  exact
    { byRegistration := (h.of_owner _ _ hfound).2
      byPrincipal := hfound
      registrationRef := rfl
      principalRef := not_not.mp hmatch
      active := hrevoked.2
      unrevoked := hrevoked.1
      unexpired := Bool.eq_false_iff.mpr hexpired
      operation := not_not.mp hoperation
      targetUser := not_not.mp htarget }

theorem holdsGrant_of_resolve {authority : Nat} (h : ∀ state ∈ world.authorities, state.Inverse)
    (hok : resolve host now world authority input = .ok binding) :
    contextFieldsMatchBinding binding.context binding = true ∧
      ∃ state registration, world.authorities[authority]? = some state ∧
        HoldsGrant host now state binding registration := by
  unfold resolve at hok
  split at hok
  · cases hok
  next state hstate =>
  split at hok
  · cases hok
  next registration principalRef operation userId hadmit =>
  cases hok
  refine ⟨by simp [contextFieldsMatchBinding, buildContext], state, registration, hstate, ?_⟩
  exact holdsGrant_of_admitted (h state (List.mem_of_getElem? hstate)) authority hadmit

/-- A lineage is minted for a context of the authority, which is granted what it is bound to. -/
theorem holdsGrant_of_mint {authority : Nat} {context : Option (Presented ProcessingPolicyContext)}
    {delivery : Delivery} {minted : MintedProcessingLineageBinding}
    (h : ∀ state ∈ world.authorities, state.Inverse)
    (hok : mintProcessingLineage host now world authority context delivery = .ok minted) :
    minted.contextBinding ∈ world.contexts ∧
      ∃ state registration, world.authorities[minted.state]? = some state ∧
        HoldsGrant host now state minted.contextBinding registration := by
  unfold mintProcessingLineage at hok
  split at hok
  · cases hok
  next state binding hcontext =>
  split at hok
  · cases hok
  next hcurrent =>
  split at hok
  · cases hok
  split at hok
  · cases hok
  split at hok
  · cases hok
    obtain ⟨state', hstate', hbound⟩ := Option.bind_eq_some_iff.mp hcontext
    obtain ⟨binding', hbinding', hpair⟩ := Option.map_eq_some_iff.mp hbound
    cases hpair
    have htrusted := (Option.filter_eq_some_iff.mp (Option.filter_eq_some_iff.mp hbinding').1).1
    obtain ⟨object, -, hplace⟩ := Option.bind_eq_some_iff.mp htrusted
    obtain ⟨place, -, hmade⟩ := Option.bind_eq_some_iff.mp hplace
    obtain ⟨registration, hholds⟩ :=
      holdsGrant_of_current (h _ (List.mem_of_getElem? hstate')) hcurrent
    exact ⟨List.mem_of_getElem? hmade, _, registration, hstate', hholds⟩
  · cases hok

end Producer

/-! ### What a consumer is granted -/

section
variable {host : Host} {now : Int}

theorem consumerHoldsGrant_of_current {state : ConsumerAuthorityState}
    {context bound : ConsumerDeliveryContext} (h : state.Inverse)
    (hcurrent : currentContextRefusal host now state context bound = none) :
    ∃ registration, ConsumerHoldsGrant host now state bound registration := by
  unfold currentContextRefusal at hcurrent
  split at hcurrent
  · cases hcurrent
  next registration hfound =>
  split at hcurrent
  · cases hcurrent
  next hmatch =>
  split at hcurrent
  · cases hcurrent
  split at hcurrent
  · cases hcurrent
  next hconsumer =>
  split at hcurrent
  · cases hcurrent
  next hrevoked =>
  split at hcurrent
  · cases hcurrent
  next hexpired =>
  split at hcurrent
  · cases hcurrent
  next hoperation =>
  split at hcurrent
  · cases hcurrent
  next htarget =>
  split at hcurrent
  · cases hcurrent
  next htier =>
  rw [not_or, not_not, not_not] at hmatch
  rw [not_or, not_or, not_not, not_not, not_not] at hconsumer
  rw [not_or, not_not] at hrevoked
  refine ⟨registration, ?_⟩
  exact
    { byRegistration := hfound
      byPrincipal := hmatch.2 ▸ (h.of_name _ _ hfound).2
      registrationRef := hmatch.1
      principalRef := hmatch.2
      consumer := hconsumer
      active := hrevoked.2
      unrevoked := hrevoked.1
      unexpired := Bool.eq_false_iff.mpr hexpired
      operation := not_not.mp hoperation
      targetUser := not_not.mp htarget
      tier := not_not.mp htier }

/-- A context that has a grant is one of the authority's, and the authority grants what it is bound
to. -/
theorem consumerHoldsGrant_of_grant {world : ConsumerWorld} {authority : ConsumerAuthorityRef}
    {context : Option ContextObject} {grant : CurrentConsumerDeliveryGrant}
    (h : ∀ state ∈ world.authorities, state.Inverse)
    (hok : getCurrentConsumerDeliveryGrant host now world.stateOf (authority.state? world) context =
      .ok grant) :
    ∃ index object bound state registration, authority = .created index ∧ context = some object ∧
      object.binding = some ⟨index, bound⟩ ∧ object.fields = bound ∧
      world.authorities[index]? = some state ∧
      ConsumerHoldsGrant host now state bound registration := by
  unfold getCurrentConsumerDeliveryGrant at hok
  split at hok
  · cases hok
  next binding fields hbound =>
  unfold bindingForContext at hbound
  split at hbound
  · cases hbound
  next index hindex =>
  -- only an authority made here has a state
  obtain ⟨rfl, hlt⟩ : authority = .created index ∧ index < world.authorities.length := by
    cases authority with
    | created place =>
        change (if place < world.authorities.length then some place else none) = some index at hindex
        split at hindex
        · next hlt =>
            cases hindex
            exact ⟨rfl, hlt⟩
        · cases hindex
    | foreign resolve => cases hindex
  split at hbound
  · cases hbound
  next object place hobject =>
  split at hbound
  · cases hbound
  next hstate =>
  split at hbound
  · cases hbound
  next hfields =>
  split at hbound
  · cases hbound
  next hcurrent =>
  rw [not_not] at hstate hfields
  obtain ⟨object', hcontext, hplace⟩ := Option.bind_eq_some_iff.mp hobject
  obtain ⟨place', hbinding, hpair⟩ := Option.map_eq_some_iff.mp hplace
  cases hpair
  have hget : world.authorities[index]? = some (world.stateOf index) := by
    rw [ConsumerWorld.stateOf, List.getD_eq_getElem?_getD, List.getElem?_eq_getElem hlt]
    rfl
  obtain ⟨registration, hholds⟩ :=
    consumerHoldsGrant_of_current (h _ (List.mem_of_getElem? hget)) hcurrent
  refine ⟨index, object, place.bound, _, registration, rfl, hcontext, ?_, hfields, hget, hholds⟩
  rw [hbinding, ← hstate]

/-- A consumer admitted by an authority made here is bound to what the server set. -/
theorem bound_of_resolve {world : ConsumerWorld} {input : ConsumerAdmissionInput} {index place : Nat}
    {object : ContextObject} {bound : ConsumerDeliveryContext}
    (hok : (ConsumerAuthorityRef.created index).resolve host now world input = .ok (some object))
    (hbinding : object.binding = some ⟨place, bound⟩) :
    world.trustedPrincipal input.principal = some bound.principalRef ∧
      world.trustedOperation input.operation = some bound.operation ∧
      world.trustedTargetUser input.targetUser = some bound.targetUserId ∧
      world.trustedTier input.tier = some bound.tier := by
  simp only [ConsumerAuthorityRef.resolve] at hok
  split at hok
  · cases hok
  next state hstate =>
  split at hok
  · cases hok
  next context hadmit =>
  cases hok
  cases hbinding
  unfold ConsumerWorld.admitted at hadmit
  split at hadmit
  · cases hadmit
  split at hadmit
  · cases hadmit
  next ref hprincipal =>
  split at hadmit
  · cases hadmit
  split at hadmit
  · cases hadmit
  · cases hadmit
  · cases hadmit
  next user op tier huser hop htier =>
  split at hadmit
  · cases hadmit
  split at hadmit
  · cases hadmit
  split at hadmit
  · cases hadmit
  split at hadmit
  · cases hadmit
  split at hadmit
  · cases hadmit
  split at hadmit
  · cases hadmit
  split at hadmit
  · cases hadmit
  split at hadmit
  · cases hadmit
  cases hadmit
  exact ⟨hprincipal, hop, huser, htier⟩

end

/-! ### When a lineage was minted -/

namespace PolicyWorld
variable {host : Host}

/-- A call of the run minted the lineage, and the authority granted then what it is bound to. -/
def MintedAt (host : Host) (events : List PolicyEvent)
    (minted : Producer.MintedProcessingLineageBinding) : Prop :=
  ∃ before after authority context delivery state registration,
    events = before ++ .producer (.mint authority context delivery) :: after ∧
      Producer.mintProcessingLineage host (run host before).now (run host before).producer authority
        context delivery = .ok minted ∧
      (run host before).producer.authorities[minted.state]? = some state ∧
      Producer.HoldsGrant host (run host before).now state minted.contextBinding registration

theorem run_concat (events : List PolicyEvent) (event : PolicyEvent) :
    run host (events ++ [event]) = (run host events).step host event := by
  rw [run, List.foldl_append]
  rfl

theorem MintedAt.append {events : List PolicyEvent}
    {minted : Producer.MintedProcessingLineageBinding} (h : MintedAt host events minted)
    (more : List PolicyEvent) : MintedAt host (events ++ more) minted := by
  obtain ⟨before, after, authority, context, delivery, state, registration, rfl, hrest⟩ := h
  refine ⟨before, after ++ more, authority, context, delivery, state, registration, ?_, hrest⟩
  rw [List.append_assoc, List.cons_append]

/-- The objects made in a run: contexts say what they are bound to, and minted lineages are bound to
contexts made here. -/
structure MadeHere (host : Host) (events : List PolicyEvent) : Prop where
  contexts : ∀ binding ∈ (run host events).producer.contexts,
    Producer.contextFieldsMatchBinding binding.context binding = true
  minted : ∀ minted ∈ (run host events).producer.minted,
    MintedAt host events minted ∧
      Producer.contextFieldsMatchBinding minted.contextBinding.context minted.contextBinding = true

/-- **Every lineage minted was granted when it was minted.** -/
theorem madeHere_run (host : Host) (events : List PolicyEvent) : MadeHere host events := by
  induction events using List.reverseRecOn with
  | nil => exact ⟨by simp [run], by simp [run]⟩
  | append_singleton events event ih =>
      have hinverse := (registriesInverse_run host events).producer
      have hminted : ∀ minted ∈ (run host events).producer.minted,
          MintedAt host (events ++ [event]) minted ∧
            Producer.contextFieldsMatchBinding minted.contextBinding.context
              minted.contextBinding = true :=
        fun minted h => ⟨(ih.minted minted h).1.append _, (ih.minted minted h).2⟩
      -- what is not a context or a minted lineage leaves both as they were
      have hkeep : (run host (events ++ [event])).producer.contexts =
            (run host events).producer.contexts →
          (run host (events ++ [event])).producer.minted = (run host events).producer.minted →
          MadeHere host (events ++ [event]) := fun hcontexts hmint =>
        ⟨by rw [hcontexts]; exact ih.contexts, by rw [hmint]; exact hminted⟩
      rw [run_concat] at hkeep
      cases event with
      | clock now => exact hkeep rfl rfl
      | consumer event => exact hkeep rfl rfl
      | producer event =>
          cases event with
          | principal principalRef =>
              simp only [step, Producer.ProducerWorld.step] at hkeep
              split at hkeep <;> exact hkeep rfl rfl
          | targetUser userId =>
              simp only [step, Producer.ProducerWorld.step] at hkeep
              split at hkeep <;> exact hkeep rfl rfl
          | operation operation => exact hkeep rfl rfl
          | register registrations => exact hkeep rfl rfl
          | revoke authority registrationRef => exact hkeep rfl rfl
          | remove authority registrationRef => exact hkeep rfl rfl
          | replace authority registration => exact hkeep rfl rfl
          | evidence authority context => exact hkeep rfl rfl
          | resolve authority input =>
              refine ⟨?_, ?_⟩
              · rw [run_concat]
                exact forall_appendOk ih.contexts fun binding hok =>
                  (Producer.holdsGrant_of_resolve hinverse hok).1
              · rw [run_concat]
                exact hminted
          | mint authority context delivery =>
              refine ⟨by rw [run_concat]; exact ih.contexts, ?_⟩
              rw [run_concat]
              refine forall_appendOk hminted fun minted hok => ?_
              obtain ⟨hcontext, state, registration, hstate, hholds⟩ :=
                Producer.holdsGrant_of_mint hinverse hok
              refine ⟨?_, ih.contexts _ hcontext⟩
              exact ⟨events, [], authority, context, delivery, state, registration, rfl, hok, hstate,
                hholds⟩

/-! ### Over every run -/

/-- **Admission is sound.**  After any run of calls the two maps of every authority are inverse to
one another.  A callback that a minted lineage lets run is run while its authority grants what the
lineage was minted for, as it did then; so is one that an admission lets run.  And a value is
released to a consumer, whatever was called while its callback ran, while the consumer's authority
grants what the consumer was admitted for. -/
theorem admission_sound (host : Host) (events : List PolicyEvent) :
    (run host events).RegistriesInverse ∧
      (∀ authority token expected lineage context,
        Producer.runWithMintedProcessingLineage host (run host events).now
            (run host events).producer authority token expected = .ok (lineage, context) →
          ∃ state minted registration,
            (run host events).producer.authorities[authority]? = some state ∧
            Presented.get? token (run host events).producer.minted = some minted ∧
            MintedAt host events minted ∧
            Producer.HoldsGrant host (run host events).now state minted.contextBinding
              registration ∧
            Producer.contextFieldsMatchBinding context minted.contextBinding = true ∧
            lineage.admittedOperation = minted.contextBinding.operation ∧
            lineage.targetUserId = minted.contextBinding.targetUserId) ∧
      (∀ authority input binding,
        Producer.runWithProducerAdmission host (run host events).now (run host events).producer
            authority input = .ok binding →
          ∃ state registration,
            (run host events).producer.authorities[authority]? = some state ∧
            Producer.HoldsGrant host (run host events).now state binding registration ∧
            Producer.contextFieldsMatchBinding binding.context binding = true) ∧
      ∀ authority input context initialGrant meanwhile grant,
        beginConsumerAdmission host (run host events).now (run host events).consumer authority
            input = .ok (context, initialGrant) →
          releaseConsumerValue host (run host (events ++ meanwhile)).now
              (run host (events ++ meanwhile)).consumer authority context initialGrant =
            .ok grant →
          ∃ index object bound state registration,
            authority = .created index ∧ context = some object ∧ object.fields = bound ∧
            (run host (events ++ meanwhile)).consumer.authorities[index]? = some state ∧
            ConsumerHoldsGrant host (run host (events ++ meanwhile)).now state bound
              registration ∧
            (run host events).consumer.trustedPrincipal input.principal =
              some bound.principalRef ∧
            (run host events).consumer.trustedOperation input.operation = some bound.operation ∧
            (run host events).consumer.trustedTargetUser input.targetUser =
              some bound.targetUserId ∧
            (run host events).consumer.trustedTier input.tier = some bound.tier := by
  have hinverse := registriesInverse_run host events
  refine ⟨hinverse, ?_, ?_, ?_⟩
  · intro authority token expected lineage context hok
    unfold Producer.runWithMintedProcessingLineage at hok
    split at hok
    · next state minted hstate hminted =>
        split at hok
        · cases hok
        split at hok
        · cases hok
        next hcurrent =>
        split at hok
        · cases hok
        next hlineage =>
        cases hok
        rw [not_or, not_or, not_not, not_not] at hlineage
        obtain ⟨registration, hholds⟩ := Producer.holdsGrant_of_current
          (hinverse.producer state (List.mem_of_getElem? hstate)) hcurrent
        obtain ⟨object, -, hplace⟩ := Option.bind_eq_some_iff.mp hminted
        obtain ⟨place, -, hmade⟩ := Option.bind_eq_some_iff.mp hplace
        obtain ⟨hat, hmatch⟩ := (madeHere_run host events).minted _ (List.mem_of_getElem? hmade)
        exact ⟨state, minted, registration, hstate, hminted, hat, hholds, hmatch, hlineage.2.1,
          hlineage.1⟩
    · cases hok
  · intro authority input binding hok
    obtain ⟨hmatch, state, registration, hstate, hholds⟩ :=
      Producer.holdsGrant_of_resolve hinverse.producer hok
    exact ⟨state, registration, hstate, hholds, hmatch⟩
  · intro authority input context initialGrant meanwhile grant hbegin hrelease
    unfold releaseConsumerValue at hrelease
    split at hrelease
    · cases hrelease
    next currentGrant hgrant =>
    obtain ⟨index, object, bound, state, registration, rfl, rfl, hbinding, hfields, hstate, hholds⟩ :=
      consumerHoldsGrant_of_grant (registriesInverse_run host (events ++ meanwhile)).consumer hgrant
    unfold beginConsumerAdmission at hbegin
    split at hbegin
    · cases hbegin
    next admitted hresolve =>
    split at hbegin
    · cases hbegin
    cases hbegin
    obtain ⟨hprincipal, hoperation, htarget, htier⟩ := bound_of_resolve hresolve hbinding
    exact ⟨index, object, bound, state, registration, rfl, rfl, hfields, hstate, hholds, hprincipal,
      hoperation, htarget, htier⟩

/-! ### A capture and a recall -/

section

/-- A producer that may capture for the owner. -/
def captureRegistration : Producer.TrustedProducerRegistration where
  registrationRef := "registration"
  principalRef := "producer"
  authorizedOperations := [.captureIngest]
  authorizedTargetUsers := ["owner"]

def captureInput : Producer.ProducerAdmissionInput where
  principal := some ⟨⟨"producer", "server"⟩, some 0⟩
  operation := some ⟨"capture_ingest", some 0⟩
  targetUser := some ⟨"owner", some 0⟩

/-- The first context made, as the server keeps it. -/
def captureContext : Option (Presented Producer.ProcessingPolicyContext) :=
  some
    { fields :=
        { principalRef := "producer"
          registrationRef := "registration"
          origin := Producer.minniOrigin
          policyVersion := Producer.minniProcessingPolicyVersion
          operation := .captureIngest
          targetUserId := "owner"
          mode := "local-only"
          lineageState := "minni_verified" }
      identity := some 0 }

def captureEvents : List PolicyEvent :=
  [.producer (.principal "producer"), .producer (.targetUser "owner"),
    .producer (.operation .captureIngest), .producer (.register [captureRegistration]),
    .producer (.resolve 0 captureInput), .producer (.mint 0 captureContext .synthetic)]

/-- The callback of the lineage minted, after these calls. -/
def captureCallback : Except Producer.ProducerAdmissionRefusalReason
    (ProcessingLineageV1 × Producer.ProcessingPolicyContext) :=
  Producer.runWithMintedProcessingLineage .ascii (run .ascii captureEvents).now
    (run .ascii captureEvents).producer 0 (some ⟨(), some 0⟩) {}

theorem isOk_captureCallback : captureCallback.toBool = true := by decide +kernel

theorem admission_sound_capture :
    ∃ state minted registration,
      (run .ascii captureEvents).producer.authorities[0]? = some state ∧
        Producer.HoldsGrant .ascii (run .ascii captureEvents).now state
          (Producer.MintedProcessingLineageBinding.contextBinding minted) registration := by
  cases hcallback : captureCallback with
  | error reason =>
      have hok := isOk_captureCallback
      rw [hcallback] at hok
      cases hok
  | ok called =>
      obtain ⟨state, minted, registration, hstate, -, -, hholds, -⟩ :=
        (admission_sound .ascii captureEvents).2.1 0 (some ⟨(), some 0⟩) {} called.1 called.2
          hcallback
      exact ⟨state, minted, registration, hstate, hholds⟩

end

end PolicyWorld

end Runir
