import Runir.Writes.Resolve

/-!
# Writes — Atomic shadow

`computeAtomicIsolatedEvaluation` of `src/storage/writes/atomic-shadow.ts`: what arbitration
would have decided with the atomic fact as a proof, and what it would have nominated on the way.

* `isolatedInput`: the applied parameters, with the atomic proof allowed, at the lane clock.
* `nominations`: the eligible candidates whose text changes value, labelled by what became of
  them.
* `activationClass`: whether the attempt is recorded, and as what.
-/

namespace Runir

inductive AtomicShadowActivationClass where
  | safetyActivation | efficacyOnly | computationFailed
  deriving DecidableEq

inductive AtomicNominationDisposition where
  | provenRetired | unprovenBlocked | anchorVetoed | guardKeptBoth | provenNotSelected
  deriving DecidableEq

/-- A candidate as it stood when it was nominated. -/
structure AtomicCandidateSnapshot where
  id : String
  text : String
  tags : Option (List String)
  atomicFact : Option Value
  tier : Option String
  validAt : Option String
  createdAt : String
  referentKeys : ReferentKeys
  deriving DecidableEq

structure CanonicalTriple where
  subject : String
  predicate : String
  value : String
  deriving DecidableEq

structure AtomicIncomingSnapshot where
  text : String
  tags : Option (List String)
  atomicFact : Option Value
  canonicalIdentity : Option String
  canonicalTriple : Option CanonicalTriple
  tier : Option String
  validAt : Option String
  deriving DecidableEq

structure AtomicNominationRecord where
  nominationCandidateId : String
  snapshot : AtomicCandidateSnapshot
  disposition : AtomicNominationDisposition
  selectedCandidateId : Option String := none
  selectedSignal : Option SupersedeSignal := none
  deriving DecidableEq

structure AtomicIsolatedEvaluation where
  isolatedDecision : ArbitrationDecision
  /-- The outcome is `judge`. -/
  isolatedUnresolved : Bool
  nominations : List AtomicNominationRecord
  activationClass : Option AtomicShadowActivationClass
  retiredCandidateId : Option String
  incomingSnapshot : AtomicIncomingSnapshot
  candidateSnapshot : Option AtomicCandidateSnapshot
  laneClockMs : Int
  deriving DecidableEq

section
variable (host : Host) (wall : WallClock)

/-- The parameters of the applied lane, except that the atomic fact may prove and every check of
recency reads the lane clock. -/
def isolatedInput (applied : ResolveInput) : ResolveInput :=
  { applied with atomicAuthority := true, withinHoursNowMs := some applied.laneClockMs }

def isEligible (applied : ResolveInput) (candidate : SimilarCandidate) : Bool :=
  if candidate.similarity < applied.config.supersedeFloor then false
  else if !withinHours host candidate applied.config.mergeWindowHours applied.laneClockMs then false
  else !areAnswerDistinctTexts host candidate.l2 applied.text

def snapshotCandidateAtomic (c : SimilarCandidate) : AtomicCandidateSnapshot where
  id := c.id
  text := c.l2
  tags := c.tags
  atomicFact := c.atomicFact.filter Value.truthy
  tier := c.tier
  validAt := c.validAt
  createdAt := c.createdAt
  referentKeys := candidateReferentKeys host c

/-- The canonical parts of an identity with the raw value of the fact it came from. -/
def canonicalTriple (identity : Option String) (fact : Option Value) : Option CanonicalTriple :=
  match identity, fact.bind (Value.prop? "value") with
  | some i, some (.str value) =>
      match Text.splitOn i '|' with
      | subject :: predicate :: _ => some ⟨subject, predicate, value⟩
      | _ => none
  | _, _ => none

def snapshotIncoming (applied : ResolveInput) (incomingAtomicFact : Option Value) :
    AtomicIncomingSnapshot where
  text := applied.text
  tags := applied.incomingTags
  atomicFact := incomingAtomicFact.filter fun fact => isAtomicFactObject (some fact)
  canonicalIdentity := atomicFactIdentity host incomingAtomicFact
  canonicalTriple :=
    canonicalTriple (atomicFactIdentity host incomingAtomicFact) incomingAtomicFact
  tier := applied.incomingTier
  validAt := applied.incomingValidAt

/-- The candidate an isolated decision retires, or keeps only because a guard withheld it. -/
def selectedId (isolated : ArbitrationDecision) : Option String :=
  if isolated.outcome = .supersede ∨ isolated.guardKeepBoth.isSome then
    isolated.candidate.map (·.id)
  else none

def selectedSignal (isolated : ArbitrationDecision) : Option SupersedeSignal :=
  if isolated.outcome = .supersede then isolated.supersedeSignal
  else isolated.guardKeepBoth.map (·.signal)

def nominationOf (applied : ResolveInput) (isolated : ArbitrationDecision)
    (candidate : SimilarCandidate) : AtomicNominationRecord :=
  let record := fun disposition =>
    { nominationCandidateId := candidate.id, snapshot := snapshotCandidateAtomic host candidate,
      disposition := disposition }
  match proveReferentIdentity host candidate.l2 applied.text (candidateReferentKeys host candidate)
      applied.incomingKeys true with
  | .conflict => record .anchorVetoed
  | .unproven => record .unprovenBlocked
  | .proven _ =>
      match selectedId isolated with
      | none => record .provenNotSelected
      | some selected =>
          if selected = candidate.id then
            record (if isolated.guardKeepBoth.isSome then .guardKeptBoth else .provenRetired)
          else
            { record .provenNotSelected with
              selectedCandidateId := some selected
              selectedSignal := selectedSignal isolated }

/-- The loop over the candidates; an id is nominated once. -/
def nominations (applied : ResolveInput) (isolated : ArbitrationDecision) (seenIds : List String) :
    List SimilarCandidate → List AtomicNominationRecord
  | [] => []
  | candidate :: rest =>
      if !isEligible host applied candidate || !wouldSupersedeTexts host candidate.l2 applied.text ||
          seenIds.contains candidate.id then
        nominations applied isolated seenIds rest
      else
        nominationOf host applied isolated candidate ::
          nominations applied isolated (candidate.id :: seenIds) rest

/-- The candidate the isolated lane retires and the applied lane does not. -/
def retiredCandidate (isolated appliedDecision : ArbitrationDecision) : Option String :=
  if isolated.outcome ≠ .supersede then none
  else
    (isolated.candidate.map (·.id)).filter fun target =>
      appliedDecision.outcome ≠ .supersede || appliedDecision.candidate.map (·.id) ≠ some target

def computeAtomicIsolatedEvaluation (applied : ResolveInput)
    (appliedDecision : ArbitrationDecision) (incomingAtomicFact : Option Value) :
    AtomicIsolatedEvaluation :=
  let isolated := resolveDecision host wall (isolatedInput applied)
  let noms := nominations host applied isolated [] applied.similarCandidates
  let retired := retiredCandidate isolated appliedDecision
  { isolatedDecision := isolated
    isolatedUnresolved := isolated.outcome = .judge
    nominations := noms
    activationClass :=
      if retired.isSome then some .safetyActivation
      else if noms.isEmpty then none
      else some .efficacyOnly
    retiredCandidateId := retired
    incomingSnapshot := snapshotIncoming host applied incomingAtomicFact
    candidateSnapshot := isolated.candidate.map (snapshotCandidateAtomic host)
    laneClockMs := applied.laneClockMs }

/-- `atomicPairKey`. -/
def atomicPairKey (writeEventId retiredCandidateId : String) : String :=
  writeEventId ++ "\x00" ++ retiredCandidateId

/-! ### Nominations -/

variable {host}

@[simp] theorem nominationOf_id (applied : ResolveInput) (isolated : ArbitrationDecision)
    (candidate : SimilarCandidate) :
    (nominationOf host applied isolated candidate).nominationCandidateId = candidate.id := by
  unfold nominationOf
  simp only
  split
  · rfl
  · rfl
  · split
    · rfl
    · split <;> rfl

/-- A candidate is nominated only if its id has not been seen. -/
theorem nominations_fresh {applied : ResolveInput} {isolated : ArbitrationDecision}
    {seenIds : List String} {candidates : List SimilarCandidate} {id : String}
    (h : id ∈ (nominations host applied isolated seenIds candidates).map
      (·.nominationCandidateId)) : id ∉ seenIds := by
  induction candidates generalizing seenIds with
  | nil => cases h
  | cons candidate rest ih =>
      rw [nominations] at h
      split at h
      · exact ih h
      · next hskip =>
          rw [List.map_cons, nominationOf_id] at h
          rcases List.mem_cons.mp h with rfl | hrest
          · intro hseen
            exact hskip (by simp [hseen])
          · exact fun hseen => ih hrest (List.mem_cons_of_mem _ hseen)

/-- **The manifest has no duplicates**, by construction. -/
theorem nominations_nodup (applied : ResolveInput) (isolated : ArbitrationDecision)
    (seenIds : List String) (candidates : List SimilarCandidate) :
    ((nominations host applied isolated seenIds candidates).map
      (·.nominationCandidateId)).Nodup := by
  induction candidates generalizing seenIds with
  | nil => exact List.nodup_nil
  | cons candidate rest ih =>
      rw [nominations]
      split
      · exact ih seenIds
      · rw [List.map_cons, nominationOf_id]
        refine List.nodup_cons.mpr ⟨fun h => ?_, ih _⟩
        -- its own id has been seen by the time the rest is looked at
        exact nominations_fresh h List.mem_cons_self

end

end Runir
