import Runir.Writes.Signals

/-!
# Writes — Resolve

`resolveDecision` of `src/storage/writes/write-arbitrator.ts`, with `src/shared/cosine.ts` and
`shadow-snapshots.ts`: the pure decision core, one definition for each pass over the candidates.

* Exact duplicates, then the correction pass (`findSupersedeTarget`), then the bands: recent
  near-duplicates, store near-duplicates, merge.
* A pass that returns early is a recursion over its list; what a `continue` captured for later
  is its accumulator.
* `withinHours` reads the wall clock at every call when no clock is injected, so the model takes
  a reading for each site and each position of the candidate list.
-/

namespace Runir

/-- The call sites of `withinHours`. -/
inductive ClockSite where
  | exactDup | correction | storeNearDup | mergeBand
  deriving DecidableEq

/-- The readings of `Date.now()`, by site and position. -/
abbrev WallClock := ClockSite → Nat → Int

/-- The parameters of `resolveDecision`, with their defaults. -/
structure ResolveInput where
  text : String
  recentCandidates : List RecentWrite
  similarCandidates : List SimilarCandidate
  embedding : List ℚ
  config : ArbitrationConfig
  incomingTags : Option (List String) := none
  judgeEnabled : Bool := false
  keepBothGuardEnabled : Bool := false
  temporalGuardEnabled : Bool := false
  incomingValidAt : Option String := none
  incomingTier : Option String := none
  arbitrationNowMs : Int := 0
  additiveSkipGuard : Bool := false
  cueGateParam : Bool := false
  incomingKeys : ReferentKeys := {}
  withinHoursNowMs : Option Int := none
  f2JudgeConfirm : Bool := false
  atomicAuthority : Bool := false
  laneClockMs : Int := 0
  f2RequireValueChange : Bool := false
  mergeKeepBothOnFusion : Bool := false
  deriving DecidableEq

def cosineSimilarity (host : Host) (a b : List ℚ) : ℚ :=
  if a.length = 0 ∨ b.length = 0 ∨ a.length ≠ b.length then 0
  else
    let dot := ((a.zip b).map fun (av, bv) => av * bv).sum
    let normA := (a.map fun av => av * av).sum
    let normB := (b.map fun bv => bv * bv).sum
    if normA = 0 ∨ normB = 0 then 0 else dot / (host.sqrt normA * host.sqrt normB)

def withinHours (host : Host) (candidate : SimilarCandidate) (maxHours : ℚ) (nowMs : Int) :
    Bool :=
  match host.dateParse (candidate.updatedAt.getD candidate.createdAt) with
  | none => false
  | some referenceMs => decide (((nowMs - referenceMs : Int) : ℚ) ≤ maxHours * 3600 * 1000)

/-- The three F2 signals. -/
def isF2SupersedeSignal (signal : Option SupersedeSignal) : Bool :=
  signal == some .extractorCorrectionSlot || signal == some .extractorCorrectionNamedValue ||
    signal == some .currentnessCueSlot

def snapshotCandidate (c : SimilarCandidate) (role : SnapshotRole := .matchedCandidate) :
    ShadowCandidateSnapshot :=
  ⟨some c.id, c.l2, c.tags, c.factKey, c.noemaClaimKey, c.atomicFact, role⟩

def snapshotRecentWrite (rw : RecentWrite) : ShadowCandidateSnapshot :=
  ⟨none, rw.text, none, none, none, none, .matchedCandidate⟩

/-- `cosine 0.xyz`, as the reasons print it. -/
def cosineText (similarity : ℚ) : String := "cosine " ++ Text.toFixed 3 similarity

section
variable (host : Host) (wall : WallClock) (input : ResolveInput)

/-- `nowMs ?? Date.now()`. -/
def ResolveInput.nowAt (site : ClockSite) (i : Nat) : Int :=
  input.withinHoursNowMs.getD (wall site i)

/-- The verdict on a candidate; the source computes it once and remembers it. -/
def referentOf (candidate : SimilarCandidate) : ReferentVerdict :=
  proveReferentIdentity host candidate.l2 input.text (candidateReferentKeys host candidate)
    input.incomingKeys input.atomicAuthority

/-- Recent writes carry no keys, so only anchors count. -/
def referentOfRecent (rw : RecentWrite) : ReferentVerdict :=
  proveReferentIdentity host rw.text input.text {} input.incomingKeys input.atomicAuthority

/-! ### Exact duplicates -/

def exactDupRecent : Option ArbitrationDecision :=
  if input.recentCandidates.any fun rw => rw.normalizedText = normalizeText host input.text then
    some { outcome := .skip, reason := "matched recent in-memory duplicate", band := some .exactDup }
  else none

def exactDupStore : Option ArbitrationDecision :=
  (input.similarCandidates.zipIdx.find? fun (candidate, i) =>
    normalizeText host candidate.l2 = normalizeText host input.text &&
      withinHours host candidate input.config.skipWindowHours
        (input.nowAt wall .exactDup i)).map fun (candidate, _) =>
    { outcome := .skip, candidate := some candidate,
      reason := "matched normalized duplicate in recent store window", band := some .exactDup }

/-! ### The correction pass -/

structure SupersedeTarget where
  candidate : SimilarCandidate
  signal : SupersedeSignal
  referentProof : Option ReferentProof
  deriving DecidableEq

/-- What the loop of `findSupersedeTarget` has found so far. -/
structure CorrectionPass where
  target : Option SupersedeTarget := none
  blockedNomination : Option String := none
  blockedNominationSnapshot : Option ShadowCandidateSnapshot := none
  correctionBandConflict : Option String := none
  correctionBandConflictSnapshot : Option ShadowCandidateSnapshot := none

/-- What the signals make of a candidate that no veto removed. -/
inductive Nomination where
  | retire (signal : SupersedeSignal) (referentProof : Option ReferentProof)
  | blocked
  | none

/-- F1 on a text value change, else F2 on tags.  F1 retires only on a proven referent. -/
def nominate (candidate : SimilarCandidate) : Nomination :=
  let referent := referentOf host input candidate
  let marker := hasCorrectionMarker host input.incomingTags
  let cueGate := input.cueGateParam && hasCurrentnessCue host input.text
  let tagDriveAllowed :=
    (marker || cueGate) && !conflictingSubjects host candidate.tags input.incomingTags
  let textValueChange := wouldSupersedeTexts host candidate.l2 input.text
  match textValueChange, referent with
  | true, .proven proof => .retire .deterministicText (some proof)
  | _, _ =>
      if textValueChange && !input.f2RequireValueChange then .blocked
      else if tagDriveAllowed && sharesSlotTags host candidate.tags input.incomingTags &&
          (marker || subjectsChanged host candidate.tags input.incomingTags) then
        .retire (if marker then .extractorCorrectionSlot else .currentnessCueSlot) none
      else if tagDriveAllowed && marker &&
          incomingNamesCandidateValue host candidate input.text input.incomingTags then
        .retire .extractorCorrectionNamedValue none
      else if textValueChange then .blocked
      else .none

/-- The better of the best target so far and a new one; the earlier one at a tie. -/
def betterTarget (best : Option SupersedeTarget) (new : SupersedeTarget) : SupersedeTarget :=
  match best with
  | none => new
  | some b => if b.candidate.similarity < new.candidate.similarity then new else b

/-- One candidate of the loop. -/
def correctionStep (pass : CorrectionPass) (entry : SimilarCandidate × Nat) : CorrectionPass :=
  let candidate := entry.1
  if candidate.similarity < input.config.supersedeFloor ∨
      withinHours host candidate input.config.mergeWindowHours
        (input.nowAt wall .correction entry.2) = false then pass
  else if areAnswerDistinctTexts host candidate.l2 input.text then pass
  else if referentOf host input candidate = .conflict then
    { pass with
      correctionBandConflict := pass.correctionBandConflict.or (some anchorConflict)
      correctionBandConflictSnapshot := pass.correctionBandConflictSnapshot.or
        (some (snapshotCandidate candidate .blockedNomination)) }
  else
    match nominate host input candidate with
    | .retire signal proof =>
        { pass with target := some (betterTarget pass.target ⟨candidate, signal, proof⟩) }
    | .blocked =>
        { pass with
          blockedNomination := pass.blockedNomination.or (some "deterministic_text:unproven")
          blockedNominationSnapshot := pass.blockedNominationSnapshot.or
            (some (snapshotCandidate candidate .blockedNomination)) }
    | .none => pass

def findSupersedeTarget : CorrectionPass :=
  input.similarCandidates.zipIdx.foldl (correctionStep host wall input) {}

/-- The create a supersede guard leaves in place of a retirement. -/
def keptBoth (why : String) (corrected : SupersedeTarget) : ArbitrationDecision where
  outcome := .create
  reason := "kept both (" ++ why ++ "; signal " ++ corrected.signal.text ++ ", " ++
    cosineText corrected.candidate.similarity ++ ")"
  band := some .correctionSupersede

/-- The same, where the guard unit of the atomic proof keeps the proof and the guard on record. -/
def guardKept (leg : GuardLeg) (guardName reason : String) (corrected : SupersedeTarget) :
    ArbitrationDecision :=
  { keptBoth (guardName ++ " guard: " ++ reason) corrected with
    candidate := some corrected.candidate
    referentVerdict := some .proven
    referentProof := some ReferentProof.atomicFactIdentity.text
    shadowCandidateSnapshot := some (snapshotCandidate corrected.candidate)
    guardKeepBoth := some ⟨leg, reason, corrected.signal⟩ }

/-- The guard unit of a retirement proven by the atomic fact alone, whatever the flags. -/
def atomicGuardUnit (corrected : SupersedeTarget) : Option ArbitrationDecision :=
  if corrected.referentProof ≠ some .atomicFactIdentity then none
  else
    match durableTransientKeepBothReason host corrected.candidate input.text
        input.incomingTier with
    | some reason => some (guardKept .durability "durability" reason corrected)
    | none =>
        match temporalOrderingKeepBothReason host corrected.candidate input.incomingValidAt
            input.laneClockMs with
        | some reason => some (guardKept .temporal "temporal-ordering" reason corrected)
        | none =>
            if occasionsDiffer host corrected.candidate.l2 input.text then
              some (guardKept .occasion "distinct-occasion" "same-type anchors differ" corrected)
            else none

/-- The gated guards: durability on every path, temporal ordering off the F1 path. -/
def temporalGuards (corrected : SupersedeTarget) : Option ArbitrationDecision :=
  if !input.temporalGuardEnabled then none
  else
    match durableTransientKeepBothReason host corrected.candidate input.text
        input.incomingTier with
    | some reason => some (keptBoth ("durability guard: " ++ reason) corrected)
    | none =>
        if corrected.signal = .deterministicText then none
        else
          (temporalOrderingKeepBothReason host corrected.candidate input.incomingValidAt
            input.arbitrationNowMs).map fun reason =>
              keptBoth ("temporal-ordering guard: " ++ reason) corrected

/-- The stamps of a retirement: proven, or the F2 exception. -/
def retire (corrected : SupersedeTarget) : ArbitrationDecision where
  outcome := .supersede
  candidate := some corrected.candidate
  reason := "superseded conflicting memory via " ++ corrected.signal.text ++ " (" ++
    cosineText corrected.candidate.similarity ++ ")"
  supersedeSignal := some corrected.signal
  band := some .correctionSupersede
  referentVerdict := some (if corrected.referentProof.isSome then .proven else .f2Exception)
  referentProof := some (match corrected.referentProof with
    | some proof => proof.text
    | none => "signal:" ++ corrected.signal.text)

/-- The escalation of an F2 target to the judge. -/
def escalateF2 (corrected : SupersedeTarget) : ArbitrationDecision where
  outcome := .judge
  candidate := some corrected.candidate
  reason := "escalated F2 " ++ corrected.signal.text ++ " to supersession judge confirm (" ++
    cosineText corrected.candidate.similarity ++ ")"
  supersedeSignal := some corrected.signal
  band := some .correctionSupersede
  referentVerdict := some .f2Exception
  referentProof := some ("signal:" ++ corrected.signal.text)
  shadowCandidateSnapshot := some (snapshotCandidate corrected.candidate)

def isProven : ReferentVerdict → Bool
  | .proven _ => true
  | _ => false

/-- What becomes of the target of the correction pass. -/
def resolveCorrected (corrected : SupersedeTarget) : ArbitrationDecision :=
  if input.f2RequireValueChange && isF2SupersedeSignal (some corrected.signal) &&
      !isProven (referentOf host input corrected.candidate) &&
      !wouldSupersedeTexts host corrected.candidate.l2 input.text then
    { keptBoth "F2 value-change guard: unproven referent and no text value change" corrected with
      shadowCandidateSnapshot := some (snapshotCandidate corrected.candidate) }
  else if input.f2JudgeConfirm && corrected.referentProof.isNone &&
      isF2SupersedeSignal (some corrected.signal) then
    escalateF2 corrected
  else
    match atomicGuardUnit host input corrected with
    | some decision => decision
    | none => (temporalGuards host input corrected).getD (retire corrected)

/-! ### The remaining bands -/

/-- How a band ends: with a decision, or passing on what it captured. -/
inductive BandExit (σ : Type) where
  | returned (decision : ArbitrationDecision)
  | passed (captured : σ)

/-- Band 3.  It captures the first recent write whose anchors conflict. -/
def recentBand (conflict : Option RecentWrite) : List RecentWrite → BandExit (Option RecentWrite)
  | [] => .passed conflict
  | candidate :: rest =>
      let similarity := cosineSimilarity host candidate.embedding input.embedding
      if similarity < input.config.skipThreshold then recentBand conflict rest
      else if areAnswerDistinctTexts host candidate.text input.text then recentBand conflict rest
      else if referentOfRecent host input candidate = .conflict then
        recentBand (conflict.or (some candidate)) rest
      else if input.additiveSkipGuard && isAdditiveContent host candidate.text input.text then
        .returned
          { outcome := .create,
            reason := "additive incoming kept (recent in-memory near-dup; " ++
              cosineText similarity ++ ")",
            band := some .recentNearDupSkip }
      else
        .returned
          { outcome := .skip,
            reason := "matched recent in-memory duplicate (" ++ cosineText similarity ++ ")",
            band := some .recentNearDupSkip }

/-- Band 4.  It captures the first stored candidate whose anchors conflict. -/
def storeBand (conflict : Option SimilarCandidate) :
    List (SimilarCandidate × Nat) → BandExit (Option SimilarCandidate)
  | [] => .passed conflict
  | (candidate, i) :: rest =>
      if candidate.similarity < input.config.skipThreshold ∨
          withinHours host candidate input.config.skipWindowHours
            (input.nowAt wall .storeNearDup i) = false then storeBand conflict rest
      else if areAnswerDistinctTexts host candidate.l2 input.text then storeBand conflict rest
      else if referentOf host input candidate = .conflict then
        storeBand (conflict.or (some candidate)) rest
      else if input.additiveSkipGuard && isAdditiveContent host candidate.l2 input.text then
        .returned
          { outcome := .create,
            reason := "additive incoming kept (store near-dup; " ++
              cosineText candidate.similarity ++ ")",
            band := some .storeNearDupSkip }
      else
        .returned
          { outcome := .skip, candidate := some candidate,
            reason := "skipped similar recent memory (" ++ cosineText candidate.similarity ++ ")",
            band := some .storeNearDupSkip }

/-- The creates of the merge band. -/
def mergeKept (why : String) (candidate : SimilarCandidate) : ArbitrationDecision where
  outcome := .create
  reason := "kept both (" ++ why ++ "; " ++ cosineText candidate.similarity ++ ")"
  band := some .mergeBand

/-- What the merge band does with a candidate in its window, `none` when it breaks off. -/
def mergeCandidate (candidate : SimilarCandidate) : Option ArbitrationDecision :=
  let normalizedText := normalizeText host input.text
  let candidateNorm := normalizeText host candidate.l2
  let mergedText := buildMergedText host candidate.l2 input.text
  let markerPresent := hasCorrectionMarker host input.incomingTags
  let skip := fun reason =>
    { outcome := .skip, candidate := some candidate, reason := reason, band := some .mergeBand }
  if referentOf host input candidate = .conflict then
    some { mergeKept ("referent-anchor-conflict: " ++ anchorConflict) candidate with
      referentVerdict := some .conflict
      referentProof := some anchorConflict
      shadowCandidateSnapshot := some (snapshotCandidate candidate) }
  else if Text.includes candidateNorm normalizedText then
    some (skip "existing memory already contains incoming detail")
  else if input.mergeKeepBothOnFusion && !Text.includes normalizedText candidateNorm then
    some { mergeKept "merge fusion guard: neither text contains the other" candidate with
      shadowCandidateSnapshot := some (snapshotCandidate candidate) }
  else if normalizeText host mergedText = candidateNorm then
    some (skip "merge candidate resolved to existing memory text")
  else
    match (if input.temporalGuardEnabled then
        durableTransientKeepBothReason host candidate input.text input.incomingTier else none) with
    | some reason => some (mergeKept ("merge-band durability guard: " ++ reason) candidate)
    | none =>
        if !markerPresent && input.judgeEnabled &&
            isJudgeWorthy host candidate input.text input.incomingTags then
          some
            { outcome := .judge, candidate := some candidate,
              reason := "escalated to LLM supersession judge (" ++
                cosineText candidate.similarity ++ ")",
              band := some .mergeBand }
        else if markerPresent then none
        else
          match (if input.keepBothGuardEnabled then
              mergeKeepBothReason host candidate input.text input.incomingTags else none) with
          | some reason =>
              some { mergeKept ("merge-band keep-both guard: " ++ reason) candidate with
                shadowCandidateSnapshot := some (snapshotCandidate candidate) }
          | none =>
              some
                { outcome := .mergeUpdate, candidate := some candidate,
                  mergedText := some mergedText,
                  reason := "merged into recent similar memory (" ++
                    cosineText candidate.similarity ++ ")",
                  band := some .mergeBand }

/-- Band 5: the first candidate in its window that is not answer-distinct settles the band. -/
def mergeBand : List (SimilarCandidate × Nat) → Option ArbitrationDecision
  | [] => none
  | (candidate, i) :: rest =>
      if candidate.similarity < input.config.mergeThreshold ∨
          withinHours host candidate input.config.mergeWindowHours
            (input.nowAt wall .mergeBand i) = false then mergeBand rest
      else if areAnswerDistinctTexts host candidate.l2 input.text then mergeBand rest
      else mergeCandidate host input candidate

/-- The create that reports a veto no later band absorbed. -/
def vetoed (bandName : String) (band : Band) (snapshot : ShadowCandidateSnapshot) :
    ArbitrationDecision where
  outcome := .create
  reason := "kept both (referent-anchor-conflict: " ++ anchorConflict ++ "; " ++ bandName ++
    " veto)"
  band := some band
  referentVerdict := some .conflict
  referentProof := some anchorConflict
  shadowCandidateSnapshot := some snapshot

/-- The create that remains when no band returned. -/
def fallThrough (recentConflict : Option RecentWrite) (storeConflict : Option SimilarCandidate) :
    ArbitrationDecision :=
  match recentConflict, storeConflict with
  | some rw, _ => vetoed "recent-band" .recentNearDupSkip (snapshotRecentWrite rw)
  | none, some c => vetoed "store-near-dup-skip" .storeNearDupSkip (snapshotCandidate c)
  | none, none =>
      { outcome := .create,
        reason :=
          if hasCorrectionMarker host input.incomingTags then
            "tagged correction with no compatible supersede target — " ++
              "created to avoid compound merge"
          else "no recent duplicate or merge candidate found",
        band := some .create }

def resolveRemainingBands : ArbitrationDecision :=
  match recentBand host input none input.recentCandidates with
  | .returned decision => decision
  | .passed recentConflict =>
      match storeBand host wall input none input.similarCandidates.zipIdx with
      | .returned decision => decision
      | .passed storeConflict =>
          (mergeBand host wall input input.similarCandidates.zipIdx).getD
            (fallThrough host input recentConflict storeConflict)

/-- The stamps of the correction pass on a decision of a later band, where that band left the
fields empty. -/
def stampCorrection (pass : CorrectionPass) (decision : ArbitrationDecision) :
    ArbitrationDecision :=
  { decision with
    blockedNomination := pass.blockedNomination.or decision.blockedNomination
    shadowCandidateSnapshot := decision.shadowCandidateSnapshot.or
      (pass.correctionBandConflictSnapshot.or pass.blockedNominationSnapshot)
    referentVerdict := decision.referentVerdict.or
      (pass.correctionBandConflict.map fun _ => .conflict)
    referentProof :=
      if decision.referentVerdict.isNone && pass.correctionBandConflict.isSome then
        pass.correctionBandConflict
      else decision.referentProof }

def resolveDecision : ArbitrationDecision :=
  match (exactDupRecent host input).or (exactDupStore host wall input) with
  | some decision => decision
  | none =>
      let pass := findSupersedeTarget host wall input
      match pass.target with
      | some corrected => resolveCorrected host input corrected
      | none => stampCorrection pass (resolveRemainingBands host wall input)

end

end Runir
