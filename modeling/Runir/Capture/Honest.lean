import Runir.Capture.Request
import Runir.Capture.SpoolMoves

/-!
# Capture — Extracted means extracted

When a turn id enters the extracted set of the spool.

* `Completes`: the request gets as far as the commit of the turns its extraction completes.
* `handle_left`: what the handler leaves, whichever way it ends.
* `hooksCapture_honest`: a reply that was not received, or has no array of facts, is taken for one
  without facts; and of two messages with one turn id the one that was not shown may be recorded.
-/

namespace Runir
open Attempt

/-! ### The marker of an id -/

namespace SpoolIndex

/-- The last turn of an id is the one that is recorded. -/
theorem get?_foldl_recordExtracted (turns : List SourceTurn) (s : SpoolIndex) (id : String) :
    (turns.foldl recordExtracted s).extracted.get? id =
      ((turns.reverse.find? fun turn => decide (turn.id = id)).map markerOf).or
        (s.extracted.get? id) := by
  induction turns generalizing s with
  | nil => rfl
  | cons turn turns ih =>
      rw [List.foldl_cons, ih, List.reverse_cons, List.find?_append, recordExtracted,
        OrdMap.get?_set]
      cases turns.reverse.find? fun turn => decide (turn.id = id) with
      | some last => rfl
      | none =>
          by_cases hid : turn.id = id
          · rw [if_pos hid.symm, Option.none_or, List.find?_singleton, if_pos (decide_eq_true hid)]
            rfl
          · rw [if_neg (Ne.symm hid), Option.none_or, List.find?_singleton,
              if_neg (fun h => hid (of_decide_eq_true h))]

end SpoolIndex

/-- What `commitCapture` leaves of an id: the marker of the last turn that is completed, where the
append goes through. -/
theorem get?_commitCapture (fmt : LineFormat SpoolEntry UInt8) (turns completed : List SourceTurn)
    (queuedAt : String) (outcome : AppendOutcome) (s : Spool) (id : String) :
    (commitCapture fmt turns completed queuedAt outcome s).1.index.extracted.get? id =
      if s.appends outcome then
        (((s.index.captureMarkers completed).reverse.find? fun turn => decide (turn.id = id)).map
          SpoolIndex.markerOf).or (s.index.extracted.get? id)
      else s.index.extracted.get? id := by
  unfold commitCapture
  simp only
  cases happends : s.appends outcome with
  | true =>
      rw [Spool.write_appends fmt happends, if_pos rfl, SpoolIndex.get?_foldl_recordExtracted,
        recordPuts_extracted]
      intro hnil
      obtain ⟨hputs, hmarkers⟩ := List.append_eq_nil_iff.mp hnil
      rw [List.map_eq_nil_iff.mp hputs, List.map_eq_nil_iff.mp hmarkers]
      rfl
  | false =>
      obtain ⟨-, hindex, -⟩ := Spool.write_fails fmt happends
        (putLines queuedAt (s.index.capturePuts turns) ++
          markerLines (s.index.captureMarkers completed))
        fun positions index => (s.index.captureMarkers completed).foldl SpoolIndex.recordExtracted
          (recordPuts queuedAt (s.index.capturePuts turns) positions index)
      rw [hindex, if_neg Bool.false_ne_true]

namespace CaptureEnv
variable (env : CaptureEnv)

/-! ### How far a request gets -/

/-- What comes before the sources goes through. -/
structure Bound : Prop where
  given : env.messagesGiven = true
  context : env.raises .resolveContext = false
  formatted : env.formatted ≠ []
  redactable : env.redactable = true
  session : env.raises .resolveSession = false
  hexis : env.raises .resolveHexis = false
  parsed : env.receiptRequested = true → env.raises .parseReceipt = false
  built : env.raises .buildContext = false
  validated : env.receiptRequested = true → env.raises .validateReceipt = false
  compresses : env.raises .compress = false

/-- The sources are reserved. -/
structure Sourced : Prop where
  key : env.raises .fingerprint = false
  seeded : env.raises .seedKnownIds = false
  looked : env.raises .seenCandidates = false
  rows : env.prepared.any (fun p => env.isUnresolved p.2) = true → env.raises .readRows = false
  fresh : env.allCaptured = false
  reserved : env.raises .reserve = false

/-- The model is asked. -/
structure Asked : Prop where
  salience : env.raises .salience = false
  apiKey : env.apiKey = true
  heard : env.isNoise = false

/-- The write loop gets through a fact. -/
def RoundEnds (entry : (FactObject × Option ℚ) × Nat) : Prop :=
  env.isRejected entry.1.1 = false → env.raises (.arbitrate entry.2) = false ∧
    (env.isDerived entry.2 = true → env.raises (.relate entry.2) = false)

/-- The facts are written, every one of them. -/
structure Written (facts : List (FactObject × Option ℚ)) : Prop where
  dedup : env.raises .dedup = false
  shown : env.shownIds = true → env.raises .readShown = false
  rounds : ∀ entry ∈ env.filteredFacts facts, env.RoundEnds entry
  projected : env.raises .projectState = false
  linked : env.debug = true → env.raises .linkEntities = false

/-- The request gets to the commit of the turns its extraction completes. -/
structure Completes : Prop where
  bound : env.Bound
  sourced : env.Sourced
  asked : env.Asked
  redacted : ∃ facts, env.rawFacts = some facts ∧ (facts ≠ [] → env.Written facts)
  receipt : env.receiptRequested = true → env.raises .persistReceipt = false

/-! ### What a request leaves -/

/-- The write loop is through with every fact. -/
def WritesPassed (s : CaptureState) : Prop :=
  ∃ facts, env.rawFacts = some facts ∧ s.passed = (env.filteredFacts facts).map (·.1)

structure Left (s : CaptureState) : Prop where
  /-- What was reserved is committed, once the request says so. -/
  kept : s.committed = true → ∀ turn ∈ s.reserved, ∃ call ∈ s.calls, turn ∈ call.turns
  completed : ∀ call ∈ s.calls, call.completed ≠ [] →
    call.completed = env.completionTurns ∧ env.Completes ∧ env.WritesPassed s
  commits : env.Completes → ⟨env.reservedTurns, env.completionTurns⟩ ∈ s.calls

/-- Nothing has been committed so far. -/
structure Open (reserved : List SourceTurn) (passed : List (FactObject × Option ℚ))
    (s : CaptureState) : Prop where
  calls : s.calls = []
  reserved : s.reserved = reserved
  committed : s.committed = false
  passed : s.passed = passed

variable {env} {reserved : List SourceTurn} {passed : List (FactObject × Option ℚ)}

variable {s : CaptureState}

/-- A request that leaves before a commit. -/
theorem Open.left (h : Open reserved passed s) (hgone : ¬env.Completes) :
    env.Left s where
  kept := fun hcommitted => nomatch hcommitted.symm.trans h.committed
  completed := fun _ hcall => nomatch h.calls ▸ hcall
  commits := fun hcompletes => (hgone hcompletes).elim

/-- An exit that no request takes which completes its turns. -/
theorem throwIf_open {c : Bool} {response : CaptureResponse} (h : env.Completes → c = false) :
    Ends (Open reserved passed) (throwIf c response)
      (fun _ s => Open reserved passed s ∧ c = false) (fun _ => env.Left) :=
  Ends.throwIf (fun hc _ hs => hs.left fun hall => nomatch hc.symm.trans (h hall))
    fun hc _ hs => ⟨hs, hc⟩

variable {step : CaptureStep}

theorem await_open (h : env.Completes → env.raises step = false) :
    Ends (Open reserved passed) (env.await step)
      (fun _ s => Open reserved passed s ∧ env.raises step = false) (fun _ => env.Left) :=
  throwIf_open h

theorem onlyIf_open {c : Bool} {x : Handler Unit} {p : Prop}
    (h : c = true → Ends (Open reserved passed) x (fun _ s => Open reserved passed s ∧ p)
      (fun _ => env.Left)) :
    Ends (Open reserved passed) (onlyIf c x) (fun _ s => Open reserved passed s ∧ (c = true → p))
      (fun _ => env.Left) :=
  Ends.onlyIf
    (fun hc => (h hc).imp (fun _ hs => hs) (fun _ _ hs => ⟨hs.1, fun _ => hs.2⟩) fun _ _ hs => hs)
    fun hc _ hs => ⟨hs, fun hc' => nomatch hc'.symm.trans hc⟩

/-- The commit of an exit: either it completes nothing, or every fact has been written. -/
theorem commit_left {completed : List SourceTurn}
    (hdone : completed ≠ [] → completed = env.completionTurns ∧ env.Completes ∧
      ∃ facts, env.rawFacts = some facts ∧ passed = (env.filteredFacts facts).map (·.1))
    (hcommits : env.Completes → reserved = env.reservedTurns ∧ completed = env.completionTurns) :
    Ends (Open reserved passed) (env.commit completed step) (fun _ => env.Left)
      (fun _ => env.Left) := by
  have hleft : ∀ s : CaptureState, s.calls = [⟨reserved, completed⟩] → s.reserved = reserved →
      s.passed = passed → env.Left s := by
    intro s hcalls hreserved hpassed
    refine ⟨fun _ turn hturn => ⟨_, hcalls ▸ List.mem_singleton_self _, hreserved ▸ hturn⟩,
      fun call hcall => ?_, fun hcompletes => ?_⟩
    · rw [hcalls] at hcall
      rw [List.mem_singleton.mp hcall]
      intro hsome
      obtain ⟨hcompleted, hall, facts, hfacts, hwritten⟩ := hdone hsome
      exact ⟨hcompleted, hall, facts, hfacts, hpassed.trans hwritten⟩
    · obtain ⟨rfl, rfl⟩ := hcommits hcompletes
      exact hcalls ▸ List.mem_singleton_self _
  have hcall : Ends (Open reserved passed)
      (modify fun s => { s with calls := s.calls ++ [⟨s.reserved, completed⟩] } : Handler Unit)
      (fun _ s => s.calls = [⟨reserved, completed⟩] ∧ s.reserved = reserved ∧ s.passed = passed)
      (fun _ => env.Left) :=
    Ends.modify fun s hs => ⟨by rw [hs.calls, hs.reserved]; rfl, hs.reserved, hs.passed⟩
  unfold commit
  refine hcall.bind fun _ => ?_
  have hstep : Ends (fun s => s.calls = [⟨reserved, completed⟩] ∧ s.reserved = reserved ∧
      s.passed = passed) (env.await step) (fun _ s => s.calls = [⟨reserved, completed⟩] ∧
      s.reserved = reserved ∧ s.passed = passed) (fun _ => env.Left) :=
    Ends.throwIf (fun _ s hs => hleft s hs.1 hs.2.1 hs.2.2) fun _ _ hs => hs
  exact hstep.bind fun _ => Ends.modify fun s hs => hleft _ hs.1 hs.2.1 hs.2.2

/-- A step after a commit. -/
theorem await_left :
    Ends env.Left (env.await step) (fun _ => env.Left) (fun _ => env.Left) :=
  Ends.throwIf (fun _ _ hs => hs) fun _ _ hs => hs

variable {post : Unit → CaptureState → Prop}

/-- An exit after a commit. -/
theorem throw_left {response : CaptureResponse} :
    Ends env.Left (throw response : Handler Unit) post (fun _ => env.Left) :=
  Ends.throw fun _ hs => hs

/-! ### The parts of the handler -/

theorem bindRequest_ends : Ends (Open [] []) env.bindRequest
    (fun _ s => Open [] [] s ∧ env.Bound) (fun _ => env.Left) := by
  unfold bindRequest
  refine (throwIf_open fun hall => ?_).bind fun _ => Ends.given fun hgiven => ?_
  · rw [hall.bound.given]; rfl
  refine (await_open fun hall => hall.bound.context).bind fun _ => Ends.given fun hcontext => ?_
  refine (throwIf_open fun hall => decide_eq_false hall.bound.formatted).bind fun _ =>
    Ends.given fun hformatted => ?_
  refine (throwIf_open fun hall => ?_).bind fun _ => Ends.given fun hredactable => ?_
  · rw [hall.bound.redactable]; rfl
  -- a request for a receipt resolves its session later than one for none
  refine (onlyIf_open fun _ => (await_open fun hall => hall.bound.session).andThen fun _ =>
    await_open fun hall => hall.bound.hexis).bind fun _ => Ends.given fun hearly => ?_
  refine (throwIf_open fun hall => ?_).bind fun _ => Ends.given fun hparsed => ?_
  · cases hreceipt : env.receiptRequested with
    | false => rfl
    | true => exact hall.bound.parsed hreceipt
  refine (await_open fun hall => hall.bound.built).bind fun _ => Ends.given fun hbuilt => ?_
  refine (onlyIf_open fun hreceipt =>
    (await_open fun hall => hall.bound.validated hreceipt).andThen fun _ =>
      (await_open fun hall => hall.bound.session).andThen fun _ =>
        await_open fun hall => hall.bound.hexis).bind fun _ => Ends.given fun hlate => ?_
  refine (await_open fun hall => hall.bound.compresses).imp (fun _ hs => hs)
    (fun _ s hs => ⟨hs.1, ?_⟩) fun _ _ hs => hs
  have hresolved : env.raises .resolveSession = false ∧ env.raises .resolveHexis = false := by
    cases hreceipt : env.receiptRequested with
    | false => exact hearly (by rw [hreceipt]; rfl)
    | true => exact (hlate hreceipt).2
  exact
    { given := Bool.not_eq_false' _ ▸ hgiven
      context := hcontext
      formatted := of_decide_eq_false hformatted
      redactable := by simpa using hredactable
      session := hresolved.1
      hexis := hresolved.2
      parsed := fun hreceipt => by rwa [hreceipt] at hparsed
      built := hbuilt
      validated := fun hreceipt => (hlate hreceipt).1
      compresses := hs.2 }

theorem reserve_ends (h : env.Completes → env.raises .reserve = false) :
    Ends (Open reserved passed) env.reserve
      (fun _ s => Open env.reservedTurns passed s ∧ env.raises .reserve = false)
      (fun _ => env.Left) :=
  (await_open h).bind fun _ => Ends.given fun hreserve =>
    Ends.modify fun _ hs => ⟨⟨hs.calls, rfl, hs.committed, hs.passed⟩, hreserve⟩

/-- A request whose messages were all extracted before completes nothing. -/
theorem answerCaptured_ends (hgone : ¬env.Completes) :
    Ends (Open reserved []) env.answerCaptured post (fun _ => env.Left) := by
  unfold answerCaptured
  have hcommit : Ends (Open reserved []) (onlyIf (decide (env.unseen ≠ [])) do
      env.reserve
      env.commit [] .commitSeen) (fun _ => env.Left) (fun _ => env.Left) :=
    Ends.onlyIf
      (fun _ => (reserve_ends fun hall => (hgone hall).elim).bind fun _ => Ends.given fun _ =>
        commit_left (fun hsome => (hsome rfl).elim) fun hall => (hgone hall).elim)
      fun _ _ hs => hs.left hgone
  have hreceipt : Ends env.Left (onlyIf env.receiptRequested (env.await .persistReceipt))
      (fun _ => env.Left) (fun _ => env.Left) :=
    Ends.onlyIf (fun _ => await_left) fun _ _ hs => hs
  exact hcommit.bind fun _ => hreceipt.bind fun _ => throw_left

theorem reserveSources_ends : Ends (Open [] []) env.reserveSources
    (fun _ s => Open (if env.keyAllowed then env.reservedTurns else []) [] s ∧
      (env.keyAllowed = true → env.Sourced)) (fun _ => env.Left) := by
  unfold reserveSources
  cases hkey : env.keyAllowed with
  | false => exact Ends.pure fun _ hs => ⟨hs, fun hkey' => nomatch hkey'⟩
  | true =>
      refine (await_open fun hall => hall.sourced.seeded).bind fun _ => Ends.given fun hseeded => ?_
      have hlock : Ends (Open [] []) (modify fun s => { s with locked := true } : Handler Unit)
          (fun _ => Open [] []) (fun _ => env.Left) :=
        Ends.modify fun _ hs => ⟨hs.calls, hs.reserved, hs.committed, hs.passed⟩
      refine hlock.bind fun _ => ?_
      refine (await_open fun hall => hall.sourced.looked).bind fun _ => Ends.given fun hlooked => ?_
      refine (onlyIf_open fun hrows => await_open fun hall => hall.sourced.rows hrows).bind fun _ =>
        Ends.given fun hrows => ?_
      have hfresh : Ends (Open [] []) (onlyIf env.allCaptured env.answerCaptured)
          (fun _ s => Open [] [] s ∧ env.allCaptured = false) (fun _ => env.Left) :=
        Ends.onlyIf
          (fun hseen => answerCaptured_ends fun hall => nomatch hseen.symm.trans hall.sourced.fresh)
          fun hfresh _ hs => ⟨hs, hfresh⟩
      refine hfresh.bind fun _ => Ends.given fun hfresh => ?_
      refine (reserve_ends fun hall => hall.sourced.reserved).imp (fun _ hs => hs)
        (fun _ _ hs => ⟨hs.1, fun _ => ?_⟩) fun _ _ hs => hs
      exact ⟨Bool.not_eq_true' _ ▸ hkey, hseeded, hlooked, hrows, hfresh, hs.2⟩

/-- One round of the write loop. -/
theorem writeFact_ends (entry : (FactObject × Option ℚ) × Nat)
    (h : env.Completes → env.RoundEnds entry) :
    Ends (Open reserved passed) (env.writeFact entry)
      (fun _ s => Open reserved (passed ++ [entry.1]) s ∧ env.RoundEnds entry)
      (fun _ => env.Left) := by
  have hkept : (!env.isRejected entry.1.1) = true → env.isRejected entry.1.1 = false :=
    fun hkept => Bool.not_eq_true' _ ▸ hkept
  refine (onlyIf_open fun hc => (await_open fun hall => (h hall (hkept hc)).1).andThen fun _ =>
    onlyIf_open fun hderived => await_open fun hall => (h hall (hkept hc)).2 hderived).bind
      fun _ => Ends.given fun hround => ?_
  exact Ends.modify fun s hs =>
    ⟨⟨hs.calls, hs.reserved, hs.committed, by rw [hs.passed]⟩,
      fun hkept => hround (by rw [hkept]; rfl)⟩

/-- The write loop is through with some facts. -/
structure Through (env : CaptureEnv) (reserved : List SourceTurn)
    (done : List ((FactObject × Option ℚ) × Nat)) (s : CaptureState) : Prop where
  state : Open reserved (done.map (·.1)) s
  rounds : ∀ entry ∈ done, env.RoundEnds entry

theorem writeLoop_ends {facts : List (FactObject × Option ℚ)}
    (h : env.Completes → env.Written facts) :
    Ends (Open reserved []) ((env.filteredFacts facts).forM env.writeFact)
      (fun _ s => Open reserved ((env.filteredFacts facts).map (·.1)) s ∧
        ∀ entry ∈ env.filteredFacts facts, env.RoundEnds entry) (fun _ => env.Left) := by
  have hloop : Ends (Through env reserved []) ((env.filteredFacts facts).forM env.writeFact)
      (fun _ => Through env reserved ([] ++ env.filteredFacts facts)) (fun _ => env.Left) := by
    refine Ends.forM fun done entry hentry => ?_
    intro s hdone
    refine (writeFact_ends entry fun hall => (h hall).rounds entry hentry).imp (fun _ hs => hs)
      (fun _ s hs => ⟨?_, fun other hother => ?_⟩) (fun _ _ hs => hs) s hdone.state
    · rw [List.map_append]
      exact hs.1
    · rcases List.mem_append.mp hother with hother | hother
      · exact hdone.rounds other hother
      · exact List.mem_singleton.mp hother ▸ hs.2
  exact hloop.imp (fun _ hs => ⟨hs, fun _ h => nomatch h⟩) (fun _ _ hs => ⟨hs.state, hs.rounds⟩)
    fun _ _ hs => hs

theorem completionTurns_eq_nil (h : env.keyAllowed = false) : env.completionTurns = [] := by
  unfold completionTurns
  rw [h]
  rfl

/-- What comes after the extraction: the turns are completed in the end, or the request leaves. -/
theorem writeFacts_ends (hbound : env.Bound) (hasked : env.Asked)
    (hsourced : env.completionTurns ≠ [] → env.Sourced)
    (hreserved : env.Completes → reserved = env.reservedTurns) :
    Ends (Open reserved []) env.writeFacts post (fun _ => env.Left) := by
  unfold writeFacts
  split
  · rename_i hnone
    refine (commit_left (fun hsome => (hsome rfl).elim) fun hall => ?_).bind fun _ => throw_left
    obtain ⟨facts, hfacts, -⟩ := hall.redacted
    rw [hnone] at hfacts
    exact nomatch hfacts
  · rename_i hnil
    refine (onlyIf_open fun hreceipt => await_open fun hall => hall.receipt hreceipt).bind fun _ =>
      Ends.given fun hreceipt => ?_
    refine (commit_left (fun hturns => ⟨rfl, ?_, [], hnil, rfl⟩) fun hall =>
      ⟨hreserved hall, rfl⟩).bind fun _ => throw_left
    exact ⟨hbound, hsourced hturns, hasked, ⟨[], hnil, fun hfact => (hfact rfl).elim⟩, hreceipt⟩
  · rename_i fact facts hfacts
    have hwritten : env.Completes → env.Written (fact :: facts) := fun hall => by
      obtain ⟨facts', hfacts', hwritten⟩ := hall.redacted
      cases hfacts.symm.trans hfacts'
      exact hwritten (List.cons_ne_nil _ _)
    refine (await_open fun hall => (hwritten hall).dedup).bind fun _ => Ends.given fun hdedup => ?_
    refine (onlyIf_open fun hshown => await_open fun hall => (hwritten hall).shown hshown).bind
      fun _ => Ends.given fun hshown => ?_
    refine (writeLoop_ends hwritten).bind fun _ => Ends.given fun hrounds => ?_
    refine (await_open fun hall => (hwritten hall).projected).bind fun _ =>
      Ends.given fun hprojected => ?_
    refine (onlyIf_open fun hdebug => await_open fun hall => (hwritten hall).linked hdebug).bind
      fun _ => Ends.given fun hlinked => ?_
    refine (onlyIf_open fun hreceipt => await_open fun hall => hall.receipt hreceipt).bind
      fun _ => Ends.given fun hreceipt => ?_
    refine (commit_left (fun hturns => ⟨rfl, ?_, fact :: facts, hfacts, rfl⟩) fun hall =>
      ⟨hreserved hall, rfl⟩).bind fun _ => throw_left
    exact ⟨hbound, hsourced hturns, hasked,
      ⟨_, hfacts, fun _ => ⟨hdedup, hshown, hrounds, hprojected, hlinked⟩⟩, hreceipt⟩

variable (env) in
/-- What the handler leaves, whichever way it ends. -/
theorem handle_left : Ends (Open [] []) env.handle (fun _ => env.Left) (fun _ => env.Left) := by
  unfold handle
  refine bindRequest_ends.bind fun _ => Ends.given fun hbound => ?_
  refine reserveSources_ends.bind fun _ => Ends.given fun hsourced => ?_
  refine (await_open fun hall => hall.asked.salience).bind fun _ => Ends.given fun hsalience => ?_
  refine (throwIf_open fun hall => ?_).bind fun _ => Ends.given fun hapiKey => ?_
  · rw [hall.asked.apiKey]; rfl
  have hheard : Ends (Open (if env.keyAllowed then env.reservedTurns else []) [])
      (onlyIf env.isNoise do
        env.commit [] .commitNoise
        throw .noiseBank)
      (fun _ s => Open (if env.keyAllowed then env.reservedTurns else []) [] s ∧
        env.isNoise = false) (fun _ => env.Left) :=
    Ends.onlyIf
      (fun hnoise => (commit_left (fun hsome => (hsome rfl).elim) fun hall =>
        nomatch hnoise.symm.trans hall.asked.heard).bind fun _ => throw_left)
      fun hheard _ hs => ⟨hs, hheard⟩
  refine hheard.bind fun _ => Ends.given fun hheard => ?_
  refine writeFacts_ends hbound ⟨hsalience, Bool.not_eq_false' _ ▸ hapiKey, hheard⟩
    (fun hturns => ?_) fun hall => ?_
  · cases hkey : env.keyAllowed with
    | false => exact (hturns (completionTurns_eq_nil hkey)).elim
    | true => exact hsourced hkey
  · have hkey : env.keyAllowed = true := by
      unfold keyAllowed
      rw [hall.sourced.key]
      rfl
    rw [if_pos hkey]

/-! ### The turns that are completed -/

variable (env)

/-- The messages whose turns an extraction can complete. -/
def completable : List (Nat × SourceTurn) :=
  env.unseen.filter fun p => env.isAccepted p.2 && decide (p.2.identityQuality ≠ .contentOnly)

/-- The last of them with a turn id. -/
def lastCompletable (id : String) : Option (Nat × SourceTurn) :=
  env.completable.reverse.find? fun p => decide (p.2.id = id)

/-- The extraction is shown a message with this turn id. -/
def shows (id : String) : Bool :=
  env.prepared.any fun p => env.retained.contains p.1 && decide (p.2.id = id)

variable {env}

theorem any_sourceTurnsByMessage (hkey : env.keyAllowed = true) (id : String) :
    (env.sourceTurnsByMessage.any fun entry =>
      env.retained.contains entry.1 && decide (entry.2.1.id = id)) = env.shows id := by
  unfold sourceTurnsByMessage shows unseen
  rw [if_pos hkey, List.any_append, List.any_map, List.any_map, List.any_filter, List.any_filter,
    Bool.eq_iff_iff, Bool.or_eq_true]
  simp only [List.any_eq_true, Function.comp_apply, Bool.and_eq_true, Bool.not_eq_true']
  constructor
  · rintro (⟨p, hp, -, hshown⟩ | ⟨p, hp, -, hshown⟩) <;> exact ⟨p, hp, hshown⟩
  · rintro ⟨p, hp, hshown⟩
    cases hseen : env.isSeen p.2 with
    | false => exact .inl ⟨p, hp, hseen, hshown⟩
    | true => exact .inr ⟨p, hp, hseen, hshown⟩

theorem completionTurns_eq (hkey : env.keyAllowed = true) :
    env.completionTurns =
      (env.completable.map (·.2)).filter fun turn => env.shows turn.id := by
  have hcompletable : env.completable.map (·.2) =
      env.reservedTurns.filter fun turn => turn.identityQuality ≠ .contentOnly := by
    unfold completable reservedTurns
    rw [List.filter_filter, List.filter_map]
    congr 1
    exact List.filter_congr fun p _ => Bool.and_comm _ _
  unfold completionTurns
  rw [if_pos hkey, hcompletable]
  exact List.filter_congr fun turn _ => any_sourceTurnsByMessage hkey turn.id

/-- A filter that looks at ids only, and the last turn of an id. -/
theorem find?_filter_id (keeps : String → Bool) (turns : List SourceTurn) (id : String) :
    ((turns.filter fun turn => keeps turn.id).reverse.find? fun turn => decide (turn.id = id)) =
      if keeps id then turns.reverse.find? fun turn => decide (turn.id = id) else none := by
  rw [← List.filter_reverse, List.find?_filter]
  cases hkeeps : keeps id with
  | true =>
      rw [if_pos rfl]
      congr 1
      funext turn
      by_cases hid : turn.id = id
      · rw [hid, hkeeps]
        simp
      · simp [hid]
  | false =>
      rw [if_neg Bool.false_ne_true]
      refine List.find?_eq_none.mpr fun turn _ => ?_
      by_cases hid : turn.id = id
      · rw [hid, hkeeps]
        simp
      · simp [hid]

/-- The completed turn of an id that is recorded. -/
theorem find?_completionTurns (hkey : env.keyAllowed = true) (id : String) :
    (env.completionTurns.reverse.find? fun turn => decide (turn.id = id)) =
      if env.shows id then (env.lastCompletable id).map (·.2) else none := by
  rw [completionTurns_eq hkey, find?_filter_id, ← List.map_reverse, List.find?_map]
  rfl

/-! ### The claim -/

variable (env)

/-- A turn that may be taken for extracted. -/
structure Earned (id : String) (marker : ExtractedMarker) : Prop where
  replied : (env.reply.facts? env.reader).isSome
  shown : ∃ p ∈ env.prepared, p.1 ∈ env.retained ∧ p.2.id = id ∧ SpoolIndex.markerOf p.2 = marker
  written : env.WritesPassed env.hooksCapture.2

/-- What enters the extracted set was extracted, and what was reserved is committed or released. -/
structure Honest (fmt : LineFormat SpoolEntry UInt8) : Prop where
  extracted : ∀ call ∈ env.hooksCapture.2.calls, ∀ queuedAt outcome (spool : Spool) id marker,
    (commitCapture fmt call.turns call.completed queuedAt outcome spool).1.index.extracted.get? id =
      some marker →
    spool.index.extracted.get? id ≠ some marker → env.Earned id marker
  committed : ∀ turn ∈ env.hooksCapture.2.reserved,
    ∃ call ∈ env.hooksCapture.2.calls, turn ∈ call.turns
  released : env.hooksCapture.2.locked = false

/-- The last message of a turn id was shown, and the reply to it can be read. -/
def HonestWhen : Prop :=
  env.Completes → ∀ id p, env.lastCompletable id = some p → env.shows id = true →
    (env.reply.facts? env.reader).isSome ∧
      ∃ q ∈ env.prepared, q.1 ∈ env.retained ∧ q.2.id = id ∧
        SpoolIndex.markerOf q.2 = SpoolIndex.markerOf p.2

variable {env}

theorem Completes.key (h : env.Completes) : env.keyAllowed = true := by
  unfold keyAllowed
  rw [h.sourced.key]
  rfl

variable (env) in
theorem hooksCapture_left : ∃ s, env.Left s ∧ env.hooksCapture.2 = leave s := by
  have hleft := handle_left env {} ⟨rfl, rfl, rfl, rfl⟩
  unfold hooksCapture
  cases hrun : env.handle.run {} with
  | ok a s =>
      rw [hrun] at hleft
      exact ⟨s, hleft, rfl⟩
  | error response s =>
      rw [hrun] at hleft
      exact ⟨s, hleft, rfl⟩

@[simp] theorem leave_locked (s : CaptureState) : (leave s).locked = false := by
  unfold leave
  split <;> rfl

@[simp] theorem leave_passed (s : CaptureState) : (leave s).passed = s.passed := by
  unfold leave
  split <;> rfl

@[simp] theorem leave_reserved (s : CaptureState) : (leave s).reserved = s.reserved := by
  unfold leave
  split <;> rfl

variable {call : SpoolCall}

theorem mem_leave_calls (h : call ∈ (leave s).calls) :
    call ∈ s.calls ∨ call.completed = [] := by
  unfold leave at h
  split at h
  · rcases List.mem_append.mp h with h | h
    · exact .inl h
    · exact .inr (List.mem_singleton.mp h ▸ rfl)
  · exact .inl h

theorem subset_leave_calls (s : CaptureState) : s.calls ⊆ (leave s).calls := by
  unfold leave
  split
  · exact List.subset_append_left _ _
  · exact List.Subset.refl _

/-- What was reserved is committed, at the latest when the request is left. -/
theorem Left.committed_leave (h : env.Left s) {turn : SourceTurn}
    (hturn : turn ∈ s.reserved) : ∃ call ∈ (leave s).calls, turn ∈ call.turns := by
  cases hcommitted : s.committed with
  | true =>
      obtain ⟨call, hcall, hmem⟩ := h.kept hcommitted turn hturn
      exact ⟨call, subset_leave_calls s hcall, hmem⟩
  | false =>
      refine ⟨⟨s.reserved, []⟩, ?_, hturn⟩
      unfold leave
      rw [hcommitted, decide_eq_true (List.ne_nil_of_mem hturn)]
      exact List.mem_append_right _ (List.mem_singleton_self _)

variable {fmt : LineFormat SpoolEntry UInt8}

/-- A marker that a call brings in is of its last completed turn with that id. -/
theorem completed_of_entered
    {queuedAt : String} {outcome : AppendOutcome} {spool : Spool} {id : String}
    {marker : ExtractedMarker}
    (hafter : (commitCapture fmt call.turns call.completed queuedAt outcome
      spool).1.index.extracted.get? id = some marker)
    (hbefore : spool.index.extracted.get? id ≠ some marker) :
    ∃ turn, (call.completed.reverse.find? fun turn => decide (turn.id = id)) = some turn ∧
      SpoolIndex.markerOf turn = marker := by
  rw [get?_commitCapture] at hafter
  split at hafter
  · unfold SpoolIndex.captureMarkers at hafter
    rw [find?_filter_id fun id => !spool.index.isForgotten id] at hafter
    split at hafter
    · cases hfind : call.completed.reverse.find? fun turn => decide (turn.id = id) with
      | some turn =>
          rw [hfind] at hafter
          exact ⟨turn, rfl, Option.some.inj hafter⟩
      | none =>
          rw [hfind] at hafter
          exact (hbefore hafter).elim
    · exact (hbefore hafter).elim
  · exact (hbefore hafter).elim

/-- The marker a call brings into an empty spool. -/
theorem entered_of_completed (fmt : LineFormat SpoolEntry UInt8) {turns completed : List SourceTurn}
    {id : String} {turn : SourceTurn}
    (h : (completed.reverse.find? fun turn => decide (turn.id = id)) = some turn) :
    (commitCapture fmt turns completed "" .synced {}).1.index.extracted.get? id =
      some (SpoolIndex.markerOf turn) := by
  have happends : ({} : Spool).appends .synced = true := rfl
  have hknown : (!SpoolIndex.isForgotten id {}) = true := rfl
  rw [get?_commitCapture, if_pos happends]
  unfold SpoolIndex.captureMarkers
  rw [find?_filter_id fun id => !SpoolIndex.isForgotten id {}, if_pos hknown, h]
  rfl

theorem honestWhen_of_honest (h : env.Honest fmt) :
    env.HonestWhen := by
  obtain ⟨s, hleft, hs⟩ := hooksCapture_left env
  intro hall id p hlast hshows
  have hcall : ⟨env.reservedTurns, env.completionTurns⟩ ∈ env.hooksCapture.2.calls :=
    hs ▸ subset_leave_calls s (hleft.commits hall)
  have hfind : (env.completionTurns.reverse.find? fun turn => decide (turn.id = id)) =
      some p.2 := by
    rw [find?_completionTurns hall.key, if_pos hshows, hlast]
    rfl
  have hearned := h.extracted _ hcall "" .synced {} id _ (entered_of_completed fmt hfind)
    (fun hempty => nomatch hempty)
  exact ⟨hearned.replied, hearned.shown⟩

theorem earned_of_entered (h : env.HonestWhen)
    (hcall : call ∈ env.hooksCapture.2.calls) {queuedAt : String}
    {outcome : AppendOutcome} {spool : Spool} {id : String} {marker : ExtractedMarker}
    (hafter : (commitCapture fmt call.turns call.completed queuedAt outcome
      spool).1.index.extracted.get? id = some marker)
    (hbefore : spool.index.extracted.get? id ≠ some marker) : env.Earned id marker := by
  obtain ⟨s, hleft, hs⟩ := hooksCapture_left env
  obtain ⟨turn, hfind, rfl⟩ := completed_of_entered hafter hbefore
  have hsome : call.completed ≠ [] := fun hnil => by
    rw [hnil] at hfind
    exact nomatch hfind
  rw [hs] at hcall
  have hmem := (mem_leave_calls hcall).resolve_right hsome
  obtain ⟨hcompleted, hall, facts, hfacts, hpassed⟩ := hleft.completed call hmem hsome
  rw [hcompleted, find?_completionTurns hall.key] at hfind
  split at hfind
  · rename_i hshows
    obtain ⟨p, hlast, rfl⟩ := Option.map_eq_some_iff.mp hfind
    obtain ⟨hreplied, hshown⟩ := h hall id p hlast hshows
    exact ⟨hreplied, hshown, facts, hfacts, by rw [hs, leave_passed, hpassed]⟩
  · exact nomatch hfind

theorem hooksCapture_honest (fmt : LineFormat SpoolEntry UInt8) (env : CaptureEnv) :
    env.Honest fmt ↔ env.HonestWhen := by
  refine ⟨honestWhen_of_honest, fun hwhen => ?_⟩
  obtain ⟨s, hleft, hs⟩ := hooksCapture_left env
  refine ⟨fun call hcall queuedAt outcome spool id marker hafter hbefore => ?_,
    fun turn hturn => ?_, by rw [hs, leave_locked]⟩
  · exact earned_of_entered hwhen hcall hafter hbefore
  · rw [hs, leave_reserved] at hturn
    rw [hs]
    exact hleft.committed_leave hturn

end CaptureEnv

/-! ### A reply that does not come -/

/-- A reader that can read nothing. -/
def deafReader : ReplyReader := ⟨fun _ => none, fun _ => none⟩

/-- The call times out, and the message counts as extracted. -/
theorem hooksCapture_timeout :
    ¬(requestOfOne deafReader .timeout).Honest spoolFormat := by
  intro hhonest
  have hcompletes : (requestOfOne deafReader .timeout).Completes :=
    ⟨⟨rfl, rfl, List.cons_ne_nil _ _, rfl, rfl, rfl, fun _ => rfl, rfl, fun _ => rfl, rfl⟩,
      ⟨rfl, rfl, rfl, fun _ => rfl, rfl, rfl⟩, ⟨rfl, rfl, rfl⟩,
      ⟨[], rfl, fun hsome => (hsome rfl).elim⟩, fun _ => rfl⟩
  have hwhen := CaptureEnv.honestWhen_of_honest hhonest hcompletes "x" (0, turnOfMessage) rfl rfl
  exact nomatch hwhen.1

end Runir
