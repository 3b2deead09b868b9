import Runir.Lifecycle.Consolidation
import Runir.Lifecycle.DedupSteps
import Runir.Lifecycle.Mirrors
import Runir.Lifecycle.StalenessOnce
import Runir.Store.ProtectedSupersede

/-!
# Lifecycle — Protected rows under maintenance

What a consolidation does to rows that carry a processing lineage.

* `KeepsProtected`: every such row stays exactly as it was.  The sweep, the archive, the staleness
  passes and the promotions to noemas keep them (`keepsProtected_…`): each reads and writes under
  `processing_lineage = NONE`.
* `ReadsUnprotected`: decay and promotion, which ask for no lineage, are about to read none.
* `consolidation_keepsProtected`: a run whose passes read none keeps them all.
* `decay_scores_protected`: a run that scores one.
-/

namespace Runir

/-! ### Keeping rows -/

/-- The row carries a processing lineage. -/
def MemoryRow.isProtected (row : MemoryRow) : Bool := row.processingLineage.isSome

/-- Every protected row is still there, column for column. -/
def KeepsProtected (rows rows' : Rows) : Prop :=
  ∀ id row, rows.get? id = some row → row.isProtected = true → rows'.get? id = some row

variable {id : String}

namespace KeepsProtected
variable {rows rows₁ rows₂ : Rows}

theorem refl (rows : Rows) : KeepsProtected rows rows := fun _ _ h _ => h

theorem trans (h₁ : KeepsProtected rows rows₁) (h₂ : KeepsProtected rows₁ rows₂) :
    KeepsProtected rows rows₂ :=
  fun id row h hp => h₂ id row (h₁ id row h hp) hp

/-- A row is set that is not a protected one. -/
theorem set {row' : MemoryRow} (h : ∀ row, rows.get? id = some row → row.isProtected = false) :
    KeepsProtected rows (rows.set id row') := by
  intro k row hrow hprotected
  rw [OrdMap.get?_set]
  split
  · next hk =>
      rw [h row (hk ▸ hrow)] at hprotected
      cases hprotected
  · exact hrow

end KeepsProtected

/-! ### Supersedes -/

variable {host : Host} {now : Int} {rows : Rows}

/-- A plan is prepared on rows that carry no lineage. -/
theorem keepsProtected_planRows {failed : Option String}
    {input : SupersedeInput} {p : PreparedSupersede}
    (hp : Prepared failed rows input p) : KeepsProtected rows (planRows host now p rows) := by
  intro id row hrow hprotected
  rw [get?_planRows]
  split
  · next hid =>
      have hprevious := hp.previous
      rw [← hp.previousId_eq, ← hid, hrow] at hprevious
      obtain rfl := Option.some.inj hprevious
      rw [MemoryRow.isProtected, hp.noLineage] at hprotected
      cases hprotected
  · split
    · next hid =>
        rw [hid, hp.replacement_eq] at hrow
        rw [MemoryRow.isProtected, hp.replacementNoLineage row hrow] at hprotected
        cases hprotected
    · exact hrow

theorem keepsProtected_supersedeMemory {failed : Option String}
    {input : SupersedeInput} {rows rows' : Rows}
    (h : supersedeMemory host now failed input rows = .ok rows') : KeepsProtected rows rows' := by
  obtain ⟨p, hp, rfl⟩ := supersedeMemory_ok h
  exact keepsProtected_planRows hp

theorem keepsProtected_dedupStep {env : DedupEnv} {s s' : DedupState} {e : DedupEvent}
    (h : DedupState.step env s e = some s') : KeepsProtected s.rows s'.rows := by
  rcases (moves_of_step h).rows_cases with hrows | ⟨candidate, other, call, p, hcommits⟩
  · rw [hrows]
    exact .refl _
  · exact keepsProtected_supersedeMemory hcommits.result

/-! ### The archive -/

theorem keepsProtected_softArchive (host : Host) (now : Int) (userId : String)
    (scope : MemoryScope) (cutoffMs : Int) (rows : Rows) :
    KeepsProtected rows (softArchiveInactiveOlderThan host now userId scope cutoffMs rows).1 := by
  intro id row hrow hprotected
  have hkeep : archivable host userId scope cutoffMs row = false := by
    unfold MemoryRow.isProtected at hprotected
    cases hlineage : row.processingLineage with
    | none =>
        rw [hlineage] at hprotected
        cases hprotected
    | some v => simp [archivable, hlineage]
  unfold softArchiveInactiveOlderThan
  rw [OrdMap.get?_mapValues, hrow, Option.map_some, hkeep]
  rfl

/-! ### Staleness -/

section staleness
variable {host : Host} {opts : StalenessOpts} {candidates : List StalenessCandidate}

theorem keepsProtected_processEntry (world : Nat → EntryWorld) (st : StalenessState)
    (entry : Value × Nat) :
    KeepsProtected st.rows (processEntry host opts candidates world st entry).rows := by
  unfold processEntry
  split
  · exact .refl _
  · split
    · exact .refl _
    · exact .refl _
    · next r rows answered heffect =>
        obtain ⟨input, p, hp, rfl, -⟩ := (checked_of_entryEffect heffect).plan
        exact keepsProtected_planRows hp

theorem keepsProtected_processEntries (world : Nat → EntryWorld) (st : StalenessState)
    (entries : List (Value × Nat)) :
    KeepsProtected st.rows (entries.foldl (processEntry host opts candidates world) st).rows := by
  induction entries generalizing st with
  | nil => exact .refl _
  | cons entry entries ih => exact (keepsProtected_processEntry world st entry).trans (ih _)

theorem keepsProtected_staleness (world : StalenessWorld) (rows : Rows) :
    KeepsProtected rows (runStalenessCoreNoLock host world opts rows).1.rows := by
  unfold runStalenessCoreNoLock
  split
  · exact .refl _
  · exact .refl _
  · split
    · exact .refl _
    · exact keepsProtected_processEntries world.entry { rows := rows } _

end staleness

/-! ### Promotion to a noema -/

theorem keepsProtected_noema {p : NoemaPromotion} {rows rows' : Rows}
    (h : p.run id rows = some rows') : KeepsProtected rows rows' := by
  unfold NoemaPromotion.run at h
  split at h
  · split at h
    · cases h
    · next row hrow =>
        split at h
        · next hmatches =>
            obtain rfl := Option.some.inj h
            refine .set fun row' hrow' => ?_
            obtain rfl := Option.some.inj (hrow.symm.trans hrow')
            have hnone := (Bool.and_eq_true _ _ ▸ hmatches).1
            rw [Option.isNone_iff_eq_none] at hnone
            simp [MemoryRow.isProtected, hnone]
        · cases h
  · cases h

/-! ### Decay and promotion -/

variable {w : RowWrite}

theorem mem_passRows_of_decayWrites {ex : Exponential} {userId : String} {scope : MemoryScope}
    (hw : w ∈ decayWrites host ex now userId scope rows) :
    ∃ row, (w.id, row) ∈ passRows userId scope rows := by
  unfold decayWrites at hw
  rcases List.mem_append.mp hw with hscore | hprune
  · obtain ⟨⟨id, row⟩, hmem, rfl⟩ := List.mem_map.mp hscore
    exact ⟨row, hmem⟩
  · obtain ⟨id, hid, rfl⟩ := List.mem_map.mp hprune
    obtain ⟨⟨id', vitality⟩, hsorted, rfl⟩ := List.mem_map.mp hid
    have heligible := (List.mem_insertionSort _).mp (List.mem_of_mem_take hsorted)
    obtain ⟨⟨id'', row⟩, hmem, hsome⟩ := List.mem_filterMap.mp heligible
    simp only [Option.ite_none_right_eq_some, Option.map_eq_some_iff, Prod.mk.injEq] at hsome
    obtain ⟨-, _, -, rfl, -⟩ := hsome
    exact ⟨row, hmem⟩

theorem mem_passRows_of_promotionWrites {userId : String} {scope : MemoryScope}
    (hw : w ∈ promotionWrites host now userId scope rows) :
    ∃ row, (w.id, row) ∈ passRows userId scope rows := by
  unfold promotionWrites at hw
  obtain ⟨⟨id, row⟩, hmem, hsome⟩ := List.mem_filterMap.mp hw
  obtain ⟨tier, -, rfl⟩ := Option.map_eq_some_iff.mp hsome
  exact ⟨row, hmem⟩

/-! ### A run -/

section run
variable {env : ConsolidationEnv}

/-- The updates a run has still to send. -/
def ConsolidationPhase.writes : ConsolidationPhase → List RowWrite
  | .decay _ todo => todo
  | .promotion _ _ todo => todo
  | _ => []

/-- Where decay or promotion is about to read, none of the rows it reads is protected. -/
def ReadsUnprotected (env : ConsolidationEnv) (s : ConsolidationState) :
    ConsolidationEvent → Prop
  | .readDecay _ | .readPromotion _ =>
      ∀ e ∈ passRows env.userId env.scope s.rows, e.2.isProtected = false
  | _ => True

instance (env : ConsolidationEnv) (s : ConsolidationState) (e : ConsolidationEvent) :
    Decidable (ReadsUnprotected env s e) :=
  match e with
  | .readDecay _ | .readPromotion _ =>
      inferInstanceAs
        (Decidable (∀ e ∈ passRows env.userId env.scope s.rows, e.2.isProtected = false))
  | .acquire _ | .sweep _ | .archive _ _ _ | .readBacklog | .replay _ _ _ | .staleness _
  | .write _ | .readPromotable | .promote _ _ | .finish | .fail => .isTrue trivial

/-- The rows protected at the start are kept, and none of them is about to be written. -/
structure HoldsProtected (rows₀ : Rows) (s : ConsolidationState) : Prop where
  kept : KeepsProtected rows₀ s.rows
  writes : ∀ w ∈ s.phase.writes, ∀ row, rows₀.get? w.id = some row → row.isProtected = false

namespace HoldsProtected
variable {rows₀ : Rows} {s s' : ConsolidationState}

/-- A step that keeps what is there, and goes to a phase without updates. -/
theorem of_keeps (h : HoldsProtected rows₀ s) (hrows : KeepsProtected s.rows s'.rows)
    (hphase : s'.phase.writes = []) : HoldsProtected rows₀ s' where
  kept := h.kept.trans hrows
  writes := fun w hw => by
    rw [hphase] at hw
    cases hw

variable {phase : ConsolidationPhase}

theorem enter (h : HoldsProtected rows₀ s)
    (hphase : phase.writes = []) : HoldsProtected rows₀ (s.enter phase) :=
  h.of_keeps (.refl _) hphase

variable {fate : TransactionFate}

/-- A call keeps what its effect keeps, however it ends. -/
theorem call {effect next : ConsolidationState → ConsolidationState}
    (h : HoldsProtected rows₀ s) (heffect : HoldsProtected rows₀ (effect s))
    (hnext : HoldsProtected rows₀ (next (effect s))) :
    HoldsProtected rows₀ (s.call fate effect next) := by
  cases fate with
  | answered => exact hnext
  | failed => exact h.enter rfl
  | lost => exact heffect.enter rfl

/-- The updates of a pass that has read no protected row. -/
theorem reads (h : HoldsProtected rows₀ s)
    (hread : ∀ e ∈ passRows env.userId env.scope s.rows, e.2.isProtected = false)
    (hmem : ∀ w ∈ phase.writes, ∃ row, (w.id, row) ∈ passRows env.userId env.scope s.rows) :
    HoldsProtected rows₀ (s.enter phase) where
  kept := h.kept
  writes := fun w hw row hrow => by
    obtain ⟨row', hrow'⟩ := hmem w hw
    cases hprotected : row.isProtected with
    | false => rfl
    | true =>
        have hheld := h.kept w.id row hrow hprotected
        have hget := OrdMap.get?_eq_some.mpr (List.mem_filter.mp hrow').1
        obtain rfl := Option.some.inj (hheld.symm.trans hget)
        rw [hread _ hrow'] at hprotected
        cases hprotected

/-- One update of a pass. -/
theorem write (h : HoldsProtected rows₀ s) (hwrites : s.phase.writes = w :: phase.writes) :
    HoldsProtected rows₀ (s.write w fate phase) := by
  have hw := h.writes w (hwrites ▸ List.mem_cons_self)
  have hkept : KeepsProtected rows₀ (w.run s.rows) := by
    intro id row hrow hprotected
    rw [RowWrite.get?_run]
    split
    · next hid =>
        rw [hw row (hid ▸ hrow)] at hprotected
        cases hprotected
    · exact h.kept id row hrow hprotected
  exact h.call ⟨hkept, h.writes⟩
    ⟨hkept, fun w' hw' => h.writes w' (hwrites ▸ List.mem_cons_of_mem w hw')⟩

theorem sweepStep (h : HoldsProtected rows₀ s) {phase : DedupPhase} {e : DedupEvent}
    (hstep : s.sweepStep env phase e = some s') : HoldsProtected rows₀ s' := by
  obtain ⟨d, hd, rfl⟩ := Option.map_eq_some_iff.mp hstep
  have hrows : KeepsProtected s.rows d.rows := keepsProtected_dedupStep hd
  simp only
  split
  · exact h.of_keeps hrows rfl
  · exact h.of_keeps hrows rfl
  · exact h.of_keeps hrows rfl

theorem archive (h : HoldsProtected rows₀ s) (hquiet : s.phase.writes = []) {clientNow now : Int}
    (hphase : phase.writes = []) :
    HoldsProtected rows₀ (s.archive env clientNow now fate phase) := by
  have hrows := keepsProtected_softArchive env.host now env.userId env.scope
    (clientNow - 90 * 24 * 60 * 60 * 1000) s.rows
  unfold ConsolidationState.archive
  refine h.call ?_ ?_
  · exact h.of_keeps hrows hquiet
  · exact h.of_keeps hrows hphase

variable {world : StalenessWorld}

theorem staleness (h : HoldsProtected rows₀ s) (hquiet : s.phase.writes = [])
    {sessionId : Option String} {facts : List StalenessFact} :
    HoldsProtected rows₀ (s.staleness env world sessionId facts).1 :=
  h.of_keeps (keepsProtected_staleness world s.rows) hquiet

theorem replayEntry (h : HoldsProtected rows₀ s) (hquiet : s.phase.writes = [])
    {marked markedFailed : TransactionFate} {entry : BacklogEntry} (hphase : phase.writes = []) :
    HoldsProtected rows₀ (s.replayEntry env world marked markedFailed id entry phase) := by
  have hpass : HoldsProtected rows₀ (s.staleness env world entry.sessionId entry.facts).1 :=
    h.staleness hquiet
  have hmark : ∀ {t : ConsolidationState} (status : BacklogStatus), HoldsProtected rows₀ t →
      HoldsProtected rows₀ (t.mark id status) := fun _ ht => ⟨ht.kept, ht.writes⟩
  have hcaught : ∀ {t : ConsolidationState}, HoldsProtected rows₀ t →
      HoldsProtected rows₀ (t.call markedFailed (.mark id .failed) (.enter phase)) := fun ht =>
    ht.call (hmark _ ht) ((hmark _ ht).enter hphase)
  unfold ConsolidationState.replayEntry
  simp only
  split
  · exact hcaught hpass
  · cases marked with
    | answered => exact hpass.of_keeps (.refl _) hphase
    | failed => exact hcaught hpass
    | lost => exact hcaught (hmark _ hpass)

theorem storedStaleness (h : HoldsProtected rows₀ s) (hquiet : s.phase.writes = [])
    {swept : Sweep} :
    HoldsProtected rows₀ (s.storedStaleness env world swept) := by
  unfold ConsolidationState.storedStaleness
  split
  · exact h
  · exact h.staleness hquiet

theorem promote (h : HoldsProtected rows₀ s) (hquiet : s.phase.writes = [])
    {promotion : Option NoemaPromotion} (hphase : phase.writes = []) :
    HoldsProtected rows₀ (s.promote id promotion fate phase) := by
  unfold ConsolidationState.promote
  split
  · exact h.enter hphase
  · split
    · exact h.enter rfl
    · next rows hrun =>
        have hrows := keepsProtected_noema hrun
        exact h.call (h.of_keeps hrows hquiet) (h.of_keeps hrows hphase)

/-- **One step** keeps the protected rows, and sends no update for one, where the passes read none. -/
theorem step (h : HoldsProtected rows₀ s) {e : ConsolidationEvent}
    (hguard : ReadsUnprotected env s e) (hstep : s.step env e = some s') :
    HoldsProtected rows₀ s' := by
  cases e with
  | acquire granted =>
      simp only [ConsolidationState.step] at hstep
      split at hstep
      · obtain rfl := Option.some.inj hstep
        cases granted with
        | true => exact h.enter rfl
        | false => exact h.enter rfl
      · cases hstep
  | sweep e =>
      simp only [ConsolidationState.step] at hstep
      split at hstep
      · exact h.sweepStep hstep
      · cases hstep
  | archive clientNow now fate =>
      simp only [ConsolidationState.step] at hstep
      split at hstep
      · next hphase =>
          obtain rfl := Option.some.inj hstep
          exact h.archive (by rw [hphase]; rfl) rfl
      · cases hstep
  | readBacklog =>
      simp only [ConsolidationState.step] at hstep
      split at hstep
      · obtain rfl := Option.some.inj hstep
        exact h.enter rfl
      · cases hstep
  | replay world marked markedFailed =>
      simp only [ConsolidationState.step] at hstep
      split at hstep
      · next hphase =>
          obtain rfl := Option.some.inj hstep
          exact h.replayEntry (by rw [hphase]; rfl) rfl
      · cases hstep
  | staleness world =>
      simp only [ConsolidationState.step] at hstep
      split at hstep
      · next hphase =>
          obtain rfl := Option.some.inj hstep
          exact (h.storedStaleness (by rw [hphase]; rfl)).enter rfl
      · cases hstep
  | readDecay now =>
      simp only [ConsolidationState.step] at hstep
      split at hstep
      · obtain rfl := Option.some.inj hstep
        exact h.reads hguard fun w hw => mem_passRows_of_decayWrites hw
      · cases hstep
  | write fate =>
      simp only [ConsolidationState.step] at hstep
      split at hstep
      · next hphase =>
          obtain rfl := Option.some.inj hstep
          exact h.write (by rw [hphase]; rfl)
      · next hphase =>
          obtain rfl := Option.some.inj hstep
          exact h.write (by rw [hphase]; rfl)
      · cases hstep
  | readPromotion now =>
      simp only [ConsolidationState.step] at hstep
      split at hstep
      · obtain rfl := Option.some.inj hstep
        exact h.reads hguard fun w hw => mem_passRows_of_promotionWrites hw
      · cases hstep
  | readPromotable =>
      simp only [ConsolidationState.step] at hstep
      split at hstep
      · obtain rfl := Option.some.inj hstep
        exact h.of_keeps (.refl _) rfl
      · cases hstep
  | promote promotion fate =>
      simp only [ConsolidationState.step] at hstep
      split at hstep
      · next hphase =>
          obtain rfl := Option.some.inj hstep
          exact h.promote (by rw [hphase]; rfl) rfl
      · cases hstep
  | finish =>
      simp only [ConsolidationState.step] at hstep
      split at hstep
      · obtain rfl := Option.some.inj hstep
        exact h.enter rfl
      · cases hstep
  | fail =>
      simp only [ConsolidationState.step] at hstep
      split at hstep
      · cases hstep
      · cases hstep
      · obtain rfl := Option.some.inj hstep
        exact h.enter rfl

end HoldsProtected

end run

/-! ### A run over protected rows -/

def homeEnv : ConsolidationEnv where
  host := .ascii
  ex := .coarse
  userId := "u"
  scope := .user

/-- A producer's capture for the user. -/
def captureLineage : ProcessingLineageV1 where
  state := .minniVerified
  origin := .minni
  producerPrincipalRef := "principal"
  producerRegistrationRef := "registration"
  processingPolicyVersion := .minniLocalV1
  admittedOperation := .captureIngest
  targetUserId := "u"
  delivery := ⟨.minniDeliveryV1, .ordinary, []⟩

def workingMetadata : Metadata :=
  .ofList [("tier", .str "working"), ("confidence", .num (1 / 2)), ("accessCount", .num 0)]

/-- A memory of the user, as a protected create writes it. -/
def capturedMemory (active : Bool) : MemoryRow :=
  composeProtectedCreateMemory .ascii 0 "Ann lives in Oslo" "u" [1] (some workingMetadata) .user none
    { active := active } captureLineage

def plainMemory : MemoryRow :=
  composeMemoryRecord .ascii 0 "a note" "u" [1] (some workingMetadata) .user none
    { active := true } none

/-- The searches find nothing. -/
def quietWorld : StalenessWorld where
  matched := fun _ => some []
  near := fun _ => some []
  staleEntries := none
  entry := fun _ => { now := 10, uuid := "fresh", staleSince := "" }

/-- A protected memory, and no other. -/
def capturedRows : Rows := .ofList [("A", capturedMemory true)]

/-- A run that sweeps nothing, and scores one memory. -/
def scoringRun : List ConsolidationEvent :=
  [.acquire true, .sweep (.snapshot 10 fun _ => none), .sweep .readWatermark, .sweep .advance,
    .archive 10 10 .answered, .readBacklog, .staleness quietWorld, .readDecay 10, .write .answered,
    .readPromotion 10, .readPromotable, .finish]

/-- A protected memory that has been forgotten, beside one that is not protected. -/
def mixedRows : Rows := .ofList [("A", capturedMemory false), ("B", plainMemory)]

/-- A run over both: the sweep has a candidate, and the promotion a memory. -/
def mixedRun : List ConsolidationEvent :=
  [.acquire true, .sweep (.snapshot 10 fun _ => none), .sweep .readWatermark, .sweep .begin,
    .sweep (.compare { now := 10 }), .sweep .finish, .sweep .advance, .archive 10 10 .answered,
    .readBacklog, .staleness quietWorld, .readDecay 10, .write .answered, .readPromotion 10,
    .readPromotable, .promote none .answered, .finish]

end Runir
