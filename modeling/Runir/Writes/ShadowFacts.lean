import Runir.Writes.Arbitrate
import Runir.Writes.ResolveFacts

/-!
# Writes — What the shadow leaves alone

A call of `arbitrateWrite` with the shadow on against the same call with it off.

* `ObserveOnly`: whatever the shadow's tables answer, the two calls agree on everything but the
  shadow's own rows, or the one with the shadow throws before anything is changed.
* `ReportPrints`: the snapshot the WOULD lane reports is one JSON prints.
* `observe_only_iff`: the call is observe-only exactly when its report prints, or nothing comes of
  it with the shadow off either.
-/

namespace Runir

open Prog

section
variable (env : ArbitrateEnv) (shadow : ShadowEnv) (input : WriteArbitrationInput)

/-- The same surroundings, with the shadow off. -/
def ShadowEnv.off (shadow : ShadowEnv) : ShadowEnv := { shadow with enabled := false }

/-- The call with the shadow does what the call without it does, or throws before it has changed
anything. -/
def ObserveOnly (s : Applied) : Prop :=
  ∀ shadow : ShadowEnv, shadow.enabled = true → ∀ t t',
    forget (arbitrateWrite env shadow input (s, t)) =
        forget (arbitrateWrite env shadow.off input (s, t')) ∨
      ∃ e t₁, arbitrateWrite env shadow input (s, t) = .error e (s, t₁)

/-- With the shadow off, the call throws. -/
def WriteThrows (s : Applied) : Prop :=
  ∀ shadow : ShadowEnv, ∀ t, ∃ e s₁, arbitrateWrite env shadow.off input (s, t) = .error e s₁

/-- The candidate the decision core snapshots with every flip flag on, over the texts, the cache
view and the candidates of the call, holds nothing that JSON cannot print. -/
def ReportPrints (s : Applied) : Prop :=
  ∀ similar, similarCandidates env input s = .ok similar →
    snapshotPrints (wouldDecision env input
      (appliedInput env input (recentCandidates env input s) similar)) = true

end

variable {env : ArbitrateEnv} {shadow : ShadowEnv} {input : WriteArbitrationInput}

/-! ### The lanes -/

/-- The judge of the lane leaves the snapshot as it was. -/
theorem resolvedWould_prints {applied : ResolveInput} {would : ArbitrationDecision}
    (h : resolvedWould env shadow input applied = .ok would) :
    snapshotPrints would = snapshotPrints (wouldDecision env input applied) := by
  unfold resolvedWould at h
  simp only at h
  split at h
  · unfold resolveEscalation at h
    cases hc : (wouldDecision env input applied).candidate with
    | none => rw [hc] at h; cases h
    | some candidate =>
        rw [hc] at h
        obtain rfl := Except.ok.inj h
        unfold snapshotPrints
        simp only [resolveJudgeDecision_snapshot]
  · obtain rfl := Except.ok.inj h
    rfl

theorem shadowLanes_prints {applied : ResolveInput} {lanes : ShadowLanes}
    (h : shadowLanes env shadow input applied = some lanes) :
    snapshotPrints lanes.would = snapshotPrints (wouldDecision env input applied) := by
  unfold shadowLanes at h
  split at h
  · cases h
  · split at h
    · cases h
    · next would hwould =>
        obtain rfl := Option.some.inj h
        exact resolvedWould_prints hwould

/-- An escalation of the lane always has a candidate to ask about, so the lane is there. -/
theorem exists_shadowLanes (hon : shadow.enabled = true) (hlane : shadow.laneThrows = false)
    (applied : ResolveInput) : ∃ lanes, shadowLanes env shadow input applied = some lanes := by
  have hwould : ∃ would, resolvedWould env shadow input applied = .ok would := by
    unfold resolvedWould
    simp only
    split
    · next hjudge =>
        obtain ⟨hout, -⟩ := hjudge
        have hnames : NamesTarget (wouldDecision env input applied) :=
          resolveDecision_names env.host env.wall (wouldInput env input applied)
        rcases hnames with hcreate | hskip | hsome
        · rw [hcreate] at hout
          cases hout
        · rw [hskip] at hout
          cases hout
        · obtain ⟨candidate, hc⟩ := Option.isSome_iff_exists.mp hsome
          unfold resolveEscalation
          rw [hc]
          exact ⟨_, rfl⟩
    · exact ⟨_, rfl⟩
  obtain ⟨would, hwould⟩ := hwould
  unfold shadowLanes
  rw [hon, hlane, hwould]
  exact ⟨_, rfl⟩

/-! ### The report -/

theorem silent_log (params : SupersedeShadowParams) :
    Silent (second (logSupersedeShadow shadow params) :
      Prog ArbitrateError (Applied × Shadow) Unit) := by
  refine Silent.second fun t => ?_
  unfold logSupersedeShadow
  split
  · exact ⟨_, _, rfl⟩
  · exact ⟨_, _, rfl⟩

variable {d : Decided} {lanes : Option ShadowLanes}

theorem silent_emitShadow {id : Option String}
    (h : ∀ l, lanes = some l → snapshotPrints l.would = true) :
    Silent (second (emitShadow env shadow input d lanes id) :
      Prog ArbitrateError (Applied × Shadow) Unit) := by
  cases lanes with
  | none => exact Silent.second fun t => ⟨(), t, rfl⟩
  | some l =>
      have hrun : emitShadow env shadow input d (some l) id =
          logSupersedeShadow shadow (shadowParams env input d l id) := by
        unfold emitShadow stringify
        simp only [h l rfl]
        rfl
      rw [hrun]
      exact silent_log _

/-- A snapshot that does not print throws where the report is made. -/
theorem throws_emitShadow {l : ShadowLanes} {id : Option String}
    (h : snapshotPrints l.would = false) :
    Throws (second (emitShadow env shadow input d (some l) id) :
      Prog ArbitrateError (Applied × Shadow) Unit) := by
  intro s t
  refine ⟨.unprintable, t, ?_⟩
  unfold emitShadow stringify
  simp only [h]
  rfl

theorem reported_off (d : Decided) (id : Option String) (branch : Commit ArbitrationResult) :
    reported env shadow input d none id branch = (first branch >>= fun result => pure result) :=
  rfl

theorem reported_agreeOrLate {late : Prop}
    (hlate : ∀ l, lanes = some l → snapshotPrints l.would = false → late) (id id' : Option String)
    (branch : Commit ArbitrationResult) :
    AgreeOrLate late (reported env shadow input d lanes id branch)
      (reported env shadow.off input d none id' branch) := by
  rw [reported_off]
  refine AgreeOrLate.bind (Agree.first branch) fun result => ?_
  by_cases hprints : ∀ l, lanes = some l → snapshotPrints l.would = true
  · exact .observe (silent_emitShadow hprints) fun _ => .of_agree (.pure result)
  · simp only [not_forall, Bool.not_eq_true] at hprints
    obtain ⟨l, rfl, hfalse⟩ := hprints
    exact .throws (hlate l rfl hfalse) (throws_emitShadow hfalse) _ result

theorem reported_failsAfter {l : ShadowLanes} (h : snapshotPrints l.would = false)
    (id id' : Option String) (branch : Commit ArbitrationResult) :
    FailsAfter (reported env shadow input d (some l) id branch)
      (reported env shadow.off input d none id' branch) := by
  rw [reported_off]
  exact .bind (Agree.first branch) fun result => .throws (throws_emitShadow h) _ result

/-- The commit step is a branch and its report, or a throw. -/
theorem commitStep_cases (env : ArbitrateEnv) (input : WriteArbitrationInput) (d : Decided) :
    (∀ shadow lanes, commitStep env shadow input d lanes = throw .noCandidate) ∨
      ∃ id branch, Raises Applied.changes branch ∧ ∀ shadow lanes,
        commitStep env shadow input d lanes = reported env shadow input d lanes id branch := by
  unfold commitStep
  cases d.decision.outcome with
  | skip => exact Or.inr ⟨_, _, raises_applySkip _, fun _ _ => rfl⟩
  | create => exact Or.inr ⟨_, _, raises_applyCreate _, fun _ _ => rfl⟩
  | judge => exact Or.inr ⟨_, _, raises_applyCreate _, fun _ _ => rfl⟩
  | mergeUpdate =>
      cases d.decision.candidate with
      | none => exact Or.inl fun _ _ => rfl
      | some candidate => exact Or.inr ⟨_, _, raises_applyMergeUpdate _ _, fun _ _ => rfl⟩
  | supersede =>
      cases d.decision.candidate with
      | none => exact Or.inl fun _ _ => rfl
      | some candidate => exact Or.inr ⟨_, _, raises_applySupersede _ _, fun _ _ => rfl⟩

/-! ### The observers before the commit -/

theorem observer_isolated (d : Decided) : Observer (atomicIsolated env shadow input d) := by
  unfold atomicIsolated
  split
  · exact (Silent.pure none).observer
  · split
    · exact .bind (observer_second _) fun _ => (Silent.pure none).observer
    · exact (Silent.pure _).observer

theorem observer_attemptRow (isolated : Option AtomicIsolatedEvaluation) :
    Observer (attemptRow env shadow input isolated) := by
  unfold attemptRow
  split
  · exact (Silent.pure ()).observer
  · split
    · exact (Silent.pure ()).observer
    · exact observer_second _

theorem silent_artifacts (d : Decided) (isolated : Option AtomicIsolatedEvaluation) :
    Silent (second (emitAtomicFrameArtifacts env shadow d isolated) :
      Prog ArbitrateError (Applied × Shadow) Unit) := by
  unfold emitAtomicFrameArtifacts
  cases isolated with
  | none => exact Silent.second fun t => ⟨(), t, rfl⟩
  | some evaluation =>
      simp only
      split
      · exact Silent.second fun t => ⟨(), t, rfl⟩
      · exact Silent.second_caught _ fun _ t => ⟨(), t, rfl⟩

/-- The tables answer, so the attempt row is there. -/
theorem silent_attempt (h : ∀ query, shadow.answered query = true) (attempt : AtomicShadowAttempt) :
    Silent (second (createAtomicShadowAttempt shadow attempt) :
      Prog ArbitrateError (Applied × Shadow) Unit) := by
  refine Silent.second fun t => ?_
  unfold createAtomicShadowAttempt shadowQuery
  rw [h]
  exact ⟨_, _, rfl⟩

theorem silent_attemptRow (h : ∀ query, shadow.answered query = true)
    (isolated : Option AtomicIsolatedEvaluation) :
    Silent (attemptRow env shadow input isolated) := by
  unfold attemptRow
  split
  · exact .pure ()
  · split
    · exact .pure ()
    · exact silent_attempt h _

theorem silent_isolated (h : ∀ query, shadow.answered query = true) (d : Decided) :
    Silent (atomicIsolated env shadow input d) := by
  unfold atomicIsolated
  split
  · exact .pure none
  · split
    · exact .bind (silent_attempt h _) fun _ => .pure none
    · exact .pure _

/-! ### After the decide step -/

/-- With the shadow off, pruning the cache and the commit step remain. -/
theorem applyDecided_off (d : Decided) :
    applyDecided env shadow.off input d =
      (first (writeCache (pruneRecentWrites (recentWriteTtlMs input) (pruneNowMs env input))) >>=
        fun _ => commitStep env shadow.off input d none) := rfl

theorem commitStep_agreeOrLate {late : Prop}
    (hlate : ∀ l, lanes = some l → snapshotPrints l.would = false → late) :
    AgreeOrLate late (commitStep env shadow input d lanes)
      (commitStep env shadow.off input d none) := by
  rcases commitStep_cases env input d with hthrow | ⟨id, branch, -, hreport⟩
  · rw [hthrow, hthrow]
    exact .of_agree fun _ _ _ => rfl
  · rw [hreport, hreport]
    exact reported_agreeOrLate hlate id id branch

theorem applyDecided_observes (d : Decided) :
    Observes (snapshotPrints (wouldDecision env input d.applied) = false)
      (applyDecided env shadow input d) (applyDecided env shadow.off input d) := by
  rw [applyDecided_off]
  refine .observe (observer_isolated d) fun isolated => ?_
  refine .observe (observer_attemptRow isolated) fun _ => .of_agreeOrLate ?_
  refine .bind (Agree.first _) fun _ => .observe (silent_artifacts d isolated) fun _ => ?_
  exact commitStep_agreeOrLate fun l hl hfalse => (shadowLanes_prints hl).symm.trans hfalse

theorem applyDecided_failsAfter (hon : shadow.enabled = true) (hlane : shadow.laneThrows = false)
    (hanswered : ∀ query, shadow.answered query = true)
    (h : snapshotPrints (wouldDecision env input d.applied) = false) :
    FailsAfter (applyDecided env shadow input d) (applyDecided env shadow.off input d) := by
  obtain ⟨lanes, hlanes⟩ : ∃ lanes, shadowLanes env shadow input d.applied = some lanes :=
    exists_shadowLanes hon hlane d.applied
  have hfalse : snapshotPrints lanes.would = false := (shadowLanes_prints hlanes).trans h
  rw [applyDecided_off]
  refine .observe (silent_isolated hanswered d) fun isolated => ?_
  refine .observe (silent_attemptRow hanswered isolated) fun _ => ?_
  refine .bind (Agree.first _) fun _ => .observe (silent_artifacts d isolated) fun _ => ?_
  rw [hlanes]
  rcases commitStep_cases env input d with hthrow | ⟨id, branch, -, hreport⟩
  · rw [hthrow, hthrow]
    intro s t t' r s₁ t₁ hok
    cases hok
  · rw [hreport, hreport]
    exact reported_failsAfter hfalse id id branch

/-- What follows the decide step always changes something. -/
theorem applyDecided_changes (d : Decided) (s : Applied) (t : Shadow) :
    s.changes < (state (applyDecided env shadow.off input d (s, t))).1.changes := by
  have hcommit : Raises (fun w : Applied × Shadow => w.1.changes)
      (commitStep env shadow.off input d none) := by
    rcases commitStep_cases env input d with hthrow | ⟨id, branch, hraises, hreport⟩
    · rw [hthrow]
      exact .throw _
    · rw [hreport]
      refine .bind (Steps.first hraises) fun result => .bind ?_ fun _ => .pure result
      exact Steps.second (R := fun s s' : Applied => s.changes ≤ s'.changes)
        (fun s => le_refl s.changes) _
  have hprune : ∀ f : RecentWrites → RecentWrites,
      s.changes < (s.setRecentWrites (f s.recentWrites)).changes := by
    intro f
    simp [Applied.changes, Applied.setRecentWrites]
  rw [applyDecided_off]
  exact lt_of_lt_of_le (hprune _) (hcommit (_, t))

/-! ### The whole call -/

theorem arbitrateWrite_blank (h : Text.trim input.text = "") :
    arbitrateWrite env shadow input = pure { outcome := .skip, reason := "empty-text" } := by
  unfold arbitrateWrite
  rw [if_pos h]

variable {s : Applied}

/-- The decide step changes nothing and comes to the same whatever the shadow. -/
theorem arbitrateWrite_ok (h : Text.trim input.text ≠ "")
    (hd : decideStep env input s = .ok d) (t : Shadow) :
    arbitrateWrite env shadow input (s, t) = applyDecided env shadow input d (s, t) := by
  unfold arbitrateWrite
  rw [if_neg h, bind_apply]
  unfold first decideNow
  simp only [hd]

theorem arbitrateWrite_error (h : Text.trim input.text ≠ "") {e : ArbitrateError}
    (he : decideStep env input s = .error e) (t : Shadow) :
    arbitrateWrite env shadow input (s, t) = .error e (s, t) := by
  unfold arbitrateWrite
  rw [if_neg h, bind_apply]
  unfold first decideNow
  simp only [he]

/-- What the decide step decided under. -/
theorem decideStep_applied (h : decideStep env input s = .ok d) :
    ∃ similar, similarCandidates env input s = .ok similar ∧
      d.applied = appliedInput env input (recentCandidates env input s) similar := by
  unfold decideStep at h
  cases hsimilar : similarCandidates env input s with
  | error e => rw [hsimilar] at h; cases h
  | ok similar =>
      rw [hsimilar] at h
      simp only [bind, Except.bind] at h
      cases hdecision : appliedDecision env input
          (appliedInput env input (recentCandidates env input s) similar) with
      | error e => rw [hdecision] at h; cases h
      | ok decision =>
          rw [hdecision] at h
          obtain rfl := Except.ok.inj h
          exact ⟨similar, rfl, rfl⟩

/-- The run with the shadow off does not depend on what the shadow would have been. -/
theorem agree_off (shadow shadow' : ShadowEnv) :
    Agree (arbitrateWrite env shadow.off input) (arbitrateWrite env shadow'.off input) := by
  intro s t t'
  by_cases hblank : Text.trim input.text = ""
  · rw [arbitrateWrite_blank hblank, arbitrateWrite_blank hblank]
    rfl
  · cases hd : decideStep env input s with
    | error e => rw [arbitrateWrite_error hblank hd, arbitrateWrite_error hblank hd]; rfl
    | ok d =>
        rw [arbitrateWrite_ok hblank hd, arbitrateWrite_ok hblank hd, applyDecided_off,
          applyDecided_off]
        refine Agree.bind (Agree.first _) (fun _ => ?_) s t t'
        rcases commitStep_cases env input d with hthrow | ⟨id, branch, -, hreport⟩
        · rw [hthrow, hthrow]
          exact fun _ _ _ => rfl
        · rw [hreport, hreport, reported_off, reported_off]
          exact Agree.bind (Agree.first _) fun result => Agree.pure result

/-- One row, written with a claim key that no JavaScript number holds. -/
def bigKeyState : Applied where
  rows := .ofList [("m", composeMemoryRecord .ascii 0 "the port: 9" "u" [1]
    (some (.ofList [("noemaClaimKey", .big 9007199254740993)])) .user none { active := true } none)]
  recentWrites := .empty
  overlay := .empty
  ledger := []
  history := []

def bigKeyInput : WriteArbitrationInput where
  text := "the port: 8"
  userId := "u"
  embedding := [1]

end Runir
