import Runir.Continuity.ProjectStates
import Runir.Lib.Sorted

/-!
# Continuity — Warmings one after another

A project state and the captures that warm it, each batch of facts folded into what the batches
before have made of it.

* `Warmed`: the state, with the facts that have set its focus and its progress.
* `Warmed.Forward`: a batch takes nothing back: `updatedAt` does not decrease, no text set by a fact
  is replaced by an earlier one, and what warming has no facts for is kept.
* `Warmed.Timely`: a batch that changes the state has a fact to apply that is not older than the
  state, and a path where the state has one.
* `forward_along`: a run of timely batches goes forward throughout; `forward_iff_timely`: on facts
  with dates no other does.

Two texts share one `updatedAt`, and an empty one is filled by any fact; that is how a batch can be
untimely.
-/

namespace Runir
open Runs

/-! ### Runs -/

/-- A capture: the clock and what it passes. -/
structure WarmingBatch where
  now : String
  args : WarmProjectStateArgs

section
variable (host : Host)

/-- The facts that can be applied to the focus, or to the progress. -/
def poolOf (progress : Bool) (args : WarmProjectStateArgs) : List WarmingFact :=
  (args.facts.filter (·.isEligible)).filter fun f => signalsProgress f.text == progress

/-- The text that a kind of fact sets. -/
def warmedText (progress : Bool) (existing : Option ProjectStateRecord) : Option String :=
  existing.bind fun e => if progress then e.content.latestProgress else e.content.currentFocus

/-- The fact of a kind that a batch applies. -/
def appliedOf (progress : Bool) (args : WarmProjectStateArgs)
    (existing : Option ProjectStateRecord) : Option WarmingFact :=
  applicable host (pickBest host (poolOf progress args)) (warmedText progress existing)
    (existing.map (·.updatedAt))

def appliedFacts (args : WarmProjectStateArgs) (existing : Option ProjectStateRecord) :
    List WarmingFact :=
  (appliedOf host false args existing).toList ++ (appliedOf host true args existing).toList

/-- The text a kind of fact leaves. -/
def newText (progress : Bool) (args : WarmProjectStateArgs)
    (existing : Option ProjectStateRecord) : Option String :=
  ((appliedOf host progress args existing).map (·.text)).or (warmedText progress existing)

/-- The batch applies a fact with a text that is not there yet. -/
def Changes (args : WarmProjectStateArgs) (existing : Option ProjectStateRecord) : Prop :=
  ∃ progress, newText host progress args existing ≠ warmedText progress existing

/-- The record that a write leaves. -/
def ProjectStateWrite.recordOver (state : ProjectStateWrite)
    (existing : Option ProjectStateRecord) : ProjectStateRecord where
  id := (existing.map (·.id)).getD ""
  userId := state.userId
  projectKey := state.projectKey
  path := state.path
  content := state.content
  updatedAt := state.updatedAt.getD ""
  version := projectStateVersion state.version
  previousProjectStateId := state.previousProjectStateId

/-- A project state, with the facts of the run that have set its focus and its progress. -/
structure Warmed where
  record : Option ProjectStateRecord
  setBy : Bool → Option WarmingFact := fun _ => none

namespace Warmed

/-- A state before the run. -/
def fresh (record : Option ProjectStateRecord) : Warmed := ⟨record, fun _ => none⟩

/-- One batch. -/
def step (w : Warmed) (batch : WarmingBatch) : Option Warmed :=
  match buildWarmedProjectState host batch.now batch.args w.record with
  | none => some w
  | some state => some
      { record := some (state.recordOver w.record)
        setBy := fun progress =>
          (appliedOf host progress batch.args w.record).or (w.setBy progress) }

/-- The first date is before the second. -/
def Earlier (a b : String) : Prop :=
  ∃ ta tb, host.dateParse a = some ta ∧ host.dateParse b = some tb ∧ ta < tb

/-- A batch takes nothing back. -/
structure Forward (w : Warmed) (batch : WarmingBatch) : Prop where
  updatedAt : ∀ w', w.step host batch = some w' → ∀ e ∈ w.record, ∀ e' ∈ w'.record,
    ¬Earlier host e'.updatedAt e.updatedAt
  setBy : ∀ w', w.step host batch = some w' → ∀ progress,
    warmedText progress w'.record ≠ warmedText progress w.record →
    ∀ g ∈ w.setBy progress, ∀ f ∈ w'.setBy progress, ¬Earlier host f.timestamp g.timestamp
  kept : ∀ w', w.step host batch = some w' → ∀ e ∈ w.record, ∀ e' ∈ w'.record,
    (e'.path = e.path ∨ ∃ path, batch.args.path = some path ∧ e'.path = some path) ∧
    e'.content.directives = e.content.directives ∧ e'.content.blockers = e.content.blockers ∧
    e'.content.nextSteps = e.content.nextSteps ∧
    e'.content.activeTicketIds = e.content.activeTicketIds

/-- What changes the state is not all older than it, and a path is supplied where it has one. -/
structure Timely (w : Warmed) (batch : WarmingBatch) : Prop where
  dated : ∀ e ∈ w.record, Changes host batch.args w.record →
    ∃ f ∈ appliedFacts host batch.args w.record, ¬Earlier host f.timestamp e.updatedAt
  path : ∀ e ∈ w.record, Changes host batch.args w.record →
    e.path = none ∨ batch.args.path.isSome = true

/-- Every fact has a date. -/
def Dated (batch : WarmingBatch) : Prop :=
  ∀ f ∈ batch.args.facts, f.timestamp ≠ "" ∧ (host.dateParse f.timestamp).isSome = true

/-- What has set the texts is what stands there, and is not later than the state. -/
structure Sourced (w : Warmed) : Prop where
  text : ∀ progress, ∀ g ∈ w.setBy progress,
    warmedText progress w.record = some g.text ∧ Text.truthy g.text = true
  dated : ∀ progress, ∀ g ∈ w.setBy progress, ∀ e ∈ w.record, Text.truthy e.updatedAt = true ∧
    ∃ tg te, host.dateParse g.timestamp = some tg ∧ host.dateParse e.updatedAt = some te ∧ tg ≤ te

end Warmed

end

/-! ### What a batch does -/

variable {f : WarmingFact}

section
variable {host : Host} {now : String} {args : WarmProjectStateArgs}
  {existing : Option ProjectStateRecord} {state : ProjectStateWrite} {progress : Bool}

theorem mem_appliedFacts_iff : f ∈ appliedFacts host args existing ↔
    ∃ progress, appliedOf host progress args existing = some f := by
  simp only [appliedFacts, List.mem_append, Option.mem_toList, Bool.exists_bool]

theorem mem_of_pickBest {pool : List WarmingFact} (h : pickBest host pool = some f) : f ∈ pool :=
  (List.mem_insertionSort _).mp (List.mem_of_mem_head? h)

/-- What is applied is an eligible fact of the batch. -/
theorem mem_of_appliedOf (h : appliedOf host progress args existing = some f) :
    f ∈ args.facts ∧ f.isEligible = true := by
  have hpool := mem_of_pickBest (Option.filter_eq_some_iff.mp h).1
  exact List.mem_filter.mp (List.mem_filter.mp hpool).1

theorem poolOf_false (args : WarmProjectStateArgs) : poolOf false args =
    (args.facts.filter (·.isEligible)).filter fun f => !signalsProgress f.text := by
  simp [poolOf]

theorem poolOf_true (args : WarmProjectStateArgs) : poolOf true args =
    (args.facts.filter (·.isEligible)).filter fun f => signalsProgress f.text := by
  simp [poolOf]

theorem applicable_focus (args : WarmProjectStateArgs) (existing : Option ProjectStateRecord) :
    applicable host (pickBest host ((args.facts.filter (·.isEligible)).filter
      fun f => !signalsProgress f.text)) (existing.bind (·.content.currentFocus))
      (existing.map (·.updatedAt)) = appliedOf host false args existing := by
  rw [appliedOf, poolOf_false]
  rfl

theorem applicable_progress (args : WarmProjectStateArgs) (existing : Option ProjectStateRecord) :
    applicable host (pickBest host ((args.facts.filter (·.isEligible)).filter
      fun f => signalsProgress f.text)) (existing.bind (·.content.latestProgress))
      (existing.map (·.updatedAt)) = appliedOf host true args existing := by
  rw [appliedOf, poolOf_true]
  rfl

/-- **What `buildWarmedProjectState` writes**, and that it writes nothing where nothing changes. -/
theorem buildWarmed_some (h : buildWarmedProjectState host now args existing = some state) :
    (existing.isSome = true → Changes host args existing) ∧
    state.path = args.path ∧
    state.content.currentFocus = newText host false args existing ∧
    state.content.latestProgress = newText host true args existing ∧
    state.updatedAt = some ((latestTimestamp host (appliedFacts host args existing)).getD
      ((existing.map (·.updatedAt)).getD now)) ∧
    state.content.directives = (existing.map (·.content.directives)).getD [] ∧
    state.content.blockers = (existing.map (·.content.blockers)).getD [] ∧
    state.content.nextSteps = (existing.map (·.content.nextSteps)).getD [] ∧
    state.content.activeTicketIds = (existing.map (·.content.activeTicketIds)).getD [] := by
  simp only [buildWarmedProjectState, applicable_focus, applicable_progress] at h
  split at h
  · cases h
  split at h
  · cases h
  next hchanged =>
    cases h
    refine ⟨fun hsome => ?_, rfl, rfl, rfl, rfl, rfl, rfl, rfl, rfl⟩
    by_contra hnot
    have hsame : ∀ progress, newText host progress args existing = warmedText progress existing := by
      intro progress
      by_contra hne
      exact hnot ⟨progress, hne⟩
    exact hchanged ⟨⟨hsame false, hsame true⟩, hsome⟩

/-- A batch that changes a text is written. -/
theorem exists_buildWarmed (now : String) (h : Changes host args existing) :
    ∃ state, buildWarmedProjectState host now args existing = some state := by
  simp only [buildWarmedProjectState, applicable_focus, applicable_progress]
  obtain ⟨progress, hne⟩ := h
  have happlied : ∃ f, appliedOf host progress args existing = some f := by
    cases happ : appliedOf host progress args existing with
    | none =>
        rw [newText, happ] at hne
        exact absurd rfl hne
    | some f => exact ⟨f, rfl⟩
  obtain ⟨f, hf⟩ := happlied
  obtain ⟨hmem, heligible⟩ := mem_of_appliedOf hf
  rw [if_neg]
  · rw [if_neg]
    · exact ⟨_, rfl⟩
    · rintro ⟨⟨hfocus, hprogress⟩, -⟩
      cases progress with
      | false => exact hne hfocus
      | true => exact hne hprogress
  · rw [List.isEmpty_iff]
    exact List.ne_nil_of_mem (List.mem_filter.mpr ⟨hmem, heligible⟩)

/-- The comparison of `latestTimestamp`. -/
def laterFirst (host : Host) (a b : WarmingFact) : Bool :=
  match host.dateParse a.timestamp, host.dateParse b.timestamp with
  | some ta, some tb => decide (tb ≤ ta)
  | _, _ => true

/-- Of facts with dates, the timestamp of one that is not earlier than any other. -/
theorem exists_latestTimestamp {facts : List WarmingFact} (hne : facts ≠ [])
    (hdated : ∀ f ∈ facts, (host.dateParse f.timestamp).isSome = true) :
    ∃ f ∈ facts, latestTimestamp host facts = some f.timestamp ∧
      ∀ g ∈ facts, ¬Warmed.Earlier host f.timestamp g.timestamp := by
  have hread : ∀ f ∈ facts, ∃ t, host.dateParse f.timestamp = some t :=
    fun f hf => Option.isSome_iff_exists.mp (hdated f hf)
  have htotal : ∀ a ∈ facts, ∀ b ∈ facts, laterFirst host a b = true ∨ laterFirst host b a = true := by
    intro a ha b hb
    obtain ⟨ta, hta⟩ := hread a ha
    obtain ⟨tb, htb⟩ := hread b hb
    simp only [laterFirst, hta, htb, decide_eq_true_eq]
    exact le_total tb ta
  have htrans : ∀ a ∈ facts, ∀ b ∈ facts, ∀ c ∈ facts, laterFirst host a b = true →
      laterFirst host b c = true → laterFirst host a c = true := by
    intro a ha b hb c hc
    obtain ⟨ta, hta⟩ := hread a ha
    obtain ⟨tb, htb⟩ := hread b hb
    obtain ⟨tc, htc⟩ := hread c hc
    simp only [laterFirst, hta, htb, htc, decide_eq_true_eq]
    exact fun hba hcb => hcb.trans hba
  obtain ⟨f, hf, hhead, hlatest⟩ := Sorted.exists_head?_insertionSort htotal htrans hne
  refine ⟨f, hf, congrArg (Option.map WarmingFact.timestamp) hhead, fun g hg => ?_⟩
  rintro ⟨tf, tg, htf, htg, hlt⟩
  have hle := hlatest g hg
  simp only [laterFirst, htf, htg, decide_eq_true_eq] at hle
  exact absurd hle (not_le.mpr hlt)

end

namespace Warmed

section
variable {host : Host} {w w' : Warmed} {batch : WarmingBatch}

/-- What one batch does: nothing, or a write with the texts and the date of what it applies. -/
theorem step_cases (h : w.step host batch = some w') :
    (w' = w ∧ ∀ e ∈ w.record, ¬Changes host batch.args w.record) ∨
    ∃ e', w' = ⟨some e', fun progress =>
        (appliedOf host progress batch.args w.record).or (w.setBy progress)⟩ ∧
      (w.record.isSome = true → Changes host batch.args w.record) ∧
      (∀ progress, warmedText progress (some e') = newText host progress batch.args w.record) ∧
      e'.path = batch.args.path ∧
      e'.updatedAt = (latestTimestamp host (appliedFacts host batch.args w.record)).getD
        ((w.record.map (·.updatedAt)).getD batch.now) ∧
      ∀ e ∈ w.record, e'.content.directives = e.content.directives ∧
        e'.content.blockers = e.content.blockers ∧ e'.content.nextSteps = e.content.nextSteps ∧
        e'.content.activeTicketIds = e.content.activeTicketIds := by
  rw [step] at h
  split at h
  · next hnone =>
      refine Or.inl ⟨(Option.some.inj h).symm, fun e he hchanges => ?_⟩
      obtain ⟨state, hstate⟩ := exists_buildWarmed batch.now hchanges
      rw [hnone] at hstate
      cases hstate
  · next state hstate =>
      obtain ⟨hchanges, hpath, hfocus, hprogress, hupdated, hdirectives, hblockers, hsteps,
        htickets⟩ := buildWarmed_some hstate
      refine Or.inr ⟨state.recordOver w.record, (Option.some.inj h).symm, hchanges, ?_, hpath, ?_,
        ?_⟩
      · intro progress
        cases progress with
        | false => exact hfocus
        | true => exact hprogress
      · rw [ProjectStateWrite.recordOver, hupdated, Option.getD_some]
      · intro e he
        rw [Option.mem_def] at he
        rw [he] at hdirectives hblockers hsteps htickets
        exact ⟨hdirectives, hblockers, hsteps, htickets⟩

theorem sourced_fresh (host : Host) (record : Option ProjectStateRecord) :
    Sourced host (fresh record) := by
  constructor
  · intro progress g hg
    cases hg
  · intro progress g hg
    cases hg

/-- A batch that changes a text applies a fact. -/
theorem appliedFacts_ne_nil {args : WarmProjectStateArgs} {existing : Option ProjectStateRecord}
    (h : Changes host args existing) : appliedFacts host args existing ≠ [] := by
  obtain ⟨progress, hne⟩ := h
  cases happ : appliedOf host progress args existing with
  | none =>
      rw [newText, happ] at hne
      exact absurd rfl hne
  | some f => exact List.ne_nil_of_mem (mem_appliedFacts_iff.mpr ⟨progress, happ⟩)

theorem dated_of_mem_appliedFacts (hdated : Dated host batch)
    (hf : f ∈ appliedFacts host batch.args w.record) :
    f.timestamp ≠ "" ∧ (host.dateParse f.timestamp).isSome = true := by
  obtain ⟨progress, happ⟩ := mem_appliedFacts_iff.mp hf
  exact hdated f (mem_of_appliedOf happ).1

/-- A write is dated as a fact it applies, which no other is later than. -/
theorem exists_updatedAt (hdated : Dated host batch) (hchanges : Changes host batch.args w.record) :
    ∃ f ∈ appliedFacts host batch.args w.record,
      (∀ old, (latestTimestamp host (appliedFacts host batch.args w.record)).getD old =
        f.timestamp) ∧
      ∀ g ∈ appliedFacts host batch.args w.record, ¬Earlier host f.timestamp g.timestamp := by
  obtain ⟨f, hf, hlatest, hnot⟩ := exists_latestTimestamp (appliedFacts_ne_nil hchanges)
    fun g hg => (dated_of_mem_appliedFacts hdated hg).2
  exact ⟨f, hf, fun old => by rw [hlatest]; rfl, hnot⟩

theorem not_earlier_iff {a b : String} {ta tb : Int} (ha : host.dateParse a = some ta)
    (hb : host.dateParse b = some tb) : ¬Earlier host a b ↔ tb ≤ ta := by
  constructor
  · intro hnot
    exact not_lt.mp fun hlt => hnot ⟨ta, tb, ha, hb, hlt⟩
  · rintro hle ⟨ta', tb', ha', hb', hlt⟩
    rw [ha] at ha'
    rw [hb] at hb'
    cases ha'
    cases hb'
    exact absurd hlt (not_lt.mpr hle)

theorem truthy_of_eligible (h : f.isEligible = true) :
    Text.truthy f.text = true := by
  have hsignal : isStatusLikeSignal f.text = true := by
    simp only [WarmingFact.isEligible, Bool.and_eq_true] at h
    exact h.2
  have hempty : isStatusLikeSignal "" = false := by decide
  simp only [Text.truthy, Bool.not_eq_true', beq_eq_false_iff_ne]
  intro htext
  rw [htext, hempty] at hsignal
  cases hsignal

/-- **A batch that is written is not older than the state**, where it is timely. -/
theorem le_updatedAt (hdated : Dated host batch) (htimely : Timely host w batch)
    (hchanges : Changes host batch.args w.record) {e : ProjectStateRecord} (he : e ∈ w.record)
    (hf : f ∈ appliedFacts host batch.args w.record)
    (hlatest : ∀ g ∈ appliedFacts host batch.args w.record, ¬Earlier host f.timestamp g.timestamp) :
    ¬Earlier host f.timestamp e.updatedAt := by
  obtain ⟨g, hg, hnot⟩ := htimely.dated e he hchanges
  obtain ⟨tf, htf⟩ := Option.isSome_iff_exists.mp (dated_of_mem_appliedFacts hdated hf).2
  obtain ⟨tg, htg⟩ := Option.isSome_iff_exists.mp (dated_of_mem_appliedFacts hdated hg).2
  rintro ⟨tf', te, htf', hte, hlt⟩
  rw [htf] at htf'
  cases htf'
  have hgf := (not_earlier_iff htf htg).mp (hlatest g hg)
  have heg := (not_earlier_iff htg hte).mp hnot
  exact absurd (heg.trans hgf) (not_le.mpr hlt)

/-- What a batch has set, or what was set before and is not replaced. -/
theorem setBy_cases {progress : Bool} {g : WarmingFact}
    (h : (appliedOf host progress batch.args w.record).or (w.setBy progress) = some g) :
    appliedOf host progress batch.args w.record = some g ∨
      appliedOf host progress batch.args w.record = none ∧ w.setBy progress = some g := by
  cases happ : appliedOf host progress batch.args w.record with
  | none =>
      rw [happ] at h
      exact Or.inr ⟨rfl, h⟩
  | some f =>
      rw [happ] at h
      exact Or.inl h

/-- **Timely batches keep what the run knows of the state.** -/
theorem sourced_step (hw : Sourced host w) (hdated : Dated host batch)
    (htimely : Timely host w batch) (h : w.step host batch = some w') : Sourced host w' := by
  rcases step_cases h with ⟨rfl, -⟩ | ⟨e', rfl, hchanges, htext, -, hupdated, -⟩
  · exact hw
  constructor
  · intro progress g hg
    rw [htext, newText]
    rcases setBy_cases hg with happ | ⟨happ, hg⟩
    · rw [happ]
      exact ⟨rfl, truthy_of_eligible (mem_of_appliedOf happ).2⟩
    · rw [happ]
      exact hw.text progress g hg
  · intro progress g hg e he
    cases he
    have hne : appliedFacts host batch.args w.record ≠ [] := by
      rcases setBy_cases hg with happ | ⟨-, hg⟩
      · exact List.ne_nil_of_mem (mem_appliedFacts_iff.mpr ⟨progress, happ⟩)
      · refine appliedFacts_ne_nil (hchanges ?_)
        have htext := (hw.text progress g hg).1
        cases hrecord : w.record with
        | none =>
            rw [hrecord] at htext
            cases htext
        | some e => rfl
    obtain ⟨f, hf, hlatest, hnot⟩ := exists_latestTimestamp hne
      fun g hg => (dated_of_mem_appliedFacts hdated hg).2
    obtain ⟨hnonempty, hreadable⟩ := dated_of_mem_appliedFacts hdated hf
    obtain ⟨tf, htf⟩ := Option.isSome_iff_exists.mp hreadable
    rw [hlatest, Option.getD_some] at hupdated
    rw [hupdated]
    refine ⟨by simpa [Text.truthy] using hnonempty, ?_⟩
    rcases setBy_cases hg with happ | ⟨-, hg⟩
    · have hgmem := mem_appliedFacts_iff.mpr ⟨progress, happ⟩
      obtain ⟨tg, htg⟩ := Option.isSome_iff_exists.mp (dated_of_mem_appliedFacts hdated hgmem).2
      exact ⟨tg, tf, htg, htf, (not_earlier_iff htf htg).mp (hnot g hgmem)⟩
    · -- what was set before is not later than the state was
      have htext := (hw.text progress g hg).1
      obtain ⟨e, he, -⟩ := Option.bind_eq_some_iff.mp htext
      obtain ⟨-, tg, te, htg, hte, hle⟩ := hw.dated progress g hg e he
      have hchanged := hchanges (by rw [he]; rfl)
      have hstate := le_updatedAt hdated htimely hchanged he hf hnot
      exact ⟨tg, tf, htg, htf, hle.trans ((not_earlier_iff htf hte).mp hstate)⟩

/-- A text that a fact has set is replaced by no earlier fact. -/
theorem not_earlier_of_replaced (hw : Sourced host w) (hdated : Dated host batch) {progress : Bool}
    {f g : WarmingFact} (happ : appliedOf host progress batch.args w.record = some f)
    (hg : g ∈ w.setBy progress) : ¬Earlier host f.timestamp g.timestamp := by
  obtain ⟨htext, htruthy⟩ := hw.text progress g hg
  obtain ⟨e, he, -⟩ := Option.bind_eq_some_iff.mp htext
  obtain ⟨hupdated, tg, te, htg, hte, hle⟩ := hw.dated progress g hg e he
  obtain ⟨tf, htf⟩ := Option.isSome_iff_exists.mp
    (dated_of_mem_appliedFacts hdated (mem_appliedFacts_iff.mpr ⟨progress, happ⟩)).2
  have hnewer := (Option.filter_eq_some_iff.mp happ).2
  rw [htext, Option.any_some, htruthy, Bool.not_true, Bool.false_or, he, Option.map_some,
    newerThanExisting, Option.filter_some, if_pos hupdated] at hnewer
  simp only [htf, hte, decide_eq_true_eq] at hnewer
  exact (not_earlier_iff htf htg).mpr (hle.trans hnewer)

/-- **A timely batch takes nothing back.** -/
theorem forward_of_timely (hw : Sourced host w) (hdated : Dated host batch)
    (htimely : Timely host w batch) : Forward host w batch := by
  refine ⟨fun w' h e he e' he' => ?_, fun w' h progress hne g hg f hf => ?_,
    fun w' h e he e' he' => ?_⟩
  · rcases step_cases h with ⟨rfl, -⟩ | ⟨e', rfl, hchanges, -, -, hupdated, -⟩
    · rw [Option.mem_def, Option.mem_def.mp he] at he'
      cases he'
      rintro ⟨t, t', ht, ht', hlt⟩
      rw [ht] at ht'
      cases ht'
      exact lt_irrefl _ hlt
    · cases he'
      have hchanged := hchanges (by rw [Option.mem_def.mp he]; rfl)
      obtain ⟨f, hf, hlatest, hnot⟩ := exists_updatedAt hdated hchanged
      rw [hupdated, hlatest]
      exact le_updatedAt hdated htimely hchanged he hf hnot
  · rcases step_cases h with ⟨rfl, -⟩ | ⟨e', rfl, -, htext, -⟩
    · exact absurd rfl hne
    · rw [htext, newText] at hne
      rcases setBy_cases hf with happ | ⟨happ, -⟩
      · exact not_earlier_of_replaced hw hdated happ hg
      · rw [happ] at hne
        exact absurd rfl hne
  · rcases step_cases h with ⟨rfl, -⟩ | ⟨e', rfl, hchanges, -, hpath, -, hkept⟩
    · rw [Option.mem_def, Option.mem_def.mp he] at he'
      cases he'
      exact ⟨Or.inl rfl, rfl, rfl, rfl, rfl⟩
    · cases he'
      refine ⟨?_, hkept e he⟩
      rw [hpath]
      cases hargs : batch.args.path with
      | some path => exact Or.inr ⟨path, rfl, rfl⟩
      | none =>
          rcases htimely.path e he (hchanges (by rw [Option.mem_def.mp he]; rfl)) with hnone | hsome
          · exact Or.inl hnone.symm
          · rw [hargs] at hsome
            cases hsome

/-- **No other batch does.** -/
theorem timely_of_forward (hdated : Dated host batch) (hforward : Forward host w batch) :
    Timely host w batch := by
  have hwritten : ∀ e ∈ w.record, Changes host batch.args w.record →
      ∃ w' e', w.step host batch = some w' ∧ e' ∈ w'.record ∧ e'.path = batch.args.path ∧
        e'.updatedAt = (latestTimestamp host (appliedFacts host batch.args w.record)).getD
          ((w.record.map (·.updatedAt)).getD batch.now) := by
    intro e he hchanges
    obtain ⟨w', hstep⟩ : ∃ w', w.step host batch = some w' := by
      rw [step]
      split
      · exact ⟨_, rfl⟩
      · exact ⟨_, rfl⟩
    rcases step_cases hstep with ⟨-, hnot⟩ | ⟨e', rfl, -, -, hpath, hupdated, -⟩
    · exact absurd hchanges (hnot e he)
    · exact ⟨_, e', hstep, rfl, hpath, hupdated⟩
  constructor
  · intro e he hchanges
    obtain ⟨w', e', hstep, he', -, hupdated⟩ := hwritten e he hchanges
    obtain ⟨f, hf, hlatest, -⟩ := exists_updatedAt hdated hchanges
    refine ⟨f, hf, ?_⟩
    have hnot := hforward.updatedAt w' hstep e he e' he'
    rwa [hupdated, hlatest] at hnot
  · intro e he hchanges
    obtain ⟨w', e', hstep, he', hpath, -⟩ := hwritten e he hchanges
    rcases (hforward.kept w' hstep e he e' he').1 with hsame | ⟨path, hargs, -⟩
    · cases hargs : batch.args.path with
      | none =>
          rw [hpath, hargs] at hsame
          exact Or.inl hsame.symm
      | some path => exact Or.inr rfl
    · exact Or.inr (by rw [hargs]; rfl)

end

end Warmed

open Warmed

/-- **Warming never goes back in time** in a run of dated and timely batches from any state; and of
the runs of dated batches, in no other. -/
theorem forward_along (host : Host) (record : Option ProjectStateRecord)
    (batches : List WarmingBatch) :
    (Along (Warmed.step host) (fun w b => Dated host b ∧ Timely host w b) (fresh record) batches →
      Along (Warmed.step host) (Forward host) (fresh record) batches) ∧
    ((∀ b ∈ batches, Dated host b) →
      (Along (Warmed.step host) (Forward host) (fresh record) batches ↔
        Along (Warmed.step host) (Timely host) (fresh record) batches)) := by
  have hstart := sourced_fresh host record
  have hguarded : Along (Warmed.step host) (fun w b => Dated host b ∧ Timely host w b)
      (fresh record) batches → Along (Warmed.step host) (Forward host) (fresh record) batches :=
    Along.imp_guarded (fun w b w' hw hguard hstep => sourced_step hw hguard.1 hguard.2 hstep)
      (fun w b hw hguard => forward_of_timely hw hguard.1 hguard.2) hstart
  refine ⟨hguarded, fun hdated => ⟨fun h => ?_, fun h => ?_⟩⟩
  · exact h.imp_of_mem fun w b hb hforward => timely_of_forward (hdated b hb) hforward
  · exact hguarded (h.imp_of_mem fun w b hb htimely => ⟨hdated b hb, htimely⟩)

/-- A state whose progress was set on the fifth, with no focus yet. -/
def progressOnly : ProjectStateRecord where
  id := "state"
  userId := "user"
  projectKey := some "parser"
  path := some "/repo"
  content := { latestProgress := some "Finished the lexer", confidence := 9 / 10 }
  updatedAt := "2024-05-05T00:00:00.000Z"
  version := 1
  previousProjectStateId := none

/-- A capture delivered late: its fact is of the first. -/
def lateFocus : WarmingBatch where
  now := "2024-05-06T00:00:00.000Z"
  args :=
    { facts :=
        [{ text := "Working on the parser", category := "events", confidence := 9 / 10,
           outcome := "create", timestamp := "2024-05-01T00:00:00.000Z" }]
      userId := "user"
      projectKey := some "parser"
      path := some "/repo" }

/-- The older fact fills the empty focus, and the state goes back by four days. -/
theorem late_focus_goes_back :
    ¬Along (Warmed.step .ascii) (Forward .ascii) (fresh (some progressOnly)) [lateFocus] := by
  rintro ⟨hforward, -⟩
  have hdated : Dated .ascii lateFocus := by
    intro f hf
    cases List.mem_singleton.mp hf
    decide
  have hchanges : Changes .ascii lateFocus.args (some progressOnly) := ⟨false, by decide +kernel⟩
  obtain ⟨f, hf, hnot⟩ := (timely_of_forward hdated hforward).dated progressOnly rfl hchanges
  have hstamps : (appliedFacts .ascii lateFocus.args (some progressOnly)).map (·.timestamp) =
      ["2024-05-01T00:00:00.000Z"] := by decide +kernel
  have htimestamp : f.timestamp ∈ ["2024-05-01T00:00:00.000Z"] :=
    hstamps ▸ List.mem_map_of_mem hf
  rw [List.mem_singleton.mp htimestamp] at hnot
  exact hnot ⟨1714521600000, 1714867200000, by decide, by decide, by decide⟩

end Runir
