import Runir.Lib.Runs
import Runir.Pi.Projection

/-!
# Pi — ProjectionRuns

What a turn injects, in runs of the extension.

* `Recorded`: what the world remembers of its fetches; every step keeps it (`recorded_step`).
* `Leads`: the slot holds the latest projection that was delivered.  A step keeps it unless a fetch
  of another compaction delivers out of order (`InOrder`).
* `injections_sound_iff`: in every state of a run a turn would inject soundly exactly where every
  delivery of the run is in order.
-/

namespace Runir.Pi

/-! ### Sound injections -/

/-- What the claim asks of a projection that a turn injects. -/
structure SoundInjection (config : Config) (w : World) (sessionId path : String) (now : Int)
    (staged : StagedProjection) : Prop where
  /-- It was fetched for this session and path, and delivered. -/
  session : staged.fetch.sessionId = sessionId
  path : staged.fetch.path = path
  delivered : ⟨staged.fetch, staged.content⟩ ∈ w.delivered
  kind_eq : staged.kind = staged.fetch.kind
  /-- The fetch was started after the turn before, and in this session. -/
  sinceTurn : w.lastTurn < staged.fetch.startedAt
  sinceSession : w.lastSession < staged.fetch.startedAt
  fresh : now ≤ staged.fetchedAt + config.stagedTtlMs
  once : staged.fetch ∉ w.injected
  /-- It stems from the latest compaction for which content was delivered, and is its
  post-validation projection if that has arrived. -/
  latest : ∀ d ∈ w.delivered, d.fetch.compaction ≤ staged.fetch.compaction
  kind_iff : staged.kind = .postValidation ↔
    ∃ d ∈ w.delivered, d.fetch.compaction = staged.fetch.compaction ∧ d.fetch.kind = .postValidation

/-- Whatever turn starts now, what it injects is sound. -/
def InjectsSoundly (config : Config) (w : World) : Prop :=
  ∀ sessionId path now staged, toInject w sessionId path now = some staged →
    SoundInjection config w sessionId path now staged

/-- Content that arrives finds the slot empty, or a projection of the same compaction, or one of an
earlier compaction that it replaces, or one of a later compaction that it does not replace. -/
def InOrder (w : World) (event : Event) : Prop :=
  match event with
  | .settle startedAt (.content _ _) _ =>
      ∀ fetch ∈ w.inFlight.find? (fun fetch => fetch.startedAt = startedAt),
        fetch.epochAtLaunch = w.omEpoch → ∀ staged ∈ w.stagedProjection,
          fetch.compaction = staged.fetch.compaction ∨
            if fetch.kind = .pre ∧ staged.kind = .postValidation then
              fetch.compaction < staged.fetch.compaction
            else staged.fetch.compaction < fetch.compaction
  | _ => True

/-! ### What the world remembers -/

/-- The one fetch is before the other: of an earlier compaction, or the first of the same. -/
def Before (f g : Fetch) : Prop :=
  f.compaction < g.compaction ∨
    f.compaction = g.compaction ∧ f.kind = .pre ∧ g.kind = .postValidation

/-- The fetch was started since the last turn and the last session. -/
def Current (w : World) (f : Fetch) : Prop := w.lastTurn < f.startedAt ∧ w.lastSession < f.startedAt

structure Recorded (config : Config) (w : World) : Prop where
  turn_le : w.lastTurn ≤ w.steps
  session_le : w.lastSession ≤ w.steps
  disabled : config.omDisabled = true → w.started = []
  started_le : ∀ f ∈ w.started, f.startedAt ≤ w.steps
  compaction_le : ∀ f ∈ w.started, f.compaction ≤ w.compactions ∧
    (f.compaction = w.compactions → f.kind = .postValidation → w.compacting = false)
  before : ∀ f ∈ w.started, ∀ g ∈ w.started, f.startedAt < g.startedAt → Before f g
  epoch : ∀ f ∈ w.started, f.epochAtLaunch ≤ w.omEpoch ∧
    (f.epochAtLaunch = w.omEpoch ↔ Current w f)
  inFlight_started : ∀ f ∈ w.inFlight, f ∈ w.started
  delivered_started : ∀ d ∈ w.delivered, d.fetch ∈ w.started
  injected_le : ∀ f ∈ w.injected, f.startedAt ≤ w.lastTurn
  staged : ∀ s ∈ w.stagedProjection, ⟨s.fetch, s.content⟩ ∈ w.delivered ∧ s.kind = s.fetch.kind ∧
    s.fetch.epochAtLaunch = w.omEpoch ∧ s.sessionId = s.fetch.sessionId ∧ s.path = s.fetch.path ∧
    s.expiresAt = s.fetchedAt + config.stagedTtlMs

theorem recorded_start (config : Config) : Recorded config {} where
  turn_le := le_rfl
  session_le := le_rfl
  disabled := fun _ => rfl
  started_le := fun _ h => nomatch h
  compaction_le := fun _ h => nomatch h
  before := fun _ h => nomatch h
  epoch := fun _ h => nomatch h
  inFlight_started := fun _ h => nomatch h
  delivered_started := fun _ h => nomatch h
  injected_le := fun _ h => nomatch h
  staged := fun _ h => nomatch h

variable {config : Config} {w w' : World}

/-- A step of the clock. -/
theorem Recorded.tick (h : Recorded config w) : Recorded config { w with steps := w.steps + 1 } :=
  { h with
    turn_le := Nat.le_succ_of_le h.turn_le
    session_le := Nat.le_succ_of_le h.session_le
    started_le := fun f hf => Nat.le_succ_of_le (h.started_le f hf) }

/-- A fetch started for the compaction that goes on. -/
theorem Recorded.startFetch (h : Recorded config w) {kind : OmProjectionKind} {sessionId path : String}
    (henabled : config.omDisabled = false) (hlater : ∀ f ∈ w.started, f.startedAt < w.steps)
    (hturn : w.lastTurn < w.steps) (hsession : w.lastSession < w.steps)
    (hbefore : ∀ f ∈ w.started, f.compaction < w.compactions ∨
      f.compaction = w.compactions ∧ f.kind = .pre ∧ kind = .postValidation)
    (hclosed : kind = .postValidation → w.compacting = false) :
    Recorded config (startFetch w kind sessionId path) := by
  set fetch : Fetch := ⟨kind, sessionId, path, w.omEpoch, w.steps, w.compactions⟩ with hfetch
  have hmem : ∀ f, f ∈ w.started ++ [fetch] → f ∈ w.started ∨ f = fetch := fun f hf =>
    (List.mem_append.mp hf).imp_right List.mem_singleton.mp
  refine
    { turn_le := h.turn_le
      session_le := h.session_le
      disabled := fun hdisabled => absurd (henabled.symm.trans hdisabled) Bool.false_ne_true
      started_le := fun f hf => ?_
      compaction_le := fun f hf => ?_
      before := fun f hf g hg hlt => ?_
      epoch := fun f hf => ?_
      inFlight_started := fun f hf => ?_
      delivered_started := fun d hd => List.mem_append_left _ (h.delivered_started d hd)
      injected_le := h.injected_le
      staged := h.staged }
  · rcases hmem f hf with hf | rfl
    · exact h.started_le f hf
    · exact le_rfl
  · rcases hmem f hf with hf | rfl
    · exact h.compaction_le f hf
    · exact ⟨le_rfl, fun _ => hclosed⟩
  · rcases hmem f hf with hf | rfl
    · rcases hmem g hg with hg | rfl
      · exact h.before f hf g hg hlt
      · exact hbefore f hf
    · rcases hmem g hg with hg | rfl
      · exact absurd (hlater g hg) (Nat.not_lt.mpr hlt.le)
      · exact absurd hlt (lt_irrefl _)
  · rcases hmem f hf with hf | rfl
    · exact h.epoch f hf
    · exact ⟨le_rfl, fun _ => ⟨hturn, hsession⟩, fun _ => rfl⟩
  · exact (List.mem_append.mp hf).elim (fun hf => List.mem_append_left _ (h.inFlight_started f hf))
      fun hf => List.mem_append_right _ hf

/-- A turn or a session starts: no fetch is current any more, and the slot is empty. -/
theorem Recorded.boundary (h : Recorded config w) {lastTurn lastSession : Nat} {injected : List Fetch}
    (hnow : lastTurn ≤ w.steps ∧ lastSession ≤ w.steps)
    (hlater : ∀ f ∈ w.started, f.startedAt ≤ lastTurn ∨ f.startedAt ≤ lastSession)
    (hinjected : ∀ f ∈ injected, f.startedAt ≤ lastTurn) :
    Recorded config
      { w with
        stagedProjection := none, omEpoch := w.omEpoch + 1, lastTurn := lastTurn,
        lastSession := lastSession, injected := injected } :=
  { h with
    turn_le := hnow.1
    session_le := hnow.2
    epoch := fun f hf => by
      have hle := (h.epoch f hf).1
      refine ⟨Nat.le_succ_of_le hle, fun heq => ?_, fun hcurrent => ?_⟩
      · exact absurd heq (Nat.ne_of_lt (Nat.lt_succ_of_le hle))
      · rcases hlater f hf with hf | hf
        · exact absurd hcurrent.1 (Nat.not_lt.mpr hf)
        · exact absurd hcurrent.2 (Nat.not_lt.mpr hf)
    injected_le := hinjected
    staged := fun s hs => nomatch hs }

/-- A compaction is opened. -/
theorem Recorded.openCompaction (h : Recorded config w) (compacting : Bool) :
    Recorded config { w with compactions := w.compactions + 1, compacting := compacting } :=
  { h with
    compaction_le := fun f hf => by
      have hle := (h.compaction_le f hf).1
      exact ⟨Nat.le_succ_of_le hle, fun heq => absurd heq (Nat.ne_of_lt (Nat.lt_succ_of_le hle))⟩ }

theorem Recorded.closeCompaction (h : Recorded config w) :
    Recorded config { w with compacting := false } :=
  { h with compaction_le := fun f hf => ⟨(h.compaction_le f hf).1, fun _ _ => rfl⟩ }

/-- An answer arrives. -/
theorem Recorded.settle (h : Recorded config w) {inFlight : List Fetch} {delivered : List Delivery}
    (hinFlight : ∀ f ∈ inFlight, f ∈ w.inFlight)
    (hdelivered : ∀ d ∈ delivered, d.fetch ∈ w.started) (hkeeps : ∀ d ∈ w.delivered, d ∈ delivered) :
    Recorded config { w with inFlight := inFlight, delivered := delivered } :=
  { h with
    inFlight_started := fun f hf => h.inFlight_started f (hinFlight f hf)
    delivered_started := hdelivered
    staged := fun s hs => ⟨hkeeps _ (h.staged s hs).1, (h.staged s hs).2⟩ }

variable {fetch : Fetch} {content : String} {count : Option ℚ} {now : Int}

/-- The slot keeps what it holds, or takes what has just been delivered. -/
theorem Recorded.stage (h : Recorded config w) (hdelivered : ⟨fetch, content⟩ ∈ w.delivered) :
    Recorded config (stage config w fetch content count now) := by
  unfold Pi.stage
  split
  · exact h
  · next hepoch =>
      split
      · exact h
      · refine { h with staged := fun s hs => ?_ }
        obtain rfl := Option.some.inj hs
        exact ⟨hdelivered, rfl, (not_not.mp hepoch).symm, rfl, rfl, rfl⟩

theorem find?_inFlight {w : World} {startedAt : Nat}
    (h : w.inFlight.find? (fun fetch => fetch.startedAt = startedAt) = some fetch) :
    fetch ∈ w.inFlight :=
  List.mem_of_find?_eq_some h

variable {event : Event}

theorem recorded_step (h : Recorded config w) (hstep : step config w event = some w') :
    Recorded config w' := by
  have htick := h.tick
  have hstarted : ∀ f ∈ w.started, f.startedAt < w.steps + 1 := fun f hf =>
    Nat.lt_succ_of_le (h.started_le f hf)
  have hturn : w.lastTurn < w.steps + 1 := Nat.lt_succ_of_le h.turn_le
  have hsession : w.lastSession < w.steps + 1 := Nat.lt_succ_of_le h.session_le
  cases event with
  | sessionStart =>
      obtain rfl := Option.some.inj hstep
      exact htick.boundary ⟨hturn.le, le_rfl⟩
        (fun f hf => Or.inr (hstarted f hf).le) h.injected_le
  | beforeAgentStart sessionId path now =>
      simp only [step] at hstep
      split at hstep
      · next hdisabled =>
          -- without fetches nothing is staged
          obtain rfl := Option.some.inj hstep
          have hnone := h.disabled hdisabled
          refine
            { htick with
              turn_le := le_rfl
              epoch := fun f hf => ?_
              injected_le := fun f hf => (h.injected_le f hf).trans hturn.le }
          rw [hnone] at hf
          exact nomatch hf
      · obtain rfl := Option.some.inj hstep
        refine htick.boundary ⟨le_rfl, hsession.le⟩
          (fun f hf => Or.inl (hstarted f hf).le) fun f hf => ?_
        rcases List.mem_append.mp hf with hf | hf
        · exact (h.injected_le f hf).trans hturn.le
        · rw [Option.mem_toList] at hf
          obtain ⟨staged, hstaged, rfl⟩ := Option.map_eq_some_iff.mp hf
          have hslot : staged ∈ w.stagedProjection := (Option.filter_eq_some_iff.mp hstaged).1
          exact (hstarted _ (h.delivered_started _ (h.staged staged hslot).1)).le
  | sessionBeforeCompact sessionId path hasKey =>
      simp only [step] at hstep
      have hopen := htick.openCompaction true
      split at hstep
      · obtain rfl := Option.some.inj hstep
        exact hopen
      · next hrun =>
          obtain rfl := Option.some.inj hstep
          rw [Bool.or_eq_true, not_or, Bool.not_eq_true] at hrun
          refine hopen.startFetch hrun.1 hstarted hturn hsession (fun f hf => ?_) fun h => nomatch h
          exact Or.inl (Nat.lt_succ_of_le (h.compaction_le f hf).1)
  | sessionCompact sessionId path hasKey =>
      simp only [step] at hstep
      by_cases hcompacting : w.compacting = true
      · rw [if_pos hcompacting] at hstep
        have hclose := htick.closeCompaction
        split at hstep
        · obtain rfl := Option.some.inj hstep
          exact hclose
        · next hrun =>
            obtain rfl := Option.some.inj hstep
            rw [Bool.or_eq_true, not_or, Bool.not_eq_true] at hrun
            refine hclose.startFetch hrun.1 hstarted hturn hsession (fun f hf => ?_) fun _ => rfl
            obtain ⟨hle, hkind⟩ := h.compaction_le f hf
            rcases hle.lt_or_eq with hlt | heq
            · exact Or.inl hlt
            · -- the compaction is still open, so what it has started is its first
              refine Or.inr ⟨heq, ?_, rfl⟩
              cases hpost : f.kind with
              | pre => rfl
              | postValidation =>
                  exact absurd ((hkind heq hpost).symm.trans hcompacting) Bool.false_ne_true
      · rw [if_neg hcompacting] at hstep
        have hopen := htick.openCompaction w.compacting
        split at hstep
        · obtain rfl := Option.some.inj hstep
          exact hopen
        · next hrun =>
            obtain rfl := Option.some.inj hstep
            rw [Bool.or_eq_true, not_or, Bool.not_eq_true] at hrun
            refine hopen.startFetch hrun.1 hstarted hturn hsession (fun f hf => ?_)
              fun _ => Bool.eq_false_iff.mpr hcompacting
            exact Or.inl (Nat.lt_succ_of_le (h.compaction_le f hf).1)
  | settle startedAt outcome now =>
      simp only [step] at hstep
      split at hstep
      · cases hstep
      · next fetch hfind =>
          have hfetch : fetch ∈ w.started := h.inFlight_started fetch (find?_inFlight hfind)
          have hinFlight : ∀ f ∈ w.inFlight.filter fun other => other.startedAt ≠ startedAt,
              f ∈ w.inFlight := fun f hf => List.mem_of_mem_filter hf
          cases outcome with
          | content content count =>
              obtain rfl := Option.some.inj hstep
              refine Recorded.stage (htick.settle hinFlight (fun d hd => ?_)
                fun d hd => List.mem_append_left _ hd) (List.mem_append_right _ (List.mem_singleton_self _))
              rcases List.mem_append.mp hd with hd | hd
              · exact h.delivered_started d hd
              · rw [List.mem_singleton.mp hd]
                exact hfetch
          | empty =>
              obtain rfl := Option.some.inj hstep
              exact htick.settle hinFlight h.delivered_started fun d hd => hd
          | failed =>
              obtain rfl := Option.some.inj hstep
              exact htick.settle hinFlight h.delivered_started fun d hd => hd

/-! ### The slot leads -/

/-- The place of a fetch: its compaction, and there the post-validation projection comes last. -/
def Fetch.rank (f : Fetch) : Nat :=
  match f.kind with
  | .pre => 2 * f.compaction
  | .postValidation => 2 * f.compaction + 1

theorem rank_of_pre {f : Fetch} (h : f.kind = .pre) : f.rank = 2 * f.compaction := by
  rw [Fetch.rank, h]

theorem rank_of_post {f : Fetch} (h : f.kind = .postValidation) : f.rank = 2 * f.compaction + 1 := by
  rw [Fetch.rank, h]

theorem rank_bounds (f : Fetch) : 2 * f.compaction ≤ f.rank ∧ f.rank ≤ 2 * f.compaction + 1 := by
  cases h : f.kind with
  | pre => rw [rank_of_pre h]; omega
  | postValidation => rw [rank_of_post h]; omega

theorem rank_le_of_not_blocked {f g : Fetch} (heq : f.compaction = g.compaction)
    (hblocked : ¬(f.kind = .pre ∧ g.kind = .postValidation)) : g.rank ≤ f.rank := by
  cases hf : f.kind with
  | postValidation =>
      rw [rank_of_post hf, heq]
      exact (rank_bounds g).2
  | pre =>
      cases hg : g.kind with
      | pre => rw [rank_of_pre hf, rank_of_pre hg, heq]
      | postValidation => exact absurd ⟨hf, hg⟩ hblocked

theorem Before.rank_lt {f g : Fetch} (h : Before f g) : f.rank < g.rank := by
  rcases h with hlt | ⟨heq, hf, hg⟩
  · have hf := rank_bounds f
    have hg := rank_bounds g
    omega
  · rw [rank_of_pre hf, rank_of_post hg]
    omega

/-- Nothing that was delivered is after what the slot holds, and nothing delivered is of this epoch
where the slot is empty. -/
structure Leads (w : World) : Prop where
  slot : ∀ s ∈ w.stagedProjection, ∀ d ∈ w.delivered, d.fetch.rank ≤ s.fetch.rank
  empty : w.stagedProjection = none → ∀ d ∈ w.delivered, d.fetch.epochAtLaunch ≠ w.omEpoch

theorem leads_start : Leads {} where
  slot := fun _ h => nomatch h
  empty := fun _ _ h => nomatch h

/-- What is not of this epoch was started before what is. -/
theorem Recorded.before_current (h : Recorded config w) {f g : Fetch} (hf : f ∈ w.started)
    (hg : g ∈ w.started) (hstale : f.epochAtLaunch ≠ w.omEpoch) (hcurrent : g.epochAtLaunch = w.omEpoch) :
    f.rank < g.rank := by
  have hnot : ¬Current w f := fun hnow => hstale ((h.epoch f hf).2.mpr hnow)
  obtain ⟨hturn, hsession⟩ := (h.epoch g hg).2.mp hcurrent
  refine (h.before f hf g hg ?_).rank_lt
  by_contra hlt
  exact hnot ⟨by omega, by omega⟩

/-- An epoch ends with an empty slot. -/
theorem Recorded.leads_boundary (h : Recorded config w) {w' : World} (hslot : w'.stagedProjection = none)
    (hepoch : w'.omEpoch = w.omEpoch + 1) (hdelivered : w'.delivered = w.delivered) : Leads w' where
  slot := fun s hs => by rw [hslot] at hs; exact nomatch hs
  empty := fun _ d hd => by
    rw [hdelivered] at hd
    have hle := (h.epoch _ (h.delivered_started d hd)).1
    omega

theorem Leads.congr (h : Leads w) (hslot : w'.stagedProjection = w.stagedProjection)
    (hepoch : w'.omEpoch = w.omEpoch) (hdelivered : w'.delivered = w.delivered) : Leads w' := by
  refine ⟨?_, ?_⟩
  · rw [hslot, hdelivered]
    exact h.slot
  · rw [hslot, hepoch, hdelivered]
    exact h.empty

/-- A delivery of another epoch does not reach the slot. -/
theorem Leads.deliver_stale (hleads : Leads w) (h : Recorded config w)
    (hfetch : fetch ∈ w.started) (hstale : fetch.epochAtLaunch ≠ w.omEpoch) :
    Leads { w with delivered := w.delivered ++ [⟨fetch, content⟩] } where
  slot := fun s hs d hd => by
    rcases List.mem_append.mp hd with hd | hd
    · exact hleads.slot s hs d hd
    · rw [List.mem_singleton.mp hd]
      obtain ⟨hdelivered, -, hcurrent, -⟩ := h.staged s hs
      exact (h.before_current hfetch (h.delivered_started _ hdelivered) hstale hcurrent).le
  empty := fun hnone d hd => by
    rcases List.mem_append.mp hd with hd | hd
    · exact hleads.empty hnone d hd
    · rw [List.mem_singleton.mp hd]
      exact hstale

/-- A pre projection leaves a validated one in its place. -/
def Blocked (w : World) (fetch : Fetch) : Prop :=
  fetch.kind = .pre ∧ w.stagedProjection.map (·.kind) = some .postValidation

theorem stage_stale
    (hstale : fetch.epochAtLaunch ≠ w.omEpoch) : stage config w fetch content count now = w :=
  if_pos fun heq => hstale heq.symm

theorem stage_blocked
    (hblocked : Blocked w fetch) : stage config w fetch content count now = w := by
  unfold stage
  split
  · rfl
  · exact if_pos hblocked

theorem stage_open (config : Config) (content : String) (count : Option ℚ) (now : Int)
    (hcurrent : fetch.epochAtLaunch = w.omEpoch) (hopen : ¬Blocked w fetch) :
    ∃ staged, stage config w fetch content count now = { w with stagedProjection := some staged } ∧
      staged.fetch = fetch ∧ staged.fetchedAt ≤ staged.expiresAt := by
  refine ⟨_, (if_neg fun hne => hne hcurrent.symm).trans (if_neg hopen), rfl, ?_⟩
  dsimp only
  omega

theorem blocked_iff {staged : StagedProjection} (hslot : w.stagedProjection = some staged) :
    Blocked w fetch ↔ fetch.kind = .pre ∧ staged.kind = .postValidation := by
  rw [Blocked, hslot, Option.map_some, Option.some.injEq]

/-- Content that arrives in order leaves the slot in the lead. -/
theorem Leads.stage (hleads : Leads w) (h : Recorded config w) (hfetch : fetch ∈ w.started)
    (horder : fetch.epochAtLaunch = w.omEpoch → ∀ staged ∈ w.stagedProjection,
      fetch.compaction = staged.fetch.compaction ∨
        if fetch.kind = .pre ∧ staged.kind = .postValidation then
          fetch.compaction < staged.fetch.compaction
        else staged.fetch.compaction < fetch.compaction) :
    Leads (stage config { w with delivered := w.delivered ++ [⟨fetch, content⟩] } fetch content count
      now) := by
  set v : World := { w with delivered := w.delivered ++ [⟨fetch, content⟩] } with hv
  by_cases hepoch : fetch.epochAtLaunch = w.omEpoch
  · have hbounds := rank_bounds fetch
    have hcurrent : fetch.epochAtLaunch = v.omEpoch := hepoch
    have hdelivered : ∀ d ∈ v.delivered, d ∈ w.delivered ∨ d = ⟨fetch, content⟩ := fun d hd =>
      (List.mem_append.mp hd).imp_right List.mem_singleton.mp
    rcases Option.eq_none_or_eq_some w.stagedProjection with hslot | ⟨staged, hslot⟩
    · -- whatever was delivered before is of an earlier epoch
      have hopen : ¬Blocked v fetch := by
        rintro ⟨-, hpost⟩
        rw [hv, hslot] at hpost
        exact nomatch hpost
      obtain ⟨next, hstage, hnext, -⟩ := stage_open config content count now hcurrent hopen
      rw [hstage]
      refine ⟨fun s hs d hd => ?_, fun hnone => nomatch hnone⟩
      obtain rfl := Option.some.inj hs
      rw [hnext]
      rcases hdelivered d hd with hd | rfl
      · exact (h.before_current (h.delivered_started d hd) hfetch (hleads.empty hslot d hd) hepoch).le
      · exact le_rfl
    · have hkind := (h.staged staged hslot).2.1
      have hstaged := rank_bounds staged.fetch
      have hlead := hleads.slot staged hslot
      have horder := horder hepoch staged hslot
      have hiff : Blocked v fetch ↔ _ := blocked_iff hslot
      by_cases hblocked : fetch.kind = .pre ∧ staged.kind = .postValidation
      · rw [if_pos hblocked] at horder
        have hpre := rank_of_pre hblocked.1
        rw [stage_blocked (hiff.mpr hblocked)]
        refine ⟨fun s hs d hd => ?_, fun hnone => nomatch hslot.symm.trans hnone⟩
        obtain rfl := Option.some.inj (hslot.symm.trans hs)
        rcases hdelivered d hd with hd | rfl
        · exact hlead d hd
        · dsimp only
          omega
      · rw [if_neg hblocked] at horder
        have hle : staged.fetch.rank ≤ fetch.rank := by
          rcases horder with heq | hlt
          · rw [hkind] at hblocked
            exact rank_le_of_not_blocked heq hblocked
          · omega
        obtain ⟨next, hstage, hnext, -⟩ := stage_open config content count now hcurrent (mt hiff.mp hblocked)
        rw [hstage]
        refine ⟨fun s hs d hd => ?_, fun hnone => nomatch hnone⟩
        obtain rfl := Option.some.inj hs
        rw [hnext]
        rcases hdelivered d hd with hd | rfl
        · exact (hlead d hd).trans hle
        · exact le_rfl
  · have hstale : fetch.epochAtLaunch ≠ v.omEpoch := hepoch
    rw [stage_stale hstale]
    exact hleads.deliver_stale h hfetch hepoch

/-- A step in order keeps the lead. -/
theorem leads_step (h : Recorded config w) (hleads : Leads w)
    (horder : InOrder w event) (hstep : step config w event = some w') : Leads w' := by
  cases event with
  | sessionStart =>
      obtain rfl := Option.some.inj hstep
      exact h.leads_boundary rfl rfl rfl
  | beforeAgentStart sessionId path now =>
      simp only [step] at hstep
      split at hstep
      · obtain rfl := Option.some.inj hstep
        exact hleads.congr rfl rfl rfl
      · obtain rfl := Option.some.inj hstep
        exact h.leads_boundary rfl rfl rfl
  | sessionBeforeCompact sessionId path hasKey =>
      simp only [step] at hstep
      split at hstep
      · obtain rfl := Option.some.inj hstep
        exact hleads.congr rfl rfl rfl
      · obtain rfl := Option.some.inj hstep
        exact hleads.congr rfl rfl rfl
  | sessionCompact sessionId path hasKey =>
      simp only [step] at hstep
      by_cases hcompacting : w.compacting = true
      · rw [if_pos hcompacting] at hstep
        split at hstep
        · obtain rfl := Option.some.inj hstep
          exact hleads.congr rfl rfl rfl
        · obtain rfl := Option.some.inj hstep
          exact hleads.congr rfl rfl rfl
      · rw [if_neg hcompacting] at hstep
        split at hstep
        · obtain rfl := Option.some.inj hstep
          exact hleads.congr rfl rfl rfl
        · obtain rfl := Option.some.inj hstep
          exact hleads.congr rfl rfl rfl
  | settle startedAt outcome now =>
      simp only [step] at hstep
      split at hstep
      · cases hstep
      · next fetch hfind =>
          have hfetch : fetch ∈ w.started := h.inFlight_started fetch (find?_inFlight hfind)
          cases outcome with
          | content content count =>
              obtain rfl := Option.some.inj hstep
              have hinFlight : ∀ f ∈ w.inFlight.filter fun other => other.startedAt ≠ startedAt,
                  f ∈ w.inFlight := fun f hf => List.mem_of_mem_filter hf
              have hsettled := h.tick.settle hinFlight h.delivered_started fun d hd => hd
              have hleads' : Leads
                  { w with
                    steps := w.steps + 1
                    inFlight := w.inFlight.filter fun other => other.startedAt ≠ startedAt } :=
                hleads.congr rfl rfl rfl
              exact hleads'.stage hsettled hfetch (horder fetch hfind)
          | empty =>
              obtain rfl := Option.some.inj hstep
              exact hleads.congr rfl rfl rfl
          | failed =>
              obtain rfl := Option.some.inj hstep
              exact hleads.congr rfl rfl rfl

/-! ### Sound injections, exactly -/

/-- Where the slot leads, what a turn injects is sound. -/
theorem Recorded.injectsSoundly (h : Recorded config w) (hleads : Leads w) : InjectsSoundly config w := by
  intro sessionId path now staged hstaged
  obtain ⟨hslot, htest⟩ := Option.filter_eq_some_iff.mp hstaged
  simp only [Bool.and_eq_true, Bool.not_eq_true', decide_eq_false_iff_not, decide_eq_true_eq] at htest
  obtain ⟨⟨hfresh, hsession⟩, hpath⟩ := htest
  obtain ⟨hdelivered, hkind, hcurrent, hsession', hpath', hexpires⟩ := h.staged staged hslot
  have hstarted := h.delivered_started _ hdelivered
  obtain ⟨hturn, hstart⟩ := (h.epoch _ hstarted).2.mp hcurrent
  have hlead := hleads.slot staged hslot
  have hbounds := rank_bounds staged.fetch
  exact
    { session := hsession'.symm.trans hsession
      path := hpath'.symm.trans hpath
      delivered := hdelivered
      kind_eq := hkind
      sinceTurn := hturn
      sinceSession := hstart
      fresh := by omega
      once := fun hmem => absurd hturn (Nat.not_lt.mpr (h.injected_le _ hmem))
      latest := fun d hd => by
        have hle := hlead d hd
        have hd' := rank_bounds d.fetch
        omega
      kind_iff := by
        refine ⟨fun hpost => ⟨_, hdelivered, rfl, hkind.symm.trans hpost⟩, ?_⟩
        rintro ⟨d, hd, hcompaction, hpost⟩
        cases hk : staged.kind with
        | postValidation => rfl
        | pre =>
            have hle := hlead d hd
            rw [rank_of_post hpost, rank_of_pre (hkind.symm.trans hk)] at hle
            omega }

/-- A turn of the session and path of what is staged, at once. -/
theorem toInject_staged {w : World} {staged : StagedProjection} (hslot : w.stagedProjection = some staged)
    (hexpires : staged.fetchedAt ≤ staged.expiresAt) :
    toInject w staged.sessionId staged.path staged.fetchedAt = some staged := by
  refine Option.filter_eq_some_iff.mpr ⟨hslot, ?_⟩
  simpa using hexpires

/-- The world in which content arrives, before the slot is looked at. -/
def arrived (w : World) (startedAt : Nat) (fetch : Fetch) (content : String) : World :=
  { w with
    steps := w.steps + 1
    inFlight := w.inFlight.filter fun other => other.startedAt ≠ startedAt
    delivered := w.delivered ++ [⟨fetch, content⟩] }

theorem step_content {startedAt : Nat}
    (hfind : w.inFlight.find? (fun fetch => fetch.startedAt = startedAt) = some fetch) :
    step config w (.settle startedAt (.content content count) now) =
      some (stage config (arrived w startedAt fetch content) fetch content count now) := by
  simp only [step, hfind, arrived]

/-- Content that arrives out of order leaves a slot that is not the latest. -/
theorem unsound_of_not_inOrder (h : Recorded config w) (horder : ¬InOrder w event) :
    ∃ w', step config w event = some w' ∧ ¬InjectsSoundly config w' := by
  cases event with
  | settle startedAt outcome now =>
      cases outcome with
      | content content count =>
          simp only [InOrder, not_forall, not_or] at horder
          obtain ⟨fetch, hfind, hepoch, staged, hslot, hne, hwrong⟩ := horder
          have hstage := h.staged staged hslot
          refine ⟨_, step_content hfind, fun hsound => ?_⟩
          set v := arrived w startedAt fetch content with hv
          have hcurrent : fetch.epochAtLaunch = v.omEpoch := hepoch
          have hslot' : v.stagedProjection = some staged := hslot
          have hnew : (⟨fetch, content⟩ : Delivery) ∈ v.delivered :=
            List.mem_append_right _ (List.mem_singleton_self _)
          have hold : (⟨staged.fetch, staged.content⟩ : Delivery) ∈ v.delivered :=
            List.mem_append_left _ hstage.1
          by_cases hblocked : fetch.kind = .pre ∧ staged.kind = .postValidation
          · -- the slot keeps the projection of an earlier compaction
            rw [if_pos hblocked] at hwrong
            rw [stage_blocked ((blocked_iff hslot').mpr hblocked)] at hsound
            have hturn := toInject_staged hslot' (by rw [hstage.2.2.2.2.2]; omega)
            have hlatest := (hsound _ _ _ staged hturn).latest _ hnew
            dsimp only at hlatest
            omega
          · -- the slot takes the projection of an earlier compaction
            rw [if_neg hblocked] at hwrong
            obtain ⟨next, hnext, rfl, hexpires⟩ :=
              stage_open config content count now hcurrent (mt (blocked_iff hslot').mp hblocked)
            rw [hnext] at hsound
            have hlatest := (hsound _ _ _ next (toInject_staged rfl hexpires)).latest _ hold
            dsimp only at hlatest
            omega
      | empty | failed => exact absurd trivial horder
  | sessionStart | beforeAgentStart | sessionBeforeCompact | sessionCompact =>
      exact absurd trivial horder

/-- **Whatever turn may start after any prefix of a run, its injection is sound exactly where all
content that the run delivers is in order.** -/
theorem injections_sound_iff (config : Config) (events : List Event) :
    (∀ n w, Runs.exec (step config) {} (events.take n) = some w → InjectsSoundly config w) ↔
      Runs.Along (step config) InOrder {} events := by
  refine Runs.always_iff_along (I := fun w => Recorded config w ∧ Leads w) ?_ ?_ ?_
    ⟨recorded_start config, leads_start⟩
  · rintro w event w' ⟨h, hleads⟩ horder hstep
    exact ⟨recorded_step h hstep, leads_step h hleads horder hstep⟩
  · rintro w ⟨h, hleads⟩
    exact h.injectsSoundly hleads
  · rintro w event ⟨h, -⟩ horder
    exact unsound_of_not_inOrder h horder

/-- Two compactions without a turn between them: the second finds the validated projection of the
first in the slot, and its own is dropped. -/
def twoCompactions : List Event :=
  [.sessionBeforeCompact "s" "p" true, .sessionCompact "s" "p" true,
    .settle 2 (.content "first" (some 1)) 0, .sessionBeforeCompact "s" "p" true,
    .settle 4 (.content "second" (some 1)) 0]

/-- A turn after `twoCompactions` injects the projection of the first, though the second has
delivered. -/
theorem injects_earlier_compaction :
    ¬∀ (config : Config) (events : List Event) (n : Nat) (w : World),
        Runs.exec (step config) {} (events.take n) = some w → InjectsSoundly config w := by
  intro hall
  obtain ⟨w, hrun⟩ : ∃ w, Runs.exec (step {}) {} twoCompactions = some w := ⟨_, rfl⟩
  have hsound := hall {} twoCompactions 5 w hrun
  have hends : (toInject w "s" "p" 0).map (·.fetch.compaction) = some 1 ∧
      2 ∈ w.delivered.map (·.fetch.compaction) := by
    obtain rfl := Option.some.inj hrun
    decide +kernel
  obtain ⟨staged, hstaged, hfirst⟩ := Option.map_eq_some_iff.mp hends.1
  obtain ⟨d, hd, hsecond⟩ := List.mem_map.mp hends.2
  have hlatest := (hsound "s" "p" 0 staged hstaged).latest d hd
  omega

end Runir.Pi
