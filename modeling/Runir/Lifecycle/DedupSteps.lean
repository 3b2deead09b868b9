import Runir.Lifecycle.Dedup
import Runir.Store.SupersedeFacts

/-!
# Lifecycle — Dedup steps

What a step of the dedup sweep can do, said once (`DedupMoves`, `moves_of_step`), and the shape every
sweep keeps: it works on rows of its snapshot (`Sweep.Within`).
-/

namespace Runir

/-- A call leaves the rows and fails, or runs its plan, and returns or fails all the same. -/
theorem SweepCall.run_cases (host : Host) (call : SweepCall) (input : SupersedeInput) (rows : Rows) :
    call.run host input rows = (rows, false) ∨
      ∃ p, Prepared call.failed rows input p ∧
        supersedeMemory host call.now call.failed input rows = .ok (planRows host call.now p rows) ∧
        ((call.fate = .done ∧ call.run host input rows = (planRows host call.now p rows, true)) ∨
          (call.fate = .inDoubt ∧
            call.run host input rows = (planRows host call.now p rows, false))) := by
  unfold SweepCall.run
  cases hresult : supersedeMemory host call.now call.failed input rows with
  | error e => exact Or.inl rfl
  | ok rows' =>
      obtain ⟨p, hp, rfl⟩ := supersedeMemory_ok hresult
      cases hfate : call.fate with
      | rolledBack => exact Or.inl rfl
      | done => exact Or.inr ⟨p, hp, rfl, Or.inl ⟨rfl, rfl⟩⟩
      | inDoubt => exact Or.inr ⟨p, hp, rfl, Or.inr ⟨rfl, rfl⟩⟩

/-- The pair a comparison sends to `supersedeMemory`, if it is one. -/
def DedupState.pending (env : DedupEnv) (s : DedupState) : Option (SweepRow × SweepRow) :=
  match s.phase with
  | .sweeping sweep =>
      match sweep.current with
      | some (candidate, other :: _, _) =>
          if other.id = candidate.id ∨ other.id ∈ sweep.deduped then none
          else if candidate.duplicates env.host other then some (candidate, other)
          else none
      | _ => none
  | _ => none

variable {env : DedupEnv} {candidate other : SweepRow}

theorem pending_of_current {rows : Rows} {w : Option String} {s : Sweep}
    {others : List SweepRow} {failed : Bool}
    (hcurrent : s.current = some (candidate, other :: others, failed))
    (hne : other.id ≠ candidate.id) (hother : other.id ∉ s.deduped)
    (hduplicates : candidate.duplicates env.host other = true) :
    (⟨rows, w, .sweeping s⟩ : DedupState).pending env = some (candidate, other) := by
  simp only [DedupState.pending, hcurrent, hduplicates, if_true,
    if_neg (not_or.mpr ⟨hne, hother⟩)]

/-- What a pending pair is. -/
theorem pending_cases {s : DedupState} (h : s.pending env = some (candidate, other)) :
    ∃ sweep others failed, s.phase = .sweeping sweep ∧
      sweep.current = some (candidate, other :: others, failed) ∧ other.id ≠ candidate.id ∧
        other.id ∉ sweep.deduped ∧ candidate.duplicates env.host other = true := by
  unfold DedupState.pending at h
  split at h
  · next sweep hphase =>
      split at h
      · next hcurrent =>
          split_ifs at h with hgone hduplicates
          cases h
          exact ⟨sweep, _, _, hphase, hcurrent, (not_or.mp hgone).1, (not_or.mp hgone).2,
            hduplicates⟩
      · cases h
  · cases h

/-- A transaction that is not rolled back leaves what `supersedeMemory` leaves. -/
theorem SweepCall.run_fst {host : Host} {call : SweepCall} {input : SupersedeInput}
    {rows rows' : Rows} (hfate : call.fate ≠ .rolledBack)
    (h : supersedeMemory host call.now call.failed input rows = .ok rows') :
    (call.run host input rows).1 = rows' := by
  unfold SweepCall.run
  rw [h]
  cases hcall : call.fate with
  | done => rfl
  | rolledBack => exact absurd hcall hfate
  | inDoubt => rfl

/-- The steps of a sweep. -/
inductive DedupMoves (env : DedupEnv) : DedupState → DedupEvent → DedupState → Prop where
  | snapshot (rows : Rows) (w : Option String) (now : Int)
      (embed : SweepMemory → Option (List ℚ)) :
      DedupMoves env ⟨rows, w, .idle⟩ (.snapshot now embed)
        ⟨rows, w, .snapshot ((fetchAllActiveMemoriesForScope now env.userId env.scope env.limit
          rows).map (resolveVector embed))⟩
  | readWatermark (rows : Rows) (w : Option String) (all : List SweepRow) :
      DedupMoves env ⟨rows, w, .snapshot all⟩ .readWatermark
        ⟨rows, w, .sweeping (Sweep.start (w.filter (· ≠ "")) all)⟩
  | take (rows : Rows) (w : Option String) (s : Sweep) (candidate : SweepRow)
      (rest : List SweepRow) (hcurrent : s.current = none) (htodo : s.todo = candidate :: rest)
      (hvector : candidate.vector.isSome) (hnew : candidate.id ∉ s.deduped) :
      DedupMoves env ⟨rows, w, .sweeping s⟩ .begin
        ⟨rows, w, .sweeping { s with todo := rest, current := some (candidate, s.all, false) }⟩
  | pass (rows : Rows) (w : Option String) (s : Sweep) (candidate : SweepRow)
      (rest : List SweepRow) (hcurrent : s.current = none) (htodo : s.todo = candidate :: rest)
      (hpass : ¬(candidate.vector.isSome ∧ candidate.id ∉ s.deduped)) :
      DedupMoves env ⟨rows, w, .sweeping s⟩ .begin
        ⟨rows, w, .sweeping { s with todo := rest, current := none }⟩
  | exhausted (rows : Rows) (w : Option String) (s : Sweep) (candidate : SweepRow)
      (rest : List SweepRow) (hcurrent : s.current = none) (htodo : s.todo = candidate :: rest) :
      DedupMoves env ⟨rows, w, .sweeping s⟩ .exhausted
        ⟨rows, w, .sweeping { s with todo := [], firstUnsweptW := s.unswept candidate }⟩
  | skip (rows : Rows) (w : Option String) (s : Sweep) (candidate other : SweepRow)
      (others : List SweepRow) (failed : Bool) (call : SweepCall)
      (hcurrent : s.current = some (candidate, other :: others, failed))
      (hskip : other.id = candidate.id ∨ other.id ∈ s.deduped ∨
        candidate.duplicates env.host other = false) :
      DedupMoves env ⟨rows, w, .sweeping s⟩ (.compare call)
        ⟨rows, w, .sweeping { s with current := some (candidate, others, failed) }⟩
  | call (rows rows' : Rows) (w : Option String) (s : Sweep) (candidate other : SweepRow)
      (others : List SweepRow) (failed ok : Bool) (call : SweepCall)
      (hcurrent : s.current = some (candidate, other :: others, failed))
      (hne : other.id ≠ candidate.id) (hother : other.id ∉ s.deduped)
      (hduplicates : candidate.duplicates env.host other = true)
      (hrun : call.run env.host (Sweep.supersedeInput env.userId env.scope candidate other) rows =
        (rows', ok)) :
      DedupMoves env ⟨rows, w, .sweeping s⟩ (.compare call)
        ⟨rows', w, .sweeping { s with
          deduped := if ok then s.deduped ++ [(candidate.older other).id] else s.deduped
          current := some (candidate,
            if candidate.id ∈ (if ok then s.deduped ++ [(candidate.older other).id]
              else s.deduped) then [] else others, failed || !ok) }⟩
  | finish (rows : Rows) (w : Option String) (s : Sweep) (candidate : SweepRow) (failed : Bool)
      (hcurrent : s.current = some (candidate, [], failed)) :
      DedupMoves env ⟨rows, w, .sweeping s⟩ .finish
        ⟨rows, w, .sweeping { s with
          current := none
          firstUnsweptW := if failed then s.unswept candidate else s.firstUnsweptW }⟩
  | advance (rows : Rows) (w : Option String) (s : Sweep) (hcurrent : s.current = none)
      (htodo : s.todo = []) :
      DedupMoves env ⟨rows, w, .sweeping s⟩ .advance ⟨rows, s.sweptThrough.or w, .idle⟩
  | abandon (rows : Rows) (w : Option String) (phase : DedupPhase) :
      DedupMoves env ⟨rows, w, phase⟩ .abandon ⟨rows, w, .idle⟩

variable {s s' : DedupState} {e : DedupEvent}

/-- **Every step is one of these.** -/
theorem moves_of_step (h : s.step env e = some s') : DedupMoves env s e s' := by
  obtain ⟨rows, w, phase⟩ := s
  cases e with
  | snapshot now embed =>
      cases phase with
      | idle =>
          cases h
          exact .snapshot rows w now embed
      | snapshot all => cases h
      | sweeping s => cases h
  | readWatermark =>
      cases phase with
      | idle => cases h
      | snapshot all =>
          cases h
          exact .readWatermark rows w all
      | sweeping s => cases h
  | begin =>
      cases phase with
      | idle => cases h
      | snapshot all => cases h
      | sweeping s =>
          simp only [DedupState.step] at h
          split at h
          · next candidate rest hcurrent htodo =>
              by_cases htake : candidate.vector.isSome ∧ candidate.id ∉ s.deduped
              · rw [if_pos htake] at h
                cases h
                exact .take rows w s candidate rest hcurrent htodo htake.1 htake.2
              · rw [if_neg htake] at h
                cases h
                exact .pass rows w s candidate rest hcurrent htodo htake
          · cases h
  | exhausted =>
      cases phase with
      | idle => cases h
      | snapshot all => cases h
      | sweeping s =>
          simp only [DedupState.step] at h
          split at h
          · next candidate rest hcurrent htodo =>
              cases h
              exact .exhausted rows w s candidate rest hcurrent htodo
          · cases h
  | compare call =>
      cases phase with
      | idle => cases h
      | snapshot all => cases h
      | sweeping s =>
          simp only [DedupState.step] at h
          split at h
          · next candidate other others failed hcurrent =>
              unfold DedupState.compare at h
              split_ifs at h with hgone hdistinct
              · cases h
                exact .skip rows w s candidate other others failed call hcurrent
                  (hgone.elim Or.inl fun h => Or.inr (Or.inl h))
              · cases h
                exact .skip rows w s candidate other others failed call hcurrent
                  (Or.inr (Or.inr hdistinct))
              · obtain ⟨hne, hother⟩ := not_or.mp hgone
                cases h
                exact .call rows _ w s candidate other others failed _ call hcurrent hne hother
                  (Bool.of_not_eq_false hdistinct) rfl
          · cases h
  | finish =>
      cases phase with
      | idle => cases h
      | snapshot all => cases h
      | sweeping s =>
          simp only [DedupState.step] at h
          split at h
          · next candidate failed hcurrent =>
              cases h
              exact .finish rows w s candidate failed hcurrent
          · cases h
  | advance =>
      cases phase with
      | idle => cases h
      | snapshot all => cases h
      | sweeping s =>
          simp only [DedupState.step] at h
          split at h
          · next hcurrent htodo =>
              cases h
              exact .advance rows w s hcurrent htodo
          · cases h
  | abandon =>
      cases h
      exact .abandon rows w phase

/-! ### A sweep works on its snapshot -/

theorem mem_of_mem_ite {α : Type*} {c : Prop} [Decidable c] {x : α} {xs : List α}
    (h : x ∈ if c then [] else xs) : x ∈ xs := by
  split at h
  · cases h
  · exact h

/-- The rows a sweep has in hand are rows of its snapshot, and its candidate is not gone while there
are rows left to compare it with. -/
structure Sweep.Within (s : Sweep) : Prop where
  candidates : ∀ m ∈ s.candidates, m ∈ s.all
  todo : ∀ m ∈ s.todo, m ∈ s.candidates
  candidate : ∀ candidate others failed, s.current = some (candidate, others, failed) →
    candidate ∈ s.candidates
  others : ∀ candidate others failed, s.current = some (candidate, others, failed) →
    ∀ m ∈ others, m ∈ s.all
  inHand : ∀ candidate other others failed, s.current = some (candidate, other :: others, failed) →
    candidate.id ∉ s.deduped

theorem Sweep.Within.start (w : Option String) (all : List SweepRow) :
    (Sweep.start w all).Within where
  candidates _ hm := List.mem_of_mem_filter ((List.mem_insertionSort _).mp hm)
  todo _ hm := hm
  candidate _ _ _ h := nomatch h
  others _ _ _ h := nomatch h
  inHand _ _ _ _ h := nomatch h

/-- The snapshot of a phase. -/
def DedupPhase.all : DedupPhase → List SweepRow
  | .idle => []
  | .snapshot all => all
  | .sweeping s => s.all

/-- What the sweep in progress has superseded. -/
def DedupPhase.deduped : DedupPhase → List String
  | .sweeping s => s.deduped
  | _ => []

def DedupPhase.Within : DedupPhase → Prop
  | .sweeping s => s.Within
  | _ => True

/-- **Step.** -/
theorem DedupMoves.within (h : DedupMoves env s e s') (hs : s.phase.Within) : s'.phase.Within := by
  cases h with
  | snapshot => trivial
  | readWatermark => exact .start _ _
  | take rows w s candidate rest hcurrent htodo hvector hnew =>
      have hcandidate : candidate ∈ s.candidates := hs.todo candidate (htodo ▸ List.mem_cons_self)
      refine ⟨hs.candidates, fun m hm => hs.todo m (htodo ▸ List.mem_cons_of_mem _ hm), ?_, ?_, ?_⟩
      · intro _ _ _ heq
        cases heq
        exact hcandidate
      · intro _ _ _ heq m hm
        cases heq
        exact hm
      · intro _ _ _ _ heq
        simp only [Option.some.injEq, Prod.mk.injEq] at heq
        exact heq.1 ▸ hnew
  | pass rows w s candidate rest hcurrent htodo =>
      exact ⟨hs.candidates, fun m hm => hs.todo m (htodo ▸ List.mem_cons_of_mem _ hm),
        fun _ _ _ heq => (nomatch heq), fun _ _ _ heq => (nomatch heq),
        fun _ _ _ _ heq => (nomatch heq)⟩
  | exhausted =>
      exact ⟨hs.candidates, fun _ hm => (nomatch hm), hs.candidate, hs.others, hs.inHand⟩
  | skip rows w s candidate other others failed call hcurrent =>
      refine ⟨hs.candidates, hs.todo, ?_, ?_, ?_⟩
      · intro _ _ _ heq
        cases heq
        exact hs.candidate _ _ _ hcurrent
      · intro _ _ _ heq m hm
        cases heq
        exact hs.others _ _ _ hcurrent m (List.mem_cons_of_mem _ hm)
      · intro _ _ _ _ heq
        cases heq
        exact hs.inHand _ _ _ _ hcurrent
  | call rows rows' w s candidate other others failed ok call hcurrent =>
      refine ⟨hs.candidates, hs.todo, ?_, ?_, ?_⟩
      · intro _ _ _ heq
        cases heq
        exact hs.candidate _ _ _ hcurrent
      · intro _ _ _ heq m hm
        simp only [Option.some.injEq, Prod.mk.injEq] at heq
        rw [← heq.2.1] at hm
        exact hs.others _ _ _ hcurrent m (List.mem_cons_of_mem _ (mem_of_mem_ite hm))
      · intro _ _ _ _ heq
        simp only [Option.some.injEq, Prod.mk.injEq] at heq
        obtain ⟨rfl, hrest, -⟩ := heq
        intro hgone
        rw [if_pos hgone] at hrest
        cases hrest
  | finish =>
      exact ⟨hs.candidates, hs.todo, fun _ _ _ heq => (nomatch heq),
        fun _ _ _ heq => (nomatch heq), fun _ _ _ _ heq => (nomatch heq)⟩
  | advance => trivial
  | abandon => trivial

/-- A sweep keeps its snapshot; a new one is read from the store. -/
theorem DedupMoves.all_cases (h : DedupMoves env s e s') :
    s'.phase.all = s.phase.all ∨ s'.phase.all = [] ∨
      ∃ now embed, s'.rows = s.rows ∧
        s'.phase.all = (fetchAllActiveMemoriesForScope now env.userId env.scope env.limit
          s.rows).map (resolveVector embed) := by
  cases h with
  | snapshot rows w now embed => exact Or.inr (Or.inr ⟨now, embed, rfl, rfl⟩)
  | readWatermark => exact Or.inl rfl
  | take => exact Or.inl rfl
  | pass => exact Or.inl rfl
  | exhausted => exact Or.inl rfl
  | skip => exact Or.inl rfl
  | call => exact Or.inl rfl
  | finish => exact Or.inl rfl
  | advance => exact Or.inr (Or.inl rfl)
  | abandon => exact Or.inr (Or.inl rfl)

theorem SweepRow.older_cases (candidate other : SweepRow) :
    (candidate.older other = candidate ∧ candidate.newer other = other) ∨
      (candidate.older other = other ∧ candidate.newer other = candidate) := by
  unfold SweepRow.older SweepRow.newer
  split
  · exact Or.inl ⟨rfl, rfl⟩
  · exact Or.inr ⟨rfl, rfl⟩

theorem SweepRow.preserved_of_duplicates {host : Host}
    (h : candidate.duplicates host other = true) :
    (candidate.older other).preserved host (candidate.newer other) = true := by
  unfold SweepRow.duplicates at h
  split at h
  · exact (Bool.and_eq_true _ _ ▸ h).2
  · cases h

/-- A transaction that commits: the pair it is sent for, and the plan it runs. -/
structure Commits (env : DedupEnv) (s : DedupState) (e : DedupEvent) (s' : DedupState)
    (candidate other : SweepRow) (call : SweepCall) (p : PreparedSupersede) : Prop where
  event : e = .compare call
  pending : s.pending env = some (candidate, other)
  duplicates : candidate.duplicates env.host other = true
  fate : call.fate ≠ .rolledBack
  prepared : Prepared call.failed s.rows
    (Sweep.supersedeInput env.userId env.scope candidate other) p
  result : supersedeMemory env.host call.now call.failed
    (Sweep.supersedeInput env.userId env.scope candidate other) s.rows = .ok s'.rows
  rows : s'.rows = planRows env.host call.now p s.rows
  watermark : s'.watermark = s.watermark
  all : s'.phase.all = s.phase.all

/-- **The rows change only in a transaction that commits.** -/
theorem DedupMoves.rows_cases (h : DedupMoves env s e s') :
    s'.rows = s.rows ∨ ∃ candidate other call p, Commits env s e s' candidate other call p := by
  cases h with
  | snapshot => exact Or.inl rfl
  | readWatermark => exact Or.inl rfl
  | take => exact Or.inl rfl
  | pass => exact Or.inl rfl
  | exhausted => exact Or.inl rfl
  | skip => exact Or.inl rfl
  | finish => exact Or.inl rfl
  | advance => exact Or.inl rfl
  | abandon => exact Or.inl rfl
  | call rows rows' w s candidate other others failed ok call hcurrent hne hother hduplicates hrun =>
      have hpending : (⟨rows, w, .sweeping s⟩ : DedupState).pending env =
          some (candidate, other) := pending_of_current hcurrent hne hother hduplicates
      rcases call.run_cases env.host (Sweep.supersedeInput env.userId env.scope candidate other) rows
        with hsame | ⟨p, hp, hresult, hfate⟩
      · rw [hsame] at hrun
        exact Or.inl (Prod.mk.inj hrun).1.symm
      · have hrows : rows' = planRows env.host call.now p rows ∧ call.fate ≠ .rolledBack := by
          rcases hfate with ⟨hdone, heq⟩ | ⟨hdoubt, heq⟩
          · rw [heq] at hrun
            exact ⟨(Prod.mk.inj hrun).1.symm, by rw [hdone]; decide⟩
          · rw [heq] at hrun
            exact ⟨(Prod.mk.inj hrun).1.symm, by rw [hdoubt]; decide⟩
        exact Or.inr ⟨candidate, other, call, p,
          { event := rfl, pending := hpending, duplicates := hduplicates,
            fate := hrows.2, prepared := hp,
            result := hrows.1 ▸ hresult, rows := hrows.1, watermark := rfl, all := rfl }⟩

/-- A pending pair is of rows of the snapshot. -/
theorem pending_mem {s : DedupState} (hs : s.phase.Within)
    (h : s.pending env = some (candidate, other)) :
    candidate ∈ s.phase.all ∧ other ∈ s.phase.all := by
  obtain ⟨sweep, others, failed, hphase, hcurrent, -⟩ := pending_cases h
  rw [hphase] at hs ⊢
  exact ⟨hs.candidates _ (hs.candidate _ _ _ hcurrent),
    hs.others _ _ _ hcurrent _ List.mem_cons_self⟩

/-- Neither of a pending pair is gone. -/
theorem pending_not_deduped {s : DedupState} (hs : s.phase.Within)
    (h : s.pending env = some (candidate, other)) :
    candidate.id ∉ s.phase.deduped ∧ other.id ∉ s.phase.deduped := by
  obtain ⟨sweep, others, failed, hphase, hcurrent, -, hother, -⟩ := pending_cases h
  rw [hphase] at hs ⊢
  exact ⟨hs.inHand _ _ _ _ hcurrent, hother⟩

theorem pending_ne {s : DedupState} (h : s.pending env = some (candidate, other)) :
    (candidate.newer other).id ≠ (candidate.older other).id := by
  obtain ⟨sweep, others, failed, -, -, hne, -⟩ := pending_cases h
  rcases candidate.older_cases other with ⟨ho, hn⟩ | ⟨ho, hn⟩
  · rw [ho, hn]
    exact hne
  · rw [ho, hn]
    exact hne.symm

/-- A comparison runs the call of the pending pair. -/
theorem DedupMoves.rows_of_pending {call : SweepCall} (h : DedupMoves env s (.compare call) s')
    (hpending : s.pending env = some (candidate, other)) :
    s'.rows = (call.run env.host
      (Sweep.supersedeInput env.userId env.scope candidate other) s.rows).1 := by
  cases h with
  | skip rows w s candidate' other' others failed call hcurrent hskip =>
      simp only [DedupState.pending, hcurrent] at hpending
      split_ifs at hpending with hgone hduplicates
      rcases hskip with h | h | h
      · exact absurd (Or.inl h) hgone
      · exact absurd (Or.inr h) hgone
      · rw [h] at hduplicates
        cases hduplicates
  | call rows rows' w s candidate' other' others failed ok call hcurrent hne hother hduplicates hrun =>
      simp only [DedupState.pending, hcurrent] at hpending
      split_ifs at hpending
      cases hpending
      rw [hrun]

/-- The fetched rows are rows of the store. -/
theorem mem_fetch {now : Int} {userId : String} {scope : MemoryScope} {limit : Nat} {rows : Rows}
    {embed : SweepMemory → Option (List ℚ)} {m : SweepRow}
    (h : m ∈ (fetchAllActiveMemoriesForScope now userId scope limit rows).map
      (resolveVector embed)) :
    ∃ row, rows.get? m.id = some row ∧ sweepable userId scope row = true ∧
      m = resolveVector embed (toSweepMemory now m.id row) := by
  obtain ⟨memory, hmemory, rfl⟩ := List.mem_map.mp h
  obtain ⟨entry, hentry, rfl⟩ := List.mem_map.mp hmemory
  obtain ⟨hmem, hsweepable⟩ := List.mem_filter.mp (List.mem_of_mem_take hentry)
  exact ⟨entry.2, OrdMap.get?_eq_some.mpr hmem, hsweepable, rfl⟩

end Runir
