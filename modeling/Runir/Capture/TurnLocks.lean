import Mathlib.Data.Fintype.EquivFin
import Runir.Lib.CodeUnits
import Runir.Lib.OrdMap
import Runir.Lib.Runs

/-!
# Capture — Turn locks

`lockCaptureTurns` of `src/app/routes/hooks/index.ts`: one lock per turn, as a chain of promises in
a shared map.

* `TurnLocks`: the map, the promises made and kept so far, and the calls with how far each has come.
* `lockFrom`: a call goes on until it waits for a promise, or has all of its turns; `release`: it
  keeps its own promises, the last first.  `step`: a call begins, goes on after a wait, or releases.
* `Chained`: the promises for a turn form a chain, whose first belongs to the call that has the turn
  and whose last is in the map.  `Ordered`: each call locks its turns in the order of their ids.
* `turnLocks_sound`: no two calls have the same turn, none wait for one another in a cycle, and when
  all have released the map is empty.

A promise is known by its number.  A step is what runs between two waits.
-/

namespace Runir

/-- How far a call has come: it waits for the promise before its own, has its turns, or has
released them. -/
inductive TurnPhase where
  | waiting (prior : Nat) (id : String) (held : Nat) (rest : List String)
      (releases : List (String × Nat))
  | locked (releases : List (String × Nat))
  | released
  deriving DecidableEq

structure TurnCall where
  ids : List String
  phase : TurnPhase
  deriving DecidableEq

structure TurnLocks where
  captureTurnLocks : OrdMap String Nat
  next : Nat
  resolved : List Nat
  calls : List TurnCall

namespace TurnLocks

/-- `[...new Set(ids)].sort()`. -/
def sortedIds (ids : List String) : List String := sortStrings (distinct ids)

def setPhase (s : TurnLocks) (i : Nat) (phase : TurnPhase) : TurnLocks :=
  { s with calls := s.calls.modify i fun c => { c with phase := phase } }

/-- A new promise is put into the map. -/
def promise (s : TurnLocks) (id : String) : TurnLocks :=
  { s with captureTurnLocks := s.captureTurnLocks.set id s.next, next := s.next + 1 }

/-- The loop of `lockCaptureTurns`, until it waits. -/
def lockFrom (s : TurnLocks) (i : Nat) (releases : List (String × Nat)) :
    List String → TurnLocks
  | [] => s.setPhase i (.locked releases)
  | id :: rest =>
      match s.captureTurnLocks.get? id with
      | some prior => (s.promise id).setPhase i (.waiting prior id s.next rest releases)
      | none => lockFrom (s.promise id) i (releases ++ [(id, s.next)]) rest

/-- One of the functions in `releases`. -/
def releaseOne (s : TurnLocks) (e : String × Nat) : TurnLocks :=
  { s with
    captureTurnLocks :=
      if s.captureTurnLocks.get? e.1 = some e.2 then s.captureTurnLocks.erase e.1
      else s.captureTurnLocks
    resolved := e.2 :: s.resolved }

/-- The function a call returns. -/
def release (s : TurnLocks) (i : Nat) (releases : List (String × Nat)) : TurnLocks :=
  (releases.reverse.foldl releaseOne s).setPhase i .released

end TurnLocks

inductive TurnEvent where
  | call (ids : List String)
  | resume (i : Nat)
  | release (i : Nat)

namespace TurnLocks

def start : TurnLocks := ⟨.empty, 0, [], []⟩

/-- A call begins. -/
def enter (s : TurnLocks) (ids : List String) : TurnLocks :=
  { s with calls := s.calls ++ [⟨ids, .locked []⟩] }

def step (s : TurnLocks) : TurnEvent → Option TurnLocks
  | .call ids => some ((s.enter ids).lockFrom s.calls.length [] (sortedIds ids))
  | .resume i =>
      match (s.calls[i]?).map TurnCall.phase with
      | some (.waiting prior id held rest releases) =>
          if prior ∈ s.resolved then some (lockFrom s i (releases ++ [(id, held)]) rest) else none
      | _ => none
  | .release i =>
      match (s.calls[i]?).map TurnCall.phase with
      | some (.locked releases) => some (s.release i releases)
      | _ => none

end TurnLocks

/-! ### Chains of promises -/

namespace TurnPhase

/-- The turns a call has, with its promises. -/
def releases : TurnPhase → List (String × Nat)
  | .waiting _ _ _ _ releases => releases
  | .locked releases => releases
  | .released => []

/-- The promises a call has not kept. -/
def tokens : TurnPhase → List (String × Nat)
  | .waiting _ id held _ releases => (id, held) :: releases
  | .locked releases => releases
  | .released => []

theorem releases_subset (phase : TurnPhase) : phase.releases ⊆ phase.tokens := by
  cases phase with
  | waiting prior id held rest releases => exact List.subset_cons_self _ _
  | locked releases => exact List.Subset.refl _
  | released => exact List.Subset.refl _

end TurnPhase

namespace TurnLocks

/-- Call `i` is in this phase. -/
def In (s : TurnLocks) (i : Nat) (phase : TurnPhase) : Prop :=
  (s.calls[i]?).map TurnCall.phase = some phase

/-- Call `i` has made a promise for a turn and not kept it. -/
def Live (s : TurnLocks) (i : Nat) (id : String) (t : Nat) : Prop :=
  ∃ phase, s.In i phase ∧ (id, t) ∈ phase.tokens

section
variable {s : TurnLocks} {i j : Nat} {phase phase' : TurnPhase} {id : String} {t : Nat}

theorem getElem?_setPhase : (s.setPhase i phase).calls[j]? =
    (s.calls[j]?).map fun c => if i = j then { c with phase := phase } else c := by
  rw [setPhase, List.getElem?_modify]
  rfl

theorem in_setPhase_iff : (s.setPhase i phase).In j phase' ↔
    (i = j ∧ i < s.calls.length ∧ phase = phase') ∨ (i ≠ j ∧ s.In j phase') := by
  rw [In, In, getElem?_setPhase, Option.map_map]
  by_cases hij : i = j
  · subst hij
    cases hcall : s.calls[i]? with
    | none =>
        have hlength := List.getElem?_eq_none_iff.mp hcall
        simp [Nat.not_lt.mpr hlength]
    | some c =>
        have hlt := (List.getElem?_eq_some_iff.mp hcall).1
        simp [hlt]
  · simp [hij, Function.comp_def]

theorem live_setPhase_iff : (s.setPhase i phase).Live j id t ↔
    (i = j ∧ i < s.calls.length ∧ (id, t) ∈ phase.tokens) ∨ (i ≠ j ∧ s.Live j id t) := by
  constructor
  · rintro ⟨phase', hin, hmem⟩
    rcases in_setPhase_iff.mp hin with ⟨rfl, hlt, rfl⟩ | ⟨hne, hin⟩
    · exact Or.inl ⟨rfl, hlt, hmem⟩
    · exact Or.inr ⟨hne, phase', hin, hmem⟩
  · rintro (⟨rfl, hlt, hmem⟩ | ⟨hne, phase', hin, hmem⟩)
    · exact ⟨phase, in_setPhase_iff.mpr (Or.inl ⟨rfl, hlt, rfl⟩), hmem⟩
    · exact ⟨phase', in_setPhase_iff.mpr (Or.inr ⟨hne, hin⟩), hmem⟩

theorem in_enter_iff {ids : List String} : (s.enter ids).In j phase ↔
    s.In j phase ∨ (j = s.calls.length ∧ phase = .locked []) := by
  rw [In, In, enter, List.getElem?_append]
  by_cases hj : j < s.calls.length
  · simp [hj, hj.ne]
  · by_cases heq : j = s.calls.length
    · subst heq
      simp [eq_comm]
    · have hpos : j - s.calls.length ≠ 0 := by omega
      simp [hj, heq, List.getElem?_cons, hpos]

theorem live_enter_iff {ids : List String} : (s.enter ids).Live j id t ↔ s.Live j id t := by
  constructor
  · rintro ⟨phase, hin, hmem⟩
    rcases in_enter_iff.mp hin with hin | ⟨-, rfl⟩
    · exact ⟨phase, hin, hmem⟩
    · cases hmem
  · rintro ⟨phase, hin, hmem⟩
    exact ⟨phase, in_enter_iff.mpr (Or.inl hin), hmem⟩

theorem In.lt (h : s.In i phase) : i < s.calls.length := by
  by_contra hnot
  rw [In, List.getElem?_eq_none (Nat.not_lt.mp hnot)] at h
  cases h

theorem In.unique (h : s.In i phase) (h' : s.In i phase') : phase = phase' :=
  Option.some.inj (h.symm.trans h')

end

/-- For each turn, the promises that are not kept form a chain. -/
structure Chained (s : TurnLocks) : Prop where
  fresh : ∀ {i id t}, s.Live i id t → t < s.next
  unique : ∀ {i j id id' t}, s.Live i id t → s.Live j id' t → i = j ∧ id = id'
  last : ∀ {id t}, s.captureTurnLocks.get? id = some t →
    (∃ i, s.Live i id t) ∧ ∀ j t', s.Live j id t' → t' ≤ t
  present : ∀ {i id t}, s.Live i id t → s.captureTurnLocks.get? id ≠ none
  first : ∀ {i phase id t}, s.In i phase → (id, t) ∈ phase.releases →
    ∀ j t', s.Live j id t' → t ≤ t'
  behind : ∀ {i prior id t rest releases}, s.In i (.waiting prior id t rest releases) →
    (prior ∈ s.resolved → ∀ j t', s.Live j id t' → t ≤ t') ∧
    (prior ∉ s.resolved → (∃ j, s.Live j id prior) ∧ prior < t ∧
      ∀ j t', s.Live j id t' → t' < t → t' ≤ prior)
  nodup : ∀ {i phase}, s.In i phase → phase.tokens.Nodup
  pending : ∀ {i id t}, s.Live i id t → t ∉ s.resolved
  kept : ∀ t ∈ s.resolved, t < s.next

theorem chained_start : Chained start := by
  have hnone : ∀ {i phase}, ¬start.In i phase := by
    intro i phase h
    cases h
  have hdead : ∀ {i id t}, ¬start.Live i id t := fun ⟨_, hin, _⟩ => hnone hin
  exact ⟨fun h => absurd h hdead, fun h => absurd h hdead, fun h => (nomatch h),
    fun h => absurd h hdead, fun h => absurd h hnone, fun h => absurd h hnone,
    fun h => absurd h hnone, fun h => absurd h hdead, fun t h => (nomatch h)⟩

/-! ### A promise is made -/

section
variable {s : TurnLocks} {i : Nat} {phase phase' : TurnPhase} {id : String}

theorem live_promise_iff (hin : s.In i phase)
    (htokens : phase'.tokens.Perm ((id, s.next) :: phase.tokens)) {j : Nat}
    {id' : String} {t : Nat} : ((s.promise id).setPhase i phase').Live j id' t ↔
      s.Live j id' t ∨ (i = j ∧ id' = id ∧ t = s.next) := by
  have hlt : i < (s.promise id).calls.length := hin.lt
  have hmem : ∀ e, e ∈ phase'.tokens ↔ e = (id, s.next) ∨ e ∈ phase.tokens :=
    fun e => htokens.mem_iff.trans List.mem_cons
  rw [live_setPhase_iff]
  constructor
  · rintro (⟨rfl, -, htoken⟩ | ⟨-, hlive⟩)
    · rcases (hmem _).mp htoken with heq | htoken
      · cases heq
        exact Or.inr ⟨rfl, rfl, rfl⟩
      · exact Or.inl ⟨phase, hin, htoken⟩
    · exact Or.inl hlive
  · rintro (⟨phase₀, hin₀, htoken⟩ | ⟨rfl, rfl, rfl⟩)
    · by_cases hij : i = j
      · subst hij
        rw [hin₀.unique hin] at htoken
        exact Or.inl ⟨rfl, hlt, (hmem _).mpr (Or.inr htoken)⟩
      · exact Or.inr ⟨hij, phase₀, hin₀, htoken⟩
    · exact Or.inl ⟨rfl, hlt, (hmem _).mpr (Or.inl rfl)⟩

/-- A new promise comes last in the chain of its turn. -/
theorem Chained.promise (h : Chained s) (hin : s.In i phase)
    (htokens : phase'.tokens.Perm ((id, s.next) :: phase.tokens))
    (hfirst : ∀ e ∈ phase'.releases, e ∈ phase.releases ∨
      (e = (id, s.next) ∧ ∀ j t, ¬s.Live j id t))
    (hbehind : ∀ {prior id' t rest releases}, phase' = .waiting prior id' t rest releases →
      id' = id ∧ t = s.next ∧ s.captureTurnLocks.get? id = some prior) :
    Chained ((s.promise id).setPhase i phase') := by
  have hlive : ∀ {j id' t}, ((s.promise id).setPhase i phase').Live j id' t ↔
      s.Live j id' t ∨ (i = j ∧ id' = id ∧ t = s.next) := live_promise_iff hin htokens
  have hlocks : ((s.promise id).setPhase i phase').captureTurnLocks =
      s.captureTurnLocks.set id s.next := rfl
  refine ⟨?_, ?_, ?_, ?_, ?_, ?_, ?_, ?_, fun t ht => Nat.lt_succ_of_lt (h.kept t ht)⟩
  · intro j id' t ht
    rcases hlive.mp ht with ht | ⟨-, -, rfl⟩
    · exact Nat.lt_succ_of_lt (h.fresh ht)
    · exact Nat.lt_succ_self _
  · intro j k id₁ id₂ t h₁ h₂
    rcases hlive.mp h₁ with h₁ | ⟨rfl, rfl, rfl⟩
    · rcases hlive.mp h₂ with h₂ | ⟨-, -, rfl⟩
      · exact h.unique h₁ h₂
      · exact absurd (h.fresh h₁) (Nat.lt_irrefl _)
    · rcases hlive.mp h₂ with h₂ | ⟨rfl, rfl, -⟩
      · exact absurd (h.fresh h₂) (Nat.lt_irrefl _)
      · exact ⟨rfl, rfl⟩
  · intro id' t ht
    rw [hlocks, OrdMap.get?_set] at ht
    split at ht
    · next heq =>
        cases ht
        refine ⟨⟨i, hlive.mpr (Or.inr ⟨rfl, heq, rfl⟩)⟩, fun j t' ht' => ?_⟩
        rcases hlive.mp ht' with ht' | ⟨-, -, rfl⟩
        · exact (h.fresh ht').le
        · exact Nat.le_refl _
    · next hne =>
        obtain ⟨⟨j, hj⟩, hmax⟩ := h.last ht
        refine ⟨⟨j, hlive.mpr (Or.inl hj)⟩, fun k t' ht' => ?_⟩
        rcases hlive.mp ht' with ht' | ⟨-, heq, -⟩
        · exact hmax k t' ht'
        · exact absurd heq hne
  · intro j id' t ht
    rw [hlocks, OrdMap.get?_set]
    split
    · exact Option.some_ne_none _
    · next hne =>
        rcases hlive.mp ht with ht | ⟨-, heq, -⟩
        · exact h.present ht
        · exact absurd heq hne
  · intro j phase₀ id' t hj hmem k t' ht'
    rcases in_setPhase_iff.mp hj with ⟨rfl, -, rfl⟩ | ⟨-, hj⟩
    · rcases hfirst _ hmem with hmem | ⟨heq, hno⟩
      · rcases hlive.mp ht' with ht' | ⟨-, -, rfl⟩
        · exact h.first hin hmem k t' ht'
        · exact (h.fresh ⟨phase, hin, phase.releases_subset hmem⟩).le
      · cases heq
        rcases hlive.mp ht' with ht' | ⟨-, -, rfl⟩
        · exact absurd ht' (hno k t')
        · exact Nat.le_refl _
    · rcases hlive.mp ht' with ht' | ⟨-, -, rfl⟩
      · exact h.first hj hmem k t' ht'
      · exact (h.fresh ⟨phase₀, hj, phase₀.releases_subset hmem⟩).le
  · intro j prior id' t rest releases hj
    rcases in_setPhase_iff.mp hj with ⟨rfl, -, heq⟩ | ⟨-, hj⟩
    · -- the call that made the promise waits for what was last before
      obtain ⟨rfl, rfl, hprior⟩ := hbehind heq
      obtain ⟨⟨k, hk⟩, hmax⟩ := h.last hprior
      refine ⟨fun hresolved => absurd hresolved (h.pending hk), fun _ =>
        ⟨⟨k, hlive.mpr (Or.inl hk)⟩, h.fresh hk, fun l t' ht' hlt => ?_⟩⟩
      rcases hlive.mp ht' with ht' | ⟨-, -, rfl⟩
      · exact hmax l t' ht'
      · exact absurd hlt (Nat.lt_irrefl _)
    · obtain ⟨hdone, hopen⟩ := h.behind hj
      have hown : t < s.next := h.fresh ⟨_, hj, List.mem_cons_self⟩
      refine ⟨fun hresolved k t' ht' => ?_, fun hresolved => ?_⟩
      · rcases hlive.mp ht' with ht' | ⟨-, -, rfl⟩
        · exact hdone hresolved k t' ht'
        · exact hown.le
      · obtain ⟨⟨k, hk⟩, hlt, hbetween⟩ := hopen hresolved
        refine ⟨⟨k, hlive.mpr (Or.inl hk)⟩, hlt, fun l t' ht' hlt' => ?_⟩
        rcases hlive.mp ht' with ht' | ⟨-, -, rfl⟩
        · exact hbetween l t' ht' hlt'
        · exact absurd hlt' (Nat.not_lt.mpr hown.le)
  · intro j phase₀ hj
    rcases in_setPhase_iff.mp hj with ⟨-, -, rfl⟩ | ⟨-, hj⟩
    · refine htokens.nodup_iff.mpr (List.nodup_cons.mpr ⟨fun hmem => ?_, h.nodup hin⟩)
      exact absurd (h.fresh ⟨phase, hin, hmem⟩) (Nat.lt_irrefl _)
    · exact h.nodup hj
  · intro j id' t ht hresolved
    rcases hlive.mp ht with ht | ⟨-, -, rfl⟩
    · exact h.pending ht hresolved
    · exact absurd (h.kept _ hresolved) (Nat.lt_irrefl _)

/-- **The loop keeps the chains.** -/
theorem Chained.lockFrom {ids : List String} {releases : List (String × Nat)}
    (h : Chained (s.setPhase i (.locked releases))) (hlt : i < s.calls.length) :
    Chained (s.lockFrom i releases ids) := by
  induction ids generalizing s releases with
  | nil => exact h
  | cons id rest ih =>
      have hin : (s.setPhase i (.locked releases)).In i (.locked releases) :=
        in_setPhase_iff.mpr (Or.inl ⟨rfl, hlt, rfl⟩)
      have hagain : ∀ phase : TurnPhase, ((s.setPhase i (.locked releases)).promise id).setPhase i
          phase = (s.promise id).setPhase i phase := by
        intro phase
        simp only [setPhase, TurnLocks.promise, List.modify_modify_eq]
        rfl
      rw [TurnLocks.lockFrom]
      cases hprior : s.captureTurnLocks.get? id with
      | some prior =>
          dsimp only
          rw [← hagain]
          refine h.promise hin (List.Perm.refl _) (fun e he => Or.inl he) ?_
          rintro prior' id' t rest' releases' heq
          cases heq
          exact ⟨rfl, rfl, hprior⟩
      | none =>
          dsimp only
          refine ih ?_ hlt
          rw [← hagain]
          refine h.promise hin ?_ (fun e he => ?_) (fun heq => nomatch heq)
          · exact List.perm_append_singleton _ releases
          · rcases List.mem_append.mp he with he | he
            · exact Or.inl he
            · exact Or.inr ⟨List.mem_singleton.mp he, fun j t ht => h.present ht hprior⟩

end

/-! ### A promise is kept -/

section
variable {s : TurnLocks} {i : Nat} {id : String} {t : Nat} {releases : List (String × Nat)}

theorem live_releaseOne_iff (h : Chained s) (hin : s.In i (.locked (releases ++ [(id, t)])))
    {j : Nat} {id' : String} {t' : Nat} :
    ((s.releaseOne (id, t)).setPhase i (.locked releases)).Live j id' t' ↔
      s.Live j id' t' ∧ t' ≠ t := by
  have hlt : i < (s.releaseOne (id, t)).calls.length := hin.lt
  have hown : s.Live i id t := ⟨_, hin, List.mem_append_right _ (List.mem_singleton_self _)⟩
  rw [live_setPhase_iff]
  constructor
  · rintro (⟨rfl, -, hmem⟩ | ⟨hne, hlive⟩)
    · have hlive : s.Live i id' t' := ⟨_, hin, List.mem_append_left _ hmem⟩
      refine ⟨hlive, ?_⟩
      rintro rfl
      obtain rfl := (h.unique hlive hown).2
      exact (List.disjoint_of_nodup_append (h.nodup hin)) hmem (List.mem_singleton_self _)
    · refine ⟨hlive, ?_⟩
      rintro rfl
      exact hne (h.unique hown hlive).1
  · rintro ⟨⟨phase, hj, hmem⟩, hne⟩
    by_cases hij : i = j
    · subst hij
      obtain rfl := hj.unique hin
      rcases List.mem_append.mp hmem with hmem | hmem
      · exact Or.inl ⟨rfl, hlt, hmem⟩
      · cases List.mem_singleton.mp hmem
        exact absurd rfl hne
    · exact Or.inr ⟨hij, phase, hj, hmem⟩

/-- The promise that is kept is the first of its chain. -/
theorem Chained.releaseOne (h : Chained s) (hin : s.In i (.locked (releases ++ [(id, t)]))) :
    Chained ((s.releaseOne (id, t)).setPhase i (.locked releases)) := by
  have hlive : ∀ {j id' t'},
      ((s.releaseOne (id, t)).setPhase i (.locked releases)).Live j id' t' ↔
        s.Live j id' t' ∧ t' ≠ t := live_releaseOne_iff h hin
  have hown : s.Live i id t := ⟨_, hin, List.mem_append_right _ (List.mem_singleton_self _)⟩
  have hfirst : ∀ j t', s.Live j id t' → t ≤ t' :=
    h.first hin (List.mem_append_right _ (List.mem_singleton_self _))
  have hlocks : ∀ id', ((s.releaseOne (id, t)).setPhase i (.locked releases)).captureTurnLocks.get?
      id' = if s.captureTurnLocks.get? id = some t ∧ id' = id then none
        else s.captureTurnLocks.get? id' := by
    intro id'
    show (if s.captureTurnLocks.get? id = some t then s.captureTurnLocks.erase id
      else s.captureTurnLocks).get? id' = _
    by_cases hlast : s.captureTurnLocks.get? id = some t
    · rw [if_pos hlast, OrdMap.get?_erase]
      simp [hlast]
    · simp [hlast]
  refine ⟨?_, ?_, ?_, ?_, ?_, ?_, ?_, ?_, ?_⟩
  · intro j id' t' ht'
    exact h.fresh (hlive.mp ht').1
  · intro j k id₁ id₂ t' h₁ h₂
    exact h.unique (hlive.mp h₁).1 (hlive.mp h₂).1
  · intro id' t' ht'
    rw [hlocks] at ht'
    split at ht'
    · cases ht'
    · next hnot =>
        obtain ⟨⟨j, hj⟩, hmax⟩ := h.last ht'
        refine ⟨⟨j, hlive.mpr ⟨hj, ?_⟩⟩, fun k t₀ ht₀ => hmax k t₀ (hlive.mp ht₀).1⟩
        rintro rfl
        obtain ⟨-, rfl⟩ := h.unique hj hown
        exact hnot ⟨ht', rfl⟩
  · intro j id' t' ht'
    obtain ⟨hlive', hne⟩ := hlive.mp ht'
    rw [hlocks]
    split
    · -- the promise is also the last of its chain, so that it is the only one
      next hlast =>
        obtain ⟨hlast, rfl⟩ := hlast
        exact absurd (Nat.le_antisymm ((h.last hlast).2 j t' hlive') (hfirst j t' hlive')) hne
    · exact h.present hlive'
  · intro j phase id' t' hj hmem k t₀ ht₀
    obtain ⟨hlive', -⟩ := hlive.mp ht₀
    rcases in_setPhase_iff.mp hj with ⟨rfl, -, rfl⟩ | ⟨-, hj⟩
    · exact h.first hin (List.mem_append_left _ hmem) k t₀ hlive'
    · exact h.first hj hmem k t₀ hlive'
  · intro j prior id' t' rest releases' hj
    rcases in_setPhase_iff.mp hj with ⟨-, -, heq⟩ | ⟨-, hj⟩
    · cases heq
    · obtain ⟨hdone, hopen⟩ := h.behind hj
      refine ⟨fun hresolved k t₀ ht₀ => ?_, fun hresolved => ?_⟩
      · obtain ⟨hlive', hne⟩ := hlive.mp ht₀
        by_cases hprior : prior ∈ s.resolved
        · exact hdone hprior k t₀ hlive'
        · -- the promise waited for is the one that is kept
          obtain ⟨⟨l, hl⟩, -, hbetween⟩ := hopen hprior
          have heq : prior = t := (List.mem_cons.mp hresolved).resolve_right hprior
          subst heq
          obtain ⟨-, rfl⟩ := h.unique hl hown
          by_contra hlt
          exact hne (Nat.le_antisymm (hbetween k t₀ hlive' (Nat.not_le.mp hlt))
            (hfirst k t₀ hlive'))
      · have hnot := fun hmem => hresolved (List.mem_cons_of_mem t hmem)
        obtain ⟨⟨l, hl⟩, hlt, hbetween⟩ := hopen hnot
        have hne : prior ≠ t := by
          rintro rfl
          exact hresolved List.mem_cons_self
        exact ⟨⟨l, hlive.mpr ⟨hl, hne⟩⟩, hlt, fun k t₀ ht₀ => hbetween k t₀ (hlive.mp ht₀).1⟩
  · intro j phase hj
    rcases in_setPhase_iff.mp hj with ⟨-, -, rfl⟩ | ⟨-, hj⟩
    · exact (List.nodup_append.mp (h.nodup hin)).1
    · exact h.nodup hj
  · intro j id' t' ht' hresolved
    obtain ⟨hlive', hne⟩ := hlive.mp ht'
    rcases List.mem_cons.mp hresolved with heq | hresolved
    · exact hne heq
    · exact h.pending hlive' hresolved
  · intro t' ht'
    rcases List.mem_cons.mp ht' with heq | ht'
    · have heq : t' = t := heq
      rw [heq]
      exact h.fresh hown
    · exact h.kept t' ht'

/-- What a call has is renamed. -/
theorem Chained.setPhase {phase phase' : TurnPhase} (h : Chained s) (hin : s.In i phase)
    (htokens : phase'.tokens.Perm phase.tokens)
    (hfirst : ∀ e ∈ phase'.releases, ∀ j t, s.Live j e.1 t → e.2 ≤ t)
    (hnot : ∀ {prior id t rest releases}, phase' ≠ .waiting prior id t rest releases) :
    Chained (s.setPhase i phase') := by
  have hlive : ∀ {j id' t'}, (s.setPhase i phase').Live j id' t' ↔ s.Live j id' t' := by
    intro j id' t'
    rw [live_setPhase_iff]
    constructor
    · rintro (⟨rfl, -, hmem⟩ | ⟨-, hlive⟩)
      · exact ⟨phase, hin, htokens.mem_iff.mp hmem⟩
      · exact hlive
    · rintro ⟨phase₀, hj, hmem⟩
      by_cases hij : i = j
      · subst hij
        rw [hj.unique hin] at hmem
        exact Or.inl ⟨rfl, hin.lt, htokens.mem_iff.mpr hmem⟩
      · exact Or.inr ⟨hij, phase₀, hj, hmem⟩
  refine ⟨?_, ?_, ?_, ?_, ?_, ?_, ?_, ?_, h.kept⟩
  · intro j id' t' ht'
    exact h.fresh (hlive.mp ht')
  · intro j k id₁ id₂ t' h₁ h₂
    exact h.unique (hlive.mp h₁) (hlive.mp h₂)
  · intro id' t' ht'
    obtain ⟨⟨j, hj⟩, hmax⟩ := h.last ht'
    exact ⟨⟨j, hlive.mpr hj⟩, fun k t₀ ht₀ => hmax k t₀ (hlive.mp ht₀)⟩
  · intro j id' t' ht'
    exact h.present (hlive.mp ht')
  · intro j phase₀ id' t' hj hmem k t₀ ht₀
    rcases in_setPhase_iff.mp hj with ⟨-, -, rfl⟩ | ⟨-, hj⟩
    · exact hfirst _ hmem k t₀ (hlive.mp ht₀)
    · exact h.first hj hmem k t₀ (hlive.mp ht₀)
  · intro j prior id' t' rest releases' hj
    rcases in_setPhase_iff.mp hj with ⟨-, -, heq⟩ | ⟨-, hj⟩
    · exact absurd heq hnot
    · obtain ⟨hdone, hopen⟩ := h.behind hj
      refine ⟨fun hresolved k t₀ ht₀ => hdone hresolved k t₀ (hlive.mp ht₀), fun hresolved => ?_⟩
      obtain ⟨⟨l, hl⟩, hlt, hbetween⟩ := hopen hresolved
      exact ⟨⟨l, hlive.mpr hl⟩, hlt, fun k t₀ ht₀ => hbetween k t₀ (hlive.mp ht₀)⟩
  · intro j phase₀ hj
    rcases in_setPhase_iff.mp hj with ⟨-, -, rfl⟩ | ⟨-, hj⟩
    · exact htokens.nodup_iff.mpr (h.nodup hin)
    · exact h.nodup hj
  · intro j id' t' ht'
    exact h.pending (hlive.mp ht')

theorem setPhase_setPhase (s : TurnLocks) (i : Nat) (phase phase' : TurnPhase) :
    (s.setPhase i phase).setPhase i phase' = s.setPhase i phase' := by
  simp only [TurnLocks.setPhase, List.modify_modify_eq]
  rfl

theorem foldl_releaseOne_setPhase (es : List (String × Nat)) (phase : TurnPhase) :
    es.foldl TurnLocks.releaseOne (s.setPhase i phase) =
      (es.foldl TurnLocks.releaseOne s).setPhase i phase := by
  induction es generalizing s with
  | nil => rfl
  | cons e es ih => exact ih (s := s.releaseOne e)

/-- **A release keeps the chains.** -/
theorem Chained.release (h : Chained s) (hin : s.In i (.locked releases)) :
    Chained (s.release i releases) := by
  induction releases using List.reverseRecOn generalizing s with
  | nil => exact h.setPhase hin (List.Perm.refl _) (fun e he => nomatch he) (nomatch ·)
  | append_singleton releases e ih =>
      have hnext := ih (h.releaseOne hin) (in_setPhase_iff.mpr (Or.inl ⟨rfl, hin.lt, rfl⟩))
      rw [TurnLocks.release, foldl_releaseOne_setPhase, setPhase_setPhase] at hnext
      rw [TurnLocks.release, List.reverse_append]
      exact hnext

end

theorem Chained.enter {s : TurnLocks} (h : Chained s) (ids : List String) :
    Chained (s.enter ids) := by
  refine ⟨?_, ?_, ?_, ?_, ?_, ?_, ?_, ?_, h.kept⟩
  · intro j id t ht
    exact h.fresh (live_enter_iff.mp ht)
  · intro j k id₁ id₂ t h₁ h₂
    exact h.unique (live_enter_iff.mp h₁) (live_enter_iff.mp h₂)
  · intro id t ht
    obtain ⟨⟨j, hj⟩, hmax⟩ := h.last ht
    exact ⟨⟨j, live_enter_iff.mpr hj⟩, fun k t₀ ht₀ => hmax k t₀ (live_enter_iff.mp ht₀)⟩
  · intro j id t ht
    exact h.present (live_enter_iff.mp ht)
  · intro j phase id t hj hmem k t₀ ht₀
    rcases in_enter_iff.mp hj with hj | ⟨-, rfl⟩
    · exact h.first hj hmem k t₀ (live_enter_iff.mp ht₀)
    · cases hmem
  · intro j prior id t rest releases hj
    rcases in_enter_iff.mp hj with hj | ⟨-, heq⟩
    · obtain ⟨hdone, hopen⟩ := h.behind hj
      refine ⟨fun hresolved k t₀ ht₀ => hdone hresolved k t₀ (live_enter_iff.mp ht₀),
        fun hresolved => ?_⟩
      obtain ⟨⟨l, hl⟩, hlt, hbetween⟩ := hopen hresolved
      exact ⟨⟨l, live_enter_iff.mpr hl⟩, hlt,
        fun k t₀ ht₀ => hbetween k t₀ (live_enter_iff.mp ht₀)⟩
    · cases heq
  · intro j phase hj
    rcases in_enter_iff.mp hj with hj | ⟨-, rfl⟩
    · exact h.nodup hj
    · exact List.nodup_nil
  · intro j id t ht
    exact h.pending (live_enter_iff.mp ht)

/-- **A step keeps the chains.** -/
theorem Chained.step {s s' : TurnLocks} (h : Chained s) {e : TurnEvent} (hs : s.step e = some s') :
    Chained s' := by
  cases e with
  | call ids =>
      cases hs
      have hin : (s.enter ids).In s.calls.length (.locked []) :=
        in_enter_iff.mpr (Or.inr ⟨rfl, rfl⟩)
      exact Chained.lockFrom ((h.enter ids).setPhase hin (List.Perm.refl _)
        (fun e he => nomatch he) (nomatch ·)) hin.lt
  | resume i =>
      rw [TurnLocks.step] at hs
      split at hs
      · next prior id held rest releases hin =>
          split at hs
          · next hresolved =>
              cases hs
              have hown := h.behind hin
              refine Chained.lockFrom ?_ (In.lt hin)
              refine h.setPhase hin (List.perm_append_singleton _ releases) (fun e he => ?_)
                (nomatch ·)
              rcases List.mem_append.mp he with he | he
              · exact h.first hin he
              · cases List.mem_singleton.mp he
                exact hown.1 hresolved
          · cases hs
      · cases hs
  | release i =>
      rw [TurnLocks.step] at hs
      split at hs
      · next releases hin =>
          cases hs
          exact h.release hin
      · cases hs

/-! ### The order of the turns -/

end TurnLocks

namespace TurnLocks

theorem sortedIds_pairwise (ids : List String) : (sortedIds ids).Pairwise Before :=
  pairwise_sortStrings (nodup_distinct ids)

theorem mem_sortedIds {ids : List String} {id : String} : id ∈ sortedIds ids ↔ id ∈ ids :=
  mem_sortStrings.trans mem_distinct

end TurnLocks

/-- A phase of a call with these ids: what it has, in order, and what it is still to lock. -/
def TurnPhase.Keeps (ids : List String) : TurnPhase → Prop
  | .waiting _ id _ rest releases =>
      releases.map Prod.fst ++ id :: rest = TurnLocks.sortedIds ids
  | .locked releases => releases.map Prod.fst = TurnLocks.sortedIds ids
  | .released => True

namespace TurnLocks

/-- Each call goes through its ids in order. -/
def Ordered (s : TurnLocks) : Prop :=
  ∀ (j : Nat) (c : TurnCall), s.calls[j]? = some c → c.phase.Keeps c.ids

section
variable {s s' : TurnLocks} {i : Nat} {releases : List (String × Nat)} {ids : List String}

theorem ordered_setPhase {phase : TurnPhase}
    (hothers : ∀ {j c}, i ≠ j → s.calls[j]? = some c → c.phase.Keeps c.ids)
    (hown : ∀ c, s.calls[i]? = some c → phase.Keeps c.ids) : (s.setPhase i phase).Ordered := by
  intro j c hc
  rw [getElem?_setPhase] at hc
  obtain ⟨c₀, hc₀, rfl⟩ := Option.map_eq_some_iff.mp hc
  by_cases hij : i = j
  · subst hij
    rw [if_pos rfl]
    exact hown c₀ hc₀
  · rw [if_neg hij]
    exact hothers hij hc₀

theorem ordered_lockFrom
    (hothers : ∀ {j c}, i ≠ j → s.calls[j]? = some c → c.phase.Keeps c.ids)
    (hown : ∀ c, s.calls[i]? = some c → releases.map Prod.fst ++ ids = sortedIds c.ids) :
    (s.lockFrom i releases ids).Ordered := by
  induction ids generalizing s releases with
  | nil =>
      refine ordered_setPhase hothers fun c hc => ?_
      have hids := hown c hc
      rwa [List.append_nil] at hids
  | cons id rest ih =>
      rw [lockFrom]
      split
      · exact ordered_setPhase hothers hown
      · refine ih hothers fun c hc => ?_
        rw [List.map_append, List.append_assoc]
        exact hown c hc

theorem ordered_step (h : s.Ordered) {e : TurnEvent} (hs : s.step e = some s') : s'.Ordered := by
  cases e with
  | call ids =>
      cases hs
      have hget : ∀ {j c}, (s.enter ids).calls[j]? = some c →
          s.calls[j]? = some c ∨ (j = s.calls.length ∧ c.ids = ids) := by
        intro j c hc
        rw [enter, List.getElem?_append] at hc
        split at hc
        · exact Or.inl hc
        · next hj =>
            obtain ⟨hlt, rfl⟩ := List.getElem?_eq_some_iff.mp hc
            rw [List.length_singleton] at hlt
            refine Or.inr ⟨by omega, ?_⟩
            simp
      refine ordered_lockFrom (fun hne hc => ?_) fun c hc => ?_
      · rcases hget hc with hc | ⟨heq, -⟩
        · exact h _ _ hc
        · exact absurd heq.symm hne
      · rcases hget hc with hc | ⟨-, heq⟩
        · exact absurd (List.getElem?_eq_some_iff.mp hc).1 (Nat.lt_irrefl _)
        · rw [heq]
          rfl
  | resume i =>
      rw [step] at hs
      split at hs
      · next prior id held rest releases hin =>
          split at hs
          · cases hs
            obtain ⟨c₀, hc₀, hphase⟩ := Option.map_eq_some_iff.mp hin
            have hkeeps := h i c₀ hc₀
            rw [hphase] at hkeeps
            refine ordered_lockFrom (fun _ hc => h _ _ hc) fun c hc => ?_
            cases hc₀.symm.trans hc
            rw [List.map_append, List.append_assoc]
            exact hkeeps
          · cases hs
      · cases hs
  | release i =>
      rw [step] at hs
      split at hs
      · next releases hin =>
          cases hs
          have hcalls : ∀ (es : List (String × Nat)) (s : TurnLocks),
              (es.foldl releaseOne s).calls = s.calls := by
            intro es
            induction es with
            | nil => exact fun s => rfl
            | cons e es ih => exact fun s => ih (s.releaseOne e)
          refine ordered_setPhase (fun _ hc => ?_) fun _ _ => trivial
          rw [hcalls] at hc
          exact h _ _ hc
      · cases hs

end

/-! ### Exclusion without deadlock -/

/-- Call `i` waits for a promise that call `j` has made and not kept. -/
def WaitsFor (s : TurnLocks) (i j : Nat) : Prop :=
  ∃ prior id t rest releases id', s.In i (.waiting prior id t rest releases) ∧
    prior ∉ s.resolved ∧ s.Live j id' prior

/-- No two calls have the same turn, and none wait for one another in a cycle: while a call has not
released, one can go on.  When all have released the map is empty. -/
structure Sound (s : TurnLocks) : Prop where
  exclusive : ∀ {i j : Nat} {c c' : TurnCall} {releases releases' : List (String × Nat)}
    {id : String}, i ≠ j → s.calls[i]? = some c →
    s.calls[j]? = some c' → c.phase = .locked releases → c'.phase = .locked releases' →
    id ∈ c.ids → id ∉ c'.ids
  acyclic : ∀ i, ¬Relation.TransGen s.WaitsFor i i
  moves : ∀ c ∈ s.calls, c.phase ≠ .released →
    ∃ i, (s.step (.resume i)).isSome = true ∨ (s.step (.release i)).isSome = true
  emptied : (∀ c ∈ s.calls, c.phase = .released) → s.captureTurnLocks = .empty

section
variable {s : TurnLocks}

/-- Along a wait the id rises, or is the same and the promise is an earlier one. -/
theorem before_of_waitsFor (hchained : Chained s) (hordered : s.Ordered) {i j prior prior' t u : Nat}
    {id id' : String} {rest rest' : List String} {releases releases' : List (String × Nat)}
    (hi : s.In i (.waiting prior id t rest releases))
    (hj : s.In j (.waiting prior' id' u rest' releases')) (h : s.WaitsFor i j) :
    Before id id' ∨ (id = id' ∧ u < t) := by
  obtain ⟨prior₀, id₀, t₀, rest₀, releases₀, id₁, hin, hopen, hlive⟩ := h
  cases hin.unique hi
  obtain ⟨⟨k, hk⟩, hlt, -⟩ := (hchained.behind hi).2 hopen
  obtain ⟨-, rfl⟩ := hchained.unique hk hlive
  obtain ⟨phase, hphase, hmem⟩ := hlive
  obtain rfl := hphase.unique hj
  rcases List.mem_cons.mp hmem with heq | hmem
  · cases heq
    exact Or.inr ⟨rfl, hlt⟩
  · obtain ⟨c, hc, hcphase⟩ := Option.map_eq_some_iff.mp hj
    have hkeeps := hordered j c hc
    rw [hcphase] at hkeeps
    have hsorted := sortedIds_pairwise c.ids
    rw [← show releases'.map Prod.fst ++ id' :: rest' = sortedIds c.ids from hkeeps] at hsorted
    exact Or.inl ((List.pairwise_append.mp hsorted).2.2 id (List.mem_map_of_mem hmem) id'
      List.mem_cons_self)

theorem not_transGen_waitsFor (hchained : Chained s) (hordered : s.Ordered) (i : Nat) :
    ¬Relation.TransGen s.WaitsFor i i := by
  have hrises : ∀ {i j}, Relation.TransGen s.WaitsFor i j → ∀ {prior prior' t u id id' rest rest'
      releases releases'}, s.In i (.waiting prior id t rest releases) →
      s.In j (.waiting prior' id' u rest' releases') → Before id id' ∨ (id = id' ∧ u < t) := by
    intro i j h
    induction h with
    | single h => exact fun hi hj => before_of_waitsFor hchained hordered hi hj h
    | tail hik hkj ih =>
        intro prior prior' t u id id' rest rest' releases releases' hi hj
        have hwait := hkj
        obtain ⟨prior₀, id₀, t₀, rest₀, releases₀, -, hk, -, -⟩ := hwait
        rcases ih hi hk with hfirst | ⟨rfl, hfirst⟩
        · rcases before_of_waitsFor hchained hordered hk hj hkj with hsecond | ⟨rfl, -⟩
          · exact Or.inl (lt_trans hfirst hsecond)
          · exact Or.inl hfirst
        · rcases before_of_waitsFor hchained hordered hk hj hkj with hsecond | ⟨rfl, hsecond⟩
          · exact Or.inl hsecond
          · exact Or.inr ⟨rfl, hsecond.trans hfirst⟩
  intro h
  obtain ⟨j, hij, -⟩ := Relation.TransGen.head'_iff.mp h
  obtain ⟨prior, id, t, rest, releases, -, hin, -, -⟩ := hij
  rcases hrises h hin hin with hlt | ⟨-, hlt⟩
  · exact lt_irrefl _ hlt
  · exact Nat.lt_irrefl _ hlt

/-- A call that has not released can go on, or waits for one that has not released. -/
theorem step_or_waitsFor (hchained : Chained s) {i : Nat} {phase : TurnPhase} (hin : s.In i phase)
    (hphase : phase ≠ .released) :
    ((s.step (.resume i)).isSome = true ∨ (s.step (.release i)).isSome = true) ∨
      ∃ j phase', s.WaitsFor i j ∧ s.In j phase' ∧ phase' ≠ .released := by
  cases phase with
  | waiting prior id held rest releases =>
      by_cases hresolved : prior ∈ s.resolved
      · refine Or.inl (Or.inl ?_)
        rw [step, hin]
        simp [hresolved]
      · obtain ⟨⟨j, hj⟩, -⟩ := (hchained.behind hin).2 hresolved
        have hwait : s.WaitsFor i j := ⟨_, _, _, _, _, _, hin, hresolved, hj⟩
        obtain ⟨phase', hin', hmem⟩ := hj
        refine Or.inr ⟨j, phase', hwait, hin', ?_⟩
        rintro rfl
        cases hmem
  | locked releases =>
      refine Or.inl (Or.inr ?_)
      rw [step, hin]
      rfl
  | released => exact absurd rfl hphase

theorem exists_step (hchained : Chained s) (hordered : s.Ordered) {c : TurnCall}
    (hc : c ∈ s.calls) (hphase : c.phase ≠ .released) :
    ∃ i, (s.step (.resume i)).isSome = true ∨ (s.step (.release i)).isSome = true := by
  let behind : Fin s.calls.length → Fin s.calls.length → Prop :=
    fun i j => Relation.TransGen s.WaitsFor j i
  have htrans : IsTrans _ behind := ⟨fun i j k hij hjk => hjk.trans hij⟩
  have hirrefl : Std.Irrefl behind := ⟨fun i => not_transGen_waitsFor hchained hordered i⟩
  -- a call that waits for no other one that has not released
  obtain ⟨i, hi⟩ := List.mem_iff_getElem?.mp hc
  have hin : s.In i c.phase := Option.map_eq_some_iff.mpr ⟨c, hi, rfl⟩
  obtain ⟨k, ⟨phase, hk, hopen⟩, hleast⟩ :=
    (Finite.wellFounded_of_trans_of_irrefl behind).has_min
      {k | ∃ phase, s.In k phase ∧ phase ≠ .released} ⟨⟨i, hin.lt⟩, c.phase, hin, hphase⟩
  rcases step_or_waitsFor hchained hk hopen with hstep | ⟨j, phase', hwait, hj, hopen'⟩
  · exact ⟨k, hstep⟩
  · exact absurd (Relation.TransGen.single hwait) (hleast ⟨j, hj.lt⟩ ⟨phase', hj, hopen'⟩)

theorem Sound.of_chained (hchained : Chained s) (hordered : s.Ordered) : s.Sound where
  exclusive := by
    intro i j c c' releases releases' id hne hc hc' hphase hphase' hmem hmem'
    have hlock : ∀ {k : Nat} {c : TurnCall} {releases}, s.calls[k]? = some c →
        c.phase = .locked releases → id ∈ c.ids →
        ∃ t, s.In k (.locked releases) ∧ (id, t) ∈ releases := by
      intro k c releases hc hphase hmem
      have hkeeps := hordered k c hc
      rw [hphase] at hkeeps
      have hfst : id ∈ releases.map Prod.fst := by
        rw [show releases.map Prod.fst = sortedIds c.ids from hkeeps]
        exact mem_sortedIds.mpr hmem
      obtain ⟨⟨id₀, t⟩, htoken, rfl⟩ := List.mem_map.mp hfst
      exact ⟨t, Option.map_eq_some_iff.mpr ⟨c, hc, hphase⟩, htoken⟩
    obtain ⟨t, hin, ht⟩ := hlock hc hphase hmem
    obtain ⟨u, hin', hu⟩ := hlock hc' hphase' hmem'
    -- each of the two promises would be the first of the same chain
    have hle := hchained.first hin ht j u ⟨_, hin', hu⟩
    have hge := hchained.first hin' hu i t ⟨_, hin, ht⟩
    obtain rfl := Nat.le_antisymm hle hge
    exact hne (hchained.unique ⟨_, hin, ht⟩ ⟨_, hin', hu⟩).1
  acyclic := not_transGen_waitsFor hchained hordered
  moves := fun c hc hphase => exists_step hchained hordered hc hphase
  emptied := by
    intro hall
    have hdead : ∀ {i id t}, ¬s.Live i id t := by
      rintro i id t ⟨phase, hin, hmem⟩
      obtain ⟨c, hc, rfl⟩ := Option.map_eq_some_iff.mp hin
      rw [hall c (List.mem_of_getElem? hc)] at hmem
      cases hmem
    refine OrdMap.ext (List.eq_nil_iff_forall_not_mem.mpr fun e he => ?_)
    obtain ⟨⟨i, hlive⟩, -⟩ := hchained.last (OrdMap.get?_eq_some.mpr he)
    exact hdead hlive

end

/-- **No two calls with a turn in common have their turns at once, none wait for one another, and
the map is emptied.** -/
theorem turnLocks_sound {events : List TurnEvent} {s : TurnLocks}
    (hrun : Runs.exec step start events = some s) : s.Sound := by
  have hinv : Chained s ∧ s.Ordered := by
    refine Runs.exec_preserves (I := fun s => Chained s ∧ s.Ordered) ?_ ⟨chained_start, ?_⟩ hrun
    · exact fun s e s' h hs => ⟨h.1.step hs, ordered_step h.2 hs⟩
    · exact fun j c hc => nomatch hc
  exact Sound.of_chained hinv.1 hinv.2

/-- The second of two calls waits for a turn of the first, and goes on when it is released. -/
def twoCalls : List TurnEvent :=
  [.call ["b", "a", "b"], .call ["c", "b"], .release 0, .resume 1]

theorem turnLocks_twoCalls : ∃ s, Runs.exec step start twoCalls = some s ∧ s.Sound ∧
    s.calls.map TurnCall.ids = [["b", "a", "b"], ["c", "b"]] := by
  have hsome : (Runs.exec step start twoCalls).isSome = true := by decide +kernel
  obtain ⟨s, hs⟩ := Option.isSome_iff_exists.mp hsome
  refine ⟨s, hs, turnLocks_sound hs, ?_⟩
  have hids : (Runs.exec step start twoCalls).map (fun s => s.calls.map TurnCall.ids) =
      some [["b", "a", "b"], ["c", "b"]] := by decide +kernel
  rw [hs] at hids
  exact Option.some.inj hids

end TurnLocks

end Runir
