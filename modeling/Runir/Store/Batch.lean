import Mathlib.Data.List.Induction
import Runir.Store.SupersedeFacts

/-!
# Store — What a batch does

`batch_run` says once what a composed batch does to the table its plans were prepared on: the
guards pass, and each group writes its target and its previous rows.

* `get?_groupByTarget`: a group holds the plans with its target, in list order.
* `composePreparedSupersedeBatch_ok`: with or without shared targets, the statements are the
  guards of all groups and then their effects.
-/

namespace Runir

/-! ### Groups -/

/-- The plans for a target, in list order. -/
def plansFor (plans : List PreparedSupersede) (t : String) : List PreparedSupersede :=
  plans.filter fun p => decide (p.replacement.id = t)

/-- The group of a list of plans with one target. -/
def groupOf : List PreparedSupersede → Option SupersedeGroup
  | [] => none
  | p :: rest => some ⟨p, rest⟩

theorem groupOf_append (ps : List PreparedSupersede) (p : PreparedSupersede) :
    groupOf (ps ++ [p]) =
      some (match groupOf ps with
        | none => ⟨p, []⟩
        | some g => ⟨g.first, g.rest ++ [p]⟩) := by
  cases ps <;> rfl

theorem groupByTarget_append (plans : List PreparedSupersede) (p : PreparedSupersede) :
    groupByTarget (plans ++ [p]) =
      (groupByTarget plans).set p.replacement.id
        (match (groupByTarget plans).get? p.replacement.id with
        | none => ⟨p, []⟩
        | some g => ⟨g.first, g.rest ++ [p]⟩) := by
  unfold groupByTarget
  rw [List.foldl_append, List.foldl_cons, List.foldl_nil]
  generalize List.foldl _ _ plans = grouped
  cases grouped.get? p.replacement.id <;> rfl

/-- A group holds the plans with its target, in list order. -/
theorem get?_groupByTarget (plans : List PreparedSupersede) (t : String) :
    (groupByTarget plans).get? t = groupOf (plansFor plans t) := by
  induction plans using List.reverseRecOn with
  | nil => rfl
  | append_singleton plans p ih =>
      rw [groupByTarget_append, OrdMap.get?_set]
      by_cases ht : t = p.replacement.id
      · subst ht
        have hfor : plansFor (plans ++ [p]) p.replacement.id =
            plansFor plans p.replacement.id ++ [p] := by
          simp [plansFor]
        rw [if_pos rfl, hfor, groupOf_append, ih]
      · have hfor : plansFor (plans ++ [p]) t = plansFor plans t := by
          simp [plansFor, Ne.symm ht]
        rw [if_neg ht, hfor, ih]

variable {g : SupersedeGroup}

theorem groupOf_eq_some {ps : List PreparedSupersede}
    (h : groupOf ps = some g) : g.states = ps := by
  cases ps with
  | nil => cases h
  | cons p rest =>
      obtain rfl := Option.some.inj h
      rfl

variable {plans : List PreparedSupersede}

/-- The groups of a list of plans. -/
theorem mem_groups (h : g ∈ (groupByTarget plans).values) :
    g.states = plansFor plans g.targetId ∧ (groupByTarget plans).get? g.targetId = some g := by
  obtain ⟨t, ht⟩ := OrdMap.mem_values.mp h
  have hstates : g.states = plansFor plans t := by
    rw [get?_groupByTarget] at ht
    exact groupOf_eq_some ht
  have hfirst : g.first ∈ plansFor plans t := by
    rw [← hstates]
    exact List.mem_cons_self
  have hid : g.targetId = t := of_decide_eq_true (List.mem_filter.mp hfirst).2
  rw [hid]
  exact ⟨hstates, ht⟩

variable {p : PreparedSupersede}

theorem mem_plansFor {t : String} :
    p ∈ plansFor plans t ↔ p ∈ plans ∧ p.replacement.id = t := by
  unfold plansFor
  rw [List.mem_filter, decide_eq_true_eq]

theorem SupersedeGroup.mem_states (h : g ∈ (groupByTarget plans).values) (hp : p ∈ g.states) :
    p ∈ plans ∧ p.replacement.id = g.targetId := by
  rw [(mem_groups h).1] at hp
  exact mem_plansFor.mp hp

/-- Every plan is in the group of its target. -/
theorem exists_group (hp : p ∈ plans) :
    ∃ g ∈ (groupByTarget plans).values, p ∈ g.states := by
  have hmem : p ∈ plansFor plans p.replacement.id := mem_plansFor.mpr ⟨hp, rfl⟩
  have hget := get?_groupByTarget plans p.replacement.id
  cases hfor : plansFor plans p.replacement.id with
  | nil =>
      rw [hfor] at hmem
      cases hmem
  | cons q rest =>
      rw [hfor] at hget hmem
      exact ⟨⟨q, rest⟩, OrdMap.mem_values.mpr ⟨_, hget⟩, hmem⟩

theorem SupersedeGroup.last_mem (g : SupersedeGroup) : g.last ∈ g.states := by
  unfold SupersedeGroup.last SupersedeGroup.states
  cases h : g.rest using List.reverseRecOn with
  | nil => exact List.mem_cons_self
  | append_singleton xs x => simp

/-- Without a shared target, every group is one plan. -/
theorem groups_of_unshared (h : ∀ g ∈ (groupByTarget plans).values, g.rest = []) :
    (groupByTarget plans).entries = plans.map fun p => (p.replacement.id, ⟨p, []⟩) := by
  induction plans using List.reverseRecOn with
  | nil => rfl
  | append_singleton plans p ih =>
      have hnone : (groupByTarget plans).get? p.replacement.id = none := by
        cases hget : (groupByTarget plans).get? p.replacement.id with
        | none => rfl
        | some g =>
            -- the group would get a second plan
            have hgroup := groupByTarget_append plans p
            rw [hget] at hgroup
            have hmem : (⟨g.first, g.rest ++ [p]⟩ : SupersedeGroup) ∈
                (groupByTarget (plans ++ [p])).values := by
              refine OrdMap.mem_values.mpr ⟨p.replacement.id, ?_⟩
              rw [hgroup, OrdMap.get?_set_self]
            exact absurd (h _ hmem) (by simp)
      have hentries : (groupByTarget (plans ++ [p])).entries =
          (groupByTarget plans).entries ++ [(p.replacement.id, ⟨p, []⟩)] := by
        rw [groupByTarget_append, hnone]
        exact OrdMap.entries_set_of_none hnone _
      have hrest : ∀ g ∈ (groupByTarget plans).values, g.rest = [] := by
        intro g hg
        refine h g ?_
        unfold OrdMap.values at hg ⊢
        rw [hentries, List.map_append]
        exact List.mem_append_left _ hg
      rw [hentries, ih hrest, List.map_append]
      rfl

/-! ### Composition -/

/-- A list of steps, each of which fails exactly where `c` says. -/
theorem mapM_ok {α β ε : Type*} {c : α → Prop} [DecidablePred c] {e : ε} {f : α → β} {xs : List α}
    {ys : List β}
    (h : (xs.mapM fun x => if c x then (Except.error e : Except ε β) else .ok (f x)) = .ok ys) :
    (∀ x ∈ xs, ¬c x) ∧ ys = xs.map f := by
  induction xs generalizing ys with
  | nil =>
      rw [List.mapM_nil] at h
      obtain rfl := Except.ok.inj h
      exact ⟨by simp, rfl⟩
  | cons x xs ih =>
      rw [List.mapM_cons] at h
      by_cases hx : c x
      · simp only [if_pos hx, bind, Except.bind] at h
        cases h
      · simp only [if_neg hx, bind, Except.bind] at h
        split at h
        · cases h
        · next zs hzs =>
            obtain rfl := Except.ok.inj h
            obtain ⟨hall, rfl⟩ := ih hzs
            exact ⟨List.forall_mem_cons.mpr ⟨hx, hall⟩, rfl⟩

/-- The effects of a group. -/
def groupEffects (g : SupersedeGroup) : List Statement :=
  targetStatement g.first g.last g.shared :: g.states.map .setPrevious

theorem groupMutation_eq (g : SupersedeGroup) :
    groupMutation g =
      if BlankTarget g.first then .error .emptyText else .ok (groupEffects g) := by
  unfold groupMutation
  rw [targetMutation_eq]
  by_cases h : BlankTarget g.first
  · rw [if_pos h, if_pos h]
    rfl
  · rw [if_neg h, if_neg h]
    rfl

theorem planMutation_eq (p : PreparedSupersede) :
    planMutation p =
      if BlankTarget p then .error .emptyText else .ok (groupEffects ⟨p, []⟩) := by
  unfold planMutation
  rw [targetMutation_eq]
  by_cases h : BlankTarget p
  · rw [if_pos h, if_pos h]
    rfl
  · rw [if_neg h, if_neg h]
    rfl

/-- What a composed batch was checked for. -/
structure Composed (userId : String) (plans : List PreparedSupersede)
    (statements : List Statement) : Prop where
  users : ∀ p ∈ plans, p.userId = userId
  previous : (plans.map (·.previousId)).Nodup
  disjoint : ∀ p ∈ plans, ∀ q ∈ plans, p.previousId ≠ q.replacement.id
  valid : ∀ g ∈ (groupByTarget plans).values, validateGroup userId g = .ok ()
  notBlank : ∀ g ∈ (groupByTarget plans).values, ¬BlankTarget g.first
  statements : statements = (groupByTarget plans).values.flatMap groupGuards ++
    (groupByTarget plans).values.flatMap groupEffects

theorem forM_ok {α ε : Type*} {f : α → Except ε Unit} {xs : List α} (h : xs.forM f = .ok ()) :
    ∀ x ∈ xs, f x = .ok () := by
  induction xs with
  | nil => simp
  | cons x xs ih =>
      simp only [List.forM_eq_forM, List.forM_cons, bind, Except.bind] at h
      split at h
      · cases h
      · next hx => exact List.forall_mem_cons.mpr ⟨hx, ih h⟩

theorem groupPreparedGenericSupersedes_ok {userId : String}
    {groups : List SupersedeGroup} (h : groupPreparedGenericSupersedes userId plans = .ok groups) :
    (∀ p ∈ plans, p.userId = userId) ∧ (plans.map (·.previousId)).Nodup ∧
      (∀ p ∈ plans, ∀ q ∈ plans, p.previousId ≠ q.replacement.id) ∧
      (∀ g ∈ groups, validateGroup userId g = .ok ()) ∧ groups = (groupByTarget plans).values := by
  unfold groupPreparedGenericSupersedes at h
  split at h
  · cases h
  next husers =>
  split at h
  · cases h
  next hprev =>
  split at h
  · cases h
  next hdisjoint =>
  simp only [bind, Except.bind] at h
  split at h
  · cases h
  · next hvalid =>
      obtain rfl := Except.ok.inj h
      refine ⟨by simpa using husers, not_not.mp hprev, ?_, forM_ok hvalid, rfl⟩
      intro p hp q hq heq
      refine hdisjoint (List.any_eq_true.mpr ⟨p, hp, ?_⟩)
      exact decide_eq_true (heq ▸ List.mem_map.mpr ⟨q, hq, rfl⟩)

/-- **Composition.**  With or without shared targets, the statements are the guards of all groups
and then their effects. -/
theorem composePreparedSupersedeBatch_ok {userId : String} {statements : List Statement}
    (h : composePreparedSupersedeBatch userId plans = .ok statements) :
    Composed userId plans statements := by
  unfold composePreparedSupersedeBatch at h
  split at h
  · cases h
  split at h
  · cases h
  simp only [bind, Except.bind] at h
  split at h
  · cases h
  next groups hgroups =>
  obtain ⟨husers, hprev, hdisjoint, hvalid, rfl⟩ := groupPreparedGenericSupersedes_ok hgroups
  split at h
  · -- row-disjoint plans: the groups are the plans
    next hunshared =>
      have hrest : ∀ g ∈ (groupByTarget plans).values, g.rest = [] := by
        intro g hg
        have hg' := List.any_eq_false.mp hunshared g hg
        simpa [SupersedeGroup.shared] using hg'
      have hvalues : (groupByTarget plans).values = plans.map fun p => ⟨p, []⟩ := by
        unfold OrdMap.values
        rw [groups_of_unshared hrest, List.map_map]
        rfl
      rw [funext planMutation_eq] at h
      split at h
      · cases h
      · next mutations hmut =>
          obtain ⟨hblank, rfl⟩ := mapM_ok hmut
          obtain rfl := Except.ok.inj h
          refine ⟨husers, hprev, hdisjoint, hvalid, ?_, ?_⟩
          · rw [hvalues]
            intro g hg
            obtain ⟨p, hp, rfl⟩ := List.mem_map.mp hg
            exact hblank p hp
          · rw [hvalues, List.flatMap_map, List.flatMap_map, List.flatMap_def (f := fun a =>
              groupEffects ⟨a, []⟩)]
            rfl
  · -- shared targets
    rw [funext groupMutation_eq] at h
    split at h
    · cases h
    · next mutations hmut =>
        obtain ⟨hblank, rfl⟩ := mapM_ok hmut
        obtain rfl := Except.ok.inj h
        exact ⟨husers, hprev, hdisjoint, hvalid, hblank, by rw [List.flatMap_def (f := groupEffects)]⟩

/-! ### The effect of a batch -/

/-- The table still holds the rows the plans were prepared on. -/
def Matches (rows : Rows) (plans : List PreparedSupersede) : Prop :=
  ∀ p ∈ plans, rows.get? p.previousId = some p.previousRow ∧
    rows.get? p.replacement.id = p.replacementRow

section run
variable (host : Host) (now : Int)

/-- The effects of a group, each with the row it writes. -/
def groupSteps (g : SupersedeGroup) : List (Statement × String × MemoryRow) :=
  (targetStatement g.first g.last g.shared, g.targetId,
    targetRow host now g.first g.last g.shared) ::
      g.states.map fun p => (.setPrevious p, p.previousId, setPrevious host now p p.previousRow)

/-- The rows a batch writes. -/
def batchWrites (plans : List PreparedSupersede) : List (String × MemoryRow) :=
  (groupByTarget plans).values.flatMap fun g => (groupSteps host now g).map Prod.snd

theorem groupEffects_eq (g : SupersedeGroup) :
    groupEffects g = (groupSteps host now g).map Prod.fst := by
  unfold groupEffects groupSteps
  rw [List.map_cons, List.map_map]
  rfl

variable {host now} {rows : Rows} {plans : List PreparedSupersede}

theorem queryTransaction_append (sts sts' : List Statement) (rows₀ : Rows) :
    queryTransaction host now (sts ++ sts') rows₀ =
      (queryTransaction host now sts rows₀).bind (queryTransaction host now sts') :=
  List.foldlM_append

/-- Guards that pass leave the table alone. -/
theorem queryTransaction_guards {sts : List Statement}
    (h : ∀ st ∈ sts, st.run host now rows = .ok rows) :
    queryTransaction host now sts rows = .ok rows := by
  induction sts with
  | nil => rfl
  | cons st sts ih =>
      obtain ⟨hst, hsts⟩ := List.forall_mem_cons.mp h
      unfold queryTransaction
      rw [List.foldlM_cons, hst]
      exact ih hsts

/-- Statements that write distinct rows, each where the table is still as it was, write them
all. -/
theorem queryTransaction_steps {steps : List (Statement × String × MemoryRow)} {rows₀ : Rows}
    (hstep : ∀ x ∈ steps, ∀ rows', rows'.get? x.2.1 = rows.get? x.2.1 →
      x.1.run host now rows' = .ok (rows'.set x.2.1 x.2.2))
    (hnodup : (steps.map fun x => x.2.1).Nodup)
    (h₀ : ∀ x ∈ steps, rows₀.get? x.2.1 = rows.get? x.2.1) :
    queryTransaction host now (steps.map Prod.fst) rows₀ =
      .ok ((steps.map Prod.snd).foldl (fun m e => m.set e.1 e.2) rows₀) := by
  induction steps generalizing rows₀ with
  | nil => rfl
  | cons x steps ih =>
      obtain ⟨hx, hsteps⟩ := List.forall_mem_cons.mp hstep
      obtain ⟨hx₀, hsteps₀⟩ := List.forall_mem_cons.mp h₀
      obtain ⟨hnew, hnodup'⟩ := List.nodup_cons.mp hnodup
      unfold queryTransaction
      rw [List.map_cons, List.foldlM_cons, hx rows₀ hx₀]
      refine ih hsteps hnodup' fun y hy => ?_
      -- the row written is none of the remaining ones
      have hne : y.2.1 ≠ x.2.1 := fun heq => hnew (List.mem_map.mpr ⟨y, hy, heq⟩)
      rw [OrdMap.get?_set_ne _ _ hne, hsteps₀ y hy]

theorem SupersedeGroup.first_mem (g : SupersedeGroup) : g.first ∈ g.states := List.mem_cons_self

theorem groupSteps_run (hg : g ∈ (groupByTarget plans).values) (hrows : Matches rows plans) :
    ∀ x ∈ groupSteps host now g, ∀ rows', rows'.get? x.2.1 = rows.get? x.2.1 →
      x.1.run host now rows' = .ok (rows'.set x.2.1 x.2.2) := by
  intro x hx rows' hread
  rcases List.mem_cons.mp hx with rfl | hx
  · obtain ⟨hfirst, -⟩ := SupersedeGroup.mem_states hg g.first_mem
    obtain ⟨-, hlast⟩ := SupersedeGroup.mem_states hg g.last_mem
    refine run_targetStatement ?_ hlast
    exact hread.trans (hrows g.first hfirst).2
  · obtain ⟨p, hp, rfl⟩ := List.mem_map.mp hx
    obtain ⟨hplan, -⟩ := SupersedeGroup.mem_states hg hp
    exact run_setPrevious (hread.trans (hrows p hplan).1)

theorem groupGuards_run (hg : g ∈ (groupByTarget plans).values) (hrows : Matches rows plans) :
    ∀ st ∈ groupGuards g, st.run host now rows = .ok rows := by
  intro st hst
  rcases List.mem_append.mp hst with h | h
  · obtain ⟨p, hp, rfl⟩ := List.mem_map.mp h
    obtain ⟨hplan, -⟩ := SupersedeGroup.mem_states hg hp
    exact run_previousGuard (hrows p hplan).1
  · obtain rfl := List.mem_singleton.mp h
    obtain ⟨hplan, -⟩ := SupersedeGroup.mem_states hg g.first_mem
    exact run_targetGuard (hrows g.first hplan).2

/-- A row a batch writes is a target or a previous row. -/
theorem mem_groupSteps {x : Statement × String × MemoryRow} (h : x ∈ groupSteps host now g) :
    x.2 = (g.targetId, targetRow host now g.first g.last g.shared) ∨
      ∃ p ∈ g.states, x.2 = (p.previousId, setPrevious host now p p.previousRow) := by
  rcases List.mem_cons.mp h with rfl | h
  · exact Or.inl rfl
  · obtain ⟨p, hp, rfl⟩ := List.mem_map.mp h
    exact Or.inr ⟨p, hp, rfl⟩

variable {userId : String} {statements : List Statement}

theorem Composed.nodup_group (h : Composed userId plans statements)
    (hg : g ∈ (groupByTarget plans).values) :
    ((groupSteps host now g).map fun x => x.2.1).Nodup := by
  have hstates : g.states.Sublist plans := by
    rw [(mem_groups hg).1]
    exact List.filter_sublist
  have hkeys : (groupSteps host now g).map (fun x => x.2.1) =
      g.targetId :: g.states.map (·.previousId) := by
    unfold groupSteps
    rw [List.map_cons, List.map_map]
    rfl
  rw [hkeys, List.nodup_cons]
  refine ⟨?_, (hstates.map _).nodup h.previous⟩
  intro hmem
  obtain ⟨p, hp, heq⟩ := List.mem_map.mp hmem
  obtain ⟨hfirst, -⟩ := SupersedeGroup.mem_states hg g.first_mem
  exact h.disjoint p (hstates.subset hp) g.first hfirst heq

/-- No two effects of a batch write one row. -/
theorem Composed.nodup_steps (h : Composed userId plans statements) :
    (((groupByTarget plans).values.flatMap (groupSteps host now)).map fun x => x.2.1).Nodup := by
  rw [List.map_flatMap, List.nodup_flatMap]
  refine ⟨fun g hg => h.nodup_group hg, ?_⟩
  have hkeys : (groupByTarget plans).values.Pairwise fun g g' => g.targetId ≠ g'.targetId := by
    have hpairs : (groupByTarget plans).entries.Pairwise fun e e' => e.1 ≠ e'.1 :=
      List.pairwise_map.mp (groupByTarget plans).nodup
    unfold OrdMap.values
    refine List.pairwise_map.mpr (hpairs.imp_of_mem fun {e e'} he he' hne => ?_)
    have hid : ∀ e ∈ (groupByTarget plans).entries, e.2.targetId = e.1 := by
      intro e he
      have hget : (groupByTarget plans).get? e.1 = some e.2 := OrdMap.get?_eq_some.mpr he
      rw [get?_groupByTarget] at hget
      have hfirst : e.2.first ∈ plansFor plans e.1 := by
        rw [← groupOf_eq_some hget]
        exact e.2.first_mem
      exact (mem_plansFor.mp hfirst).2
    rw [hid e he, hid e' he']
    exact hne
  refine hkeys.imp_of_mem fun {g g'} hg hg' hne => ?_
  intro id hid hid'
  obtain ⟨x, hx, rfl⟩ := List.mem_map.mp hid
  obtain ⟨y, hy, hxy⟩ := List.mem_map.mp hid'
  obtain ⟨hfirst, -⟩ := SupersedeGroup.mem_states hg g.first_mem
  obtain ⟨hfirst', -⟩ := SupersedeGroup.mem_states hg' g'.first_mem
  rcases mem_groupSteps hx with hx | ⟨p, hp, hx⟩
  · rcases mem_groupSteps hy with hy | ⟨q, hq, hy⟩
    · rw [hx, hy] at hxy
      exact hne hxy.symm
    · rw [hx, hy] at hxy
      exact h.disjoint q (SupersedeGroup.mem_states hg' hq).1 g.first hfirst hxy
  · rcases mem_groupSteps hy with hy | ⟨q, hq, hy⟩
    · rw [hx, hy] at hxy
      exact h.disjoint p (SupersedeGroup.mem_states hg hp).1 g'.first hfirst' hxy.symm
    · -- one previous row belongs to one plan, and that to one group
      rw [hx, hy] at hxy
      obtain ⟨hp, hpt⟩ := SupersedeGroup.mem_states hg hp
      obtain ⟨hq, hqt⟩ := SupersedeGroup.mem_states hg' hq
      obtain rfl : q = p := List.inj_on_of_nodup_map h.previous hq hp hxy
      exact hne (hpt.symm.trans hqt)

/-- **The run of a batch.**  On the table its plans were prepared on, a composed batch commits,
and writes its rows. -/
theorem batch_run (h : Composed userId plans statements) (hrows : Matches rows plans) :
    queryTransaction host now statements rows =
      .ok ((batchWrites host now plans).foldl (fun m e => m.set e.1 e.2) rows) := by
  have hguards : queryTransaction host now ((groupByTarget plans).values.flatMap groupGuards) rows =
      .ok rows := by
    refine queryTransaction_guards fun st hst => ?_
    obtain ⟨g, hg, hst⟩ := List.mem_flatMap.mp hst
    exact groupGuards_run hg hrows st hst
  have heffects : (groupByTarget plans).values.flatMap groupEffects =
      ((groupByTarget plans).values.flatMap (groupSteps host now)).map Prod.fst := by
    rw [List.map_flatMap]
    exact List.flatMap_congr fun g _ => groupEffects_eq host now g
  have hwrites : batchWrites host now plans =
      ((groupByTarget plans).values.flatMap (groupSteps host now)).map Prod.snd := by
    rw [List.map_flatMap]
    rfl
  rw [h.statements, queryTransaction_append, hguards, heffects, hwrites]
  refine queryTransaction_steps (fun x hx => ?_) h.nodup_steps fun x _ => rfl
  obtain ⟨g, hg, hx⟩ := List.mem_flatMap.mp hx
  exact groupSteps_run hg hrows x hx

end run

/-! ### Reading a batch -/

section read
variable {host : Host} {now : Int} {rows : Rows} {plans : List PreparedSupersede}
  {userId : String} {statements : List Statement}

theorem Composed.nodup_writes (h : Composed userId plans statements) :
    ((batchWrites host now plans).map Prod.fst).Nodup := by
  have hsteps := @Composed.nodup_steps host now plans userId statements h
  unfold batchWrites
  rw [List.map_flatMap] at hsteps ⊢
  simp only [List.map_map]
  exact hsteps

/-- The table after a batch, read at one row. -/
theorem Composed.get?_writes (h : Composed userId plans statements) {id : String}
    {row : MemoryRow} (hmem : (id, row) ∈ batchWrites host now plans) :
    ((batchWrites host now plans).foldl (fun m e => m.set e.1 e.2) rows).get? id = some row := by
  rw [OrdMap.get?_foldl_set_entries h.nodup_writes,
    (OrdMap.find_eq_some h.nodup_writes).mpr hmem]
  rfl

theorem Composed.get?_previous (h : Composed userId plans statements) (hp : p ∈ plans) :
    ((batchWrites host now plans).foldl (fun m e => m.set e.1 e.2) rows).get? p.previousId =
      some (setPrevious host now p p.previousRow) := by
  refine h.get?_writes (List.mem_flatMap.mpr ?_)
  obtain ⟨g, hg, hpg⟩ := exists_group hp
  have hstep : (Statement.setPrevious p, p.previousId, setPrevious host now p p.previousRow) ∈
      groupSteps host now g := List.mem_cons_of_mem _ (List.mem_map.mpr ⟨p, hpg, rfl⟩)
  exact ⟨g, hg, List.mem_map.mpr ⟨_, hstep, rfl⟩⟩

theorem Composed.get?_target (h : Composed userId plans statements)
    (hg : g ∈ (groupByTarget plans).values) :
    ((batchWrites host now plans).foldl (fun m e => m.set e.1 e.2) rows).get? g.targetId =
      some (targetRow host now g.first g.last g.shared) := by
  refine h.get?_writes (List.mem_flatMap.mpr ⟨g, hg, ?_⟩)
  exact List.mem_map.mpr ⟨_, List.mem_cons_self, rfl⟩

theorem Composed.get?_other (h : Composed userId plans statements) {id : String}
    (hprev : ∀ p ∈ plans, p.previousId ≠ id) (htarget : ∀ p ∈ plans, p.replacement.id ≠ id) :
    ((batchWrites host now plans).foldl (fun m e => m.set e.1 e.2) rows).get? id =
      rows.get? id := by
  have hnone : OrdMap.find id (batchWrites host now plans) = none := by
    cases hfind : OrdMap.find id (batchWrites host now plans) with
    | none => rfl
    | some row =>
        have hmem := (OrdMap.find_eq_some h.nodup_writes).mp hfind
        obtain ⟨g, hg, hmem⟩ := List.mem_flatMap.mp hmem
        obtain ⟨x, hx, hxid⟩ := List.mem_map.mp hmem
        rcases mem_groupSteps hx with hx | ⟨p, hp, hx⟩
        · obtain ⟨hfirst, -⟩ := SupersedeGroup.mem_states hg g.first_mem
          rw [hx] at hxid
          exact absurd (Prod.mk.inj hxid).1 (htarget g.first hfirst)
        · rw [hx] at hxid
          exact absurd (Prod.mk.inj hxid).1 (hprev p (SupersedeGroup.mem_states hg hp).1)
  rw [OrdMap.get?_foldl_set_entries h.nodup_writes, hnone]
  rfl

end read

end Runir
