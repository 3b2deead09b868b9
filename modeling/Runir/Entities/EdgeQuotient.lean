import Mathlib.Algebra.Order.BigOperators.Group.List
import Runir.Entities.EdgeReassignment

/-!
# Entities — Edge quotient

What the fragment of `composeEdgeReassignment` makes of the table.

* `target_injective`: two edges that touch the entity and go to one place are between the same two
  records, so with unique edges each target is started once and folded with what is there alone.
* `found_performMoves`: the run of the statements, by what is found under each key after it.
* `performAll_composeEdgeReassignment`: the table is the quotient of the one before.
-/

namespace Runir
open scoped List

/-! ### Where an edge goes -/

section
variable {τ : Type*} {fromRecord toRecord : String}

theorem repoint_ne (hne : fromRecord ≠ toRecord) (endpoint : String) :
    repoint fromRecord toRecord endpoint ≠ fromRecord := by
  unfold repoint
  split
  · exact hne.symm
  · assumption

/-- The key has the record at either end. -/
def EdgeKey.touches (key : EdgeKey) (record : String) : Prop := key.1 = record ∨ key.2.1 = record

variable {edge : EntityEdge τ}

theorem touches_iff {record : String} :
    edge.touches record = true ↔ EdgeKey.touches edge.key record := by
  simp [EntityEdge.touches, EdgeKey.touches, EntityEdge.key]

theorem touches_eq_false {record : String}
    (h : ¬ EdgeKey.touches edge.key record) : edge.touches record = false :=
  Bool.eq_false_iff.mpr fun ht => h (touches_iff.mp ht)

theorem not_touches_target (hne : fromRecord ≠ toRecord) (edge : EntityEdge τ) :
    ¬ EdgeKey.touches (edge.target fromRecord toRecord) fromRecord := by
  rintro (h | h)
  · exact repoint_ne hne _ h
  · exact repoint_ne hne _ h

/-- An edge that does not touch the record stays. -/
theorem target_eq_key (h : ¬ EdgeKey.touches edge.key fromRecord) :
    edge.target fromRecord toRecord = edge.key := by
  obtain ⟨hin, hout⟩ := not_or.mp h
  have hin' : repoint fromRecord toRecord edge.inStr = edge.inStr := if_neg hin
  have hout' : repoint fromRecord toRecord edge.outStr = edge.outStr := if_neg hout
  rw [EntityEdge.target, hin', hout', EntityEdge.key]

/-- An edge that touches the record goes to one that touches the other. -/
theorem touches_target (toRecord : String) (h : EdgeKey.touches edge.key fromRecord) :
    EdgeKey.touches (edge.target fromRecord toRecord) toRecord :=
  h.imp (fun hin => if_pos hin) fun hout => if_pos hout

theorem target_of_key_eq {e e' : EntityEdge τ} (h : e.key = e'.key) :
    e.target fromRecord toRecord = e'.target fromRecord toRecord := by
  simp only [EntityEdge.key, Prod.mk.injEq] at h
  obtain ⟨hin, hout, hkind⟩ := h
  rw [EntityEdge.target, hin, hout, hkind, EntityEdge.target]

/-- Of an edge that touches the record and does not become a loop, one end is moved. -/
theorem one_end_moved (ht : EdgeKey.touches edge.key fromRecord)
    (hl : edge.loops fromRecord toRecord = false) :
    (edge.inStr = fromRecord ∧ edge.outStr ≠ fromRecord ∧ edge.outStr ≠ toRecord) ∨
      (edge.outStr = fromRecord ∧ edge.inStr ≠ fromRecord ∧ edge.inStr ≠ toRecord) := by
  have hl' : repoint fromRecord toRecord edge.inStr ≠ repoint fromRecord toRecord edge.outStr :=
    of_decide_eq_false hl
  unfold repoint at hl'
  rcases ht with (hin : edge.inStr = fromRecord) | (hout : edge.outStr = fromRecord)
  · rw [if_pos hin] at hl'
    by_cases hout : edge.outStr = fromRecord
    · rw [if_pos hout] at hl'
      exact absurd rfl hl'
    · rw [if_neg hout] at hl'
      exact Or.inl ⟨hin, hout, hl'.symm⟩
  · rw [if_pos hout] at hl'
    by_cases hin : edge.inStr = fromRecord
    · rw [if_pos hin] at hl'
      exact absurd rfl hl'
    · rw [if_neg hin] at hl'
      exact Or.inr ⟨hout, hin, hl'⟩

/-- **Two edges that touch the record and go to one place** are between the same records. -/
theorem target_injective {e e' : EntityEdge τ} (ht : EdgeKey.touches e.key fromRecord)
    (ht' : EdgeKey.touches e'.key fromRecord) (hl : e.loops fromRecord toRecord = false)
    (hl' : e'.loops fromRecord toRecord = false)
    (h : e.target fromRecord toRecord = e'.target fromRecord toRecord) : e.key = e'.key := by
  simp only [EntityEdge.target, repoint, Prod.mk.injEq] at h
  obtain ⟨hin, hout, hkind⟩ := h
  simp only [EntityEdge.key, Prod.mk.injEq]
  rcases one_end_moved ht hl with ⟨h₁, h₂, h₃⟩ | ⟨h₁, h₂, h₃⟩ <;>
    rcases one_end_moved ht' hl' with ⟨h₁', h₂', h₃'⟩ | ⟨h₁', h₂', h₃'⟩
  · rw [if_neg h₂, if_neg h₂'] at hout
    exact ⟨h₁.trans h₁'.symm, hout, hkind⟩
  · rw [if_pos h₁, if_neg h₂'] at hin
    exact absurd hin.symm h₃'
  · rw [if_neg h₂, if_pos h₁'] at hin
    exact absurd hin h₃
  · rw [if_neg h₂, if_neg h₂'] at hin
    exact ⟨hin, h₁.trans h₁'.symm, hkind⟩

end

/-! ### What touches the record -/

variable {τ : Type*} {table : EdgeTable τ} {e : String × EntityEdge τ}

section
variable (fromRecord toRecord : String)

/-- What touches the record and becomes a loop. -/
def loopEdges (table : EdgeTable τ) : List (String × EntityEdge τ) :=
  (table.entries.filter fun e => e.2.touches fromRecord).filter fun e =>
    e.2.loops fromRecord toRecord

/-- What touches the record and goes elsewhere. -/
def movedEdges (table : EdgeTable τ) : List (String × EntityEdge τ) :=
  (table.entries.filter fun e => e.2.touches fromRecord).filter fun e =>
    !e.2.loops fromRecord toRecord

variable {fromRecord toRecord}

theorem mem_loopEdges :
    e ∈ loopEdges fromRecord toRecord table ↔
      e ∈ table.entries ∧ EdgeKey.touches e.2.key fromRecord ∧
        e.2.loops fromRecord toRecord = true := by
  simp only [loopEdges, List.mem_filter, touches_iff, and_assoc]

theorem mem_movedEdges :
    e ∈ movedEdges fromRecord toRecord table ↔
      e ∈ table.entries ∧ EdgeKey.touches e.2.key fromRecord ∧
        e.2.loops fromRecord toRecord = false := by
  simp only [movedEdges, List.mem_filter, touches_iff, and_assoc, Bool.not_eq_true']

theorem pairwise_target (h : table.UniqueOn EntityEdge.key) :
    (movedEdges fromRecord toRecord table).Pairwise fun e e' =>
      e.2.target fromRecord toRecord ≠ e'.2.target fromRecord toRecord := by
  have hnodup : (movedEdges fromRecord toRecord table).Nodup :=
    (table.entries_nodup.filter _).filter _
  refine hnodup.pairwise_of_forall_ne fun e he e' he' hne htarget => hne ?_
  obtain ⟨hm, ht, hl⟩ := mem_movedEdges.mp he
  obtain ⟨hm', ht', hl'⟩ := mem_movedEdges.mp he'
  exact h e hm e' hm' (target_injective ht ht' hl hl' htarget)

end

/-! ### What is folded -/

section
variable [LinearOrder τ] (now : τ) (fromRecord toRecord : String)

/-- With a target for each edge, every edge starts its own. -/
theorem foldl_aggregateEdge (es : List (String × EntityEdge τ)) (acc : EdgeAggregation τ)
    (hdistinct : (es.filter fun e => !e.2.loops fromRecord toRecord).Pairwise fun e e' =>
      e.2.target fromRecord toRecord ≠ e'.2.target fromRecord toRecord)
    (hnew : ∀ e ∈ es, e.2.loops fromRecord toRecord = false →
      acc.byTarget.get? (e.2.target fromRecord toRecord) = none) :
    (es.foldl (aggregateEdge now fromRecord toRecord) acc).selfLoopIds =
        acc.selfLoopIds ++ (es.filter fun e => e.2.loops fromRecord toRecord).map Prod.fst ∧
      (es.foldl (aggregateEdge now fromRecord toRecord) acc).byTarget.values =
        acc.byTarget.values ++ (es.filter fun e => !e.2.loops fromRecord toRecord).map fun e =>
          newAgg now fromRecord toRecord e.1 e.2 := by
  induction es generalizing acc with
  | nil => simp
  | cons e es ih =>
      rw [List.foldl_cons]
      cases hl : e.2.loops fromRecord toRecord with
      | true =>
          have hloop : (e :: es).filter (fun e => e.2.loops fromRecord toRecord) =
              e :: es.filter fun e => e.2.loops fromRecord toRecord := List.filter_cons_of_pos hl
          have hmoved : (e :: es).filter (fun e => !e.2.loops fromRecord toRecord) =
              es.filter fun e => !e.2.loops fromRecord toRecord :=
            List.filter_cons_of_neg (by simp [hl])
          have hstep : aggregateEdge now fromRecord toRecord acc e =
              ⟨acc.byTarget, acc.selfLoopIds ++ [e.1]⟩ := if_pos hl
          rw [hmoved] at hdistinct
          obtain ⟨hloops, hvalues⟩ := ih ⟨acc.byTarget, acc.selfLoopIds ++ [e.1]⟩ hdistinct
            fun e' he' => hnew e' (List.mem_cons_of_mem _ he')
          rw [hstep, hloop, hmoved, hloops, hvalues, List.map_cons, List.append_assoc]
          exact ⟨rfl, rfl⟩
      | false =>
          have hloop : (e :: es).filter (fun e => e.2.loops fromRecord toRecord) =
              es.filter fun e => e.2.loops fromRecord toRecord :=
            List.filter_cons_of_neg (by simp [hl])
          have hmoved : (e :: es).filter (fun e => !e.2.loops fromRecord toRecord) =
              e :: es.filter fun e => !e.2.loops fromRecord toRecord :=
            List.filter_cons_of_pos (by simp [hl])
          have hnone := hnew e List.mem_cons_self hl
          have hstep : aggregateEdge now fromRecord toRecord acc e =
              ⟨acc.byTarget.set (e.2.target fromRecord toRecord)
                (newAgg now fromRecord toRecord e.1 e.2), acc.selfLoopIds⟩ := by
            unfold aggregateEdge
            rw [if_neg (by simp [hl])]
            simp only [hnone]
          rw [hmoved] at hdistinct
          obtain ⟨hfirst, hrest⟩ := List.pairwise_cons.mp hdistinct
          obtain ⟨hloops, hvalues⟩ := ih ⟨acc.byTarget.set (e.2.target fromRecord toRecord)
              (newAgg now fromRecord toRecord e.1 e.2), acc.selfLoopIds⟩ hrest fun e' he' hl' => by
            have hne := hfirst e' (List.mem_filter.mpr ⟨he', by simp [hl']⟩)
            rw [OrdMap.get?_set_ne _ _ hne.symm]
            exact hnew e' (List.mem_cons_of_mem _ he') hl'
          rw [hstep, hloop, hmoved, hloops, hvalues, OrdMap.values,
            OrdMap.entries_set_of_none hnone, List.map_append, List.map_cons, List.append_assoc]
          exact ⟨rfl, rfl⟩

/-- The fragment: the loops away, and then each edge to its target. -/
theorem aggregateEdges_eq (h : table.UniqueOn EntityEdge.key) :
    (aggregateEdges now fromRecord toRecord table).selfLoopIds =
        (loopEdges fromRecord toRecord table).map Prod.fst ∧
      (aggregateEdges now fromRecord toRecord table).byTarget.values =
        (movedEdges fromRecord toRecord table).map fun e =>
          newAgg now fromRecord toRecord e.1 e.2 :=
  foldl_aggregateEdge now fromRecord toRecord _ ⟨OrdMap.empty, []⟩ (pairwise_target h)
    fun _ _ _ => rfl

end

/-! ### The statements performed -/

section
variable (ids : EdgeIds τ)

theorem performAll_append (s s' : List (EdgeStatement τ)) (table : EdgeTable τ) :
    performAll ids (s ++ s') table = (performAll ids s table).bind (performAll ids s') :=
  List.foldlM_append ..

/-- Deleting edges leaves the others. -/
theorem performDeletes (gone : List (String × EntityEdge τ)) (table : EdgeTable τ)
    (h : table.UniqueOn EntityEdge.key) (hm : ∀ e ∈ gone, findEdge table e.2.key = some e)
    (hdistinct : gone.Pairwise fun e e' => e.2.key ≠ e'.2.key) :
    ∃ table', performAll ids ((gone.map Prod.fst).map .delete) table = some table' ∧
      table'.UniqueOn EntityEdge.key ∧ (∀ e ∈ gone, findEdge table' e.2.key = none) ∧
        ∀ key, (∀ e ∈ gone, key ≠ e.2.key) → findEdge table' key = findEdge table key := by
  induction gone generalizing table with
  | nil => exact ⟨table, rfl, h, by simp, fun _ _ => rfl⟩
  | cons e gone ih =>
      obtain ⟨hfirst, hrest⟩ := List.pairwise_cons.mp hdistinct
      have hfound := hm e List.mem_cons_self
      have herase : ∀ key, findEdge (table.erase e.1) key =
          if key = e.2.key then none else findEdge table key :=
        h.findOn_erase (OrdMap.mem_of_findOn hfound).1
      obtain ⟨table', hall, hunique, hgone, hkept⟩ := ih (table.erase e.1) (h.erase e.1)
        (fun e' he' => by
          rw [herase, if_neg (hfirst e' he').symm]
          exact hm e' (List.mem_cons_of_mem _ he'))
        hrest
      refine ⟨table', hall, hunique, ?_, fun key hno => ?_⟩
      · refine List.forall_mem_cons.mpr ⟨?_, hgone⟩
        rw [hkept _ hfirst, herase, if_pos rfl]
      · obtain ⟨hk, hks⟩ := List.forall_mem_cons.mp hno
        rw [hkept key hks, herase, if_neg hk]

end

section
variable [LinearOrder τ] (ids : EdgeIds τ) (now : τ) (fromRecord toRecord : String)

/-- What stands where an edge went, with what stood there. -/
def landed (e : EntityEdge τ) : Option (EntityEdge τ) → EntityEdge τ
  | none => (newAgg now fromRecord toRecord "" e).edge
  | some existing =>
      { existing with
        lastSeenAt := some (laterSeen (e.lastSeenAt.getD now) existing.lastSeenAt)
        confidence := some (max (e.confidence.getD (1 / 2)) (existing.confidence.getD 0))
        weight := some (e.weight.getD 1 + existing.weight.getD 1)
        contextText := existing.contextText.or e.contextText
        updatedAt := some now }

/-- The edge of a target is written where the target is, and nowhere else. -/
theorem perform_edgeStatement (h : table.UniqueOn EntityEdge.key) (id : String) (e : EntityEdge τ) :
    ∃ table', (edgeStatement now (newAgg now fromRecord toRecord id e)
          (findEdge table (e.target fromRecord toRecord))).perform ids table = some table' ∧
      table'.UniqueOn EntityEdge.key ∧
        ∃ id', ∀ key, findEdge table' key =
          if key = e.target fromRecord toRecord then
            some (id', landed now fromRecord toRecord e
              ((findEdge table (e.target fromRecord toRecord)).map Prod.snd))
          else findEdge table key := by
  cases hfind : findEdge table (e.target fromRecord toRecord) with
  | none =>
      -- no edge is refused here, and none has the new id
      have hfree : ∀ e' ∈ table.entries,
          e'.2.key = (landed now fromRecord toRecord e none).key → e'.1 = ids.pick table :=
        fun e' he' hkey => absurd hkey (OrdMap.findOn_eq_none.mp hfind e' he')
      have hkept : ∀ old, table.get? (ids.pick table) = some old →
          old.key = (landed now fromRecord toRecord e none).key := fun old hold => by
        rw [ids.unused] at hold
        cases hold
      refine ⟨_, ?_, h.set hfree, ids.pick table, fun key => h.findOn_set hfree hkept key⟩
      have hno : ¬ (findEdge table (newAgg now fromRecord toRecord id e).edge.key).isSome = true := by
        rw [show (newAgg now fromRecord toRecord id e).edge.key = e.target fromRecord toRecord from rfl,
          hfind]
        exact Bool.false_ne_true
      exact if_neg hno
  | some found =>
      obtain ⟨existingId, existing⟩ := found
      obtain ⟨hm, hkey⟩ := OrdMap.mem_of_findOn hfind
      have hget : table.get? existingId = some existing := OrdMap.get?_eq_some.mpr hm
      have hfree : ∀ e' ∈ table.entries,
          e'.2.key = (landed now fromRecord toRecord e (some existing)).key → e'.1 = existingId :=
        fun e' he' hkey' => congrArg Prod.fst (h e' he' _ hm hkey')
      have hkept : ∀ old, table.get? existingId = some old →
          old.key = (landed now fromRecord toRecord e (some existing)).key := fun old hold => by
        rw [Option.some.inj (hold.symm.trans hget)]
        rfl
      refine ⟨table.set existingId (landed now fromRecord toRecord e (some existing)), ?_,
        h.set hfree, existingId, fun key => ?_⟩
      · simp only [edgeStatement, EdgeStatement.perform, hget]
        rfl
      · rw [← hkey]
        exact h.findOn_set hfree hkept key

variable {fromRecord toRecord}

/-- **One edge moved**: it is gone, and where it went it is folded with what stood there. -/
theorem perform_move {table₀ table : EdgeTable τ} (hne : fromRecord ≠ toRecord)
    (h : table.UniqueOn EntityEdge.key) {id : String} {e : EntityEdge τ}
    (hm : findEdge table e.key = some (id, e)) (ht : EdgeKey.touches e.key fromRecord)
    (hsame : findEdge table (e.target fromRecord toRecord) =
      findEdge table₀ (e.target fromRecord toRecord)) :
    ∃ table', performAll ids (edgeStatements now table₀ (newAgg now fromRecord toRecord id e)) table =
        some table' ∧ table'.UniqueOn EntityEdge.key ∧
      ∃ id', ∀ key, findEdge table' key =
        if key = e.key then none
        else if key = e.target fromRecord toRecord then
          some (id', landed now fromRecord toRecord e
            ((findEdge table₀ (e.target fromRecord toRecord)).map Prod.snd))
        else findEdge table key := by
  obtain ⟨table₁, hperform, hunique, id', hfind⟩ :=
    perform_edgeStatement ids now fromRecord toRecord h id e
  rw [hsame] at hperform hfind
  have hapart : e.key ≠ e.target fromRecord toRecord :=
    fun heq => not_touches_target hne e (heq ▸ ht)
  have hstays : findEdge table₁ e.key = some (id, e) := by
    rw [hfind, if_neg hapart, hm]
  refine ⟨table₁.erase id, ?_, hunique.erase id, id', fun key => ?_⟩
  · unfold performAll edgeStatements
    rw [List.foldlM_cons]
    have hkey : ((newAgg now fromRecord toRecord id e).newInStr,
        (newAgg now fromRecord toRecord id e).newOutStr,
        (newAgg now fromRecord toRecord id e).kind) = e.target fromRecord toRecord := rfl
    rw [hkey, hperform]
    rfl
  · have herase := hunique.findOn_erase (OrdMap.mem_of_findOn hstays).1 key
    unfold findEdge at hfind ⊢
    rw [herase, hfind]

/-! ### The run -/

/-- What the moves of a list of edges leave under each key. -/
structure EdgeMoves (table₀ table table' : EdgeTable τ) (fromRecord toRecord : String)
    (moved : List (String × EntityEdge τ)) : Prop where
  unique : table'.UniqueOn EntityEdge.key
  gone : ∀ e ∈ moved, findEdge table' e.2.key = none
  landed : ∀ e ∈ moved, ∃ id', findEdge table' (e.2.target fromRecord toRecord) =
    some (id', landed now fromRecord toRecord e.2
      ((findEdge table₀ (e.2.target fromRecord toRecord)).map Prod.snd))
  kept : ∀ key, (∀ e ∈ moved, key ≠ e.2.key) →
    (∀ e ∈ moved, key ≠ e.2.target fromRecord toRecord) → findEdge table' key = findEdge table key

theorem performMoves (table₀ : EdgeTable τ) (hne : fromRecord ≠ toRecord)
    (moved : List (String × EntityEdge τ)) (table : EdgeTable τ)
    (h : table.UniqueOn EntityEdge.key)
    (hm : ∀ e ∈ moved, findEdge table e.2.key = some e ∧ EdgeKey.touches e.2.key fromRecord)
    (hsame : ∀ e ∈ moved, findEdge table (e.2.target fromRecord toRecord) =
      findEdge table₀ (e.2.target fromRecord toRecord))
    (hdistinct : moved.Pairwise fun e e' =>
      e.2.target fromRecord toRecord ≠ e'.2.target fromRecord toRecord) :
    ∃ table', performAll ids ((moved.map fun e =>
        newAgg now fromRecord toRecord e.1 e.2).flatMap (edgeStatements now table₀)) table =
        some table' ∧ EdgeMoves now table₀ table table' fromRecord toRecord moved := by
  induction moved generalizing table with
  | nil => exact ⟨table, rfl, h, by simp, by simp, fun _ _ _ => rfl⟩
  | cons e moved ih =>
      obtain ⟨hfirst, hrest⟩ := List.pairwise_cons.mp hdistinct
      obtain ⟨hfound, htouches⟩ := hm e List.mem_cons_self
      obtain ⟨table₁, hperform, hunique, id', hfind⟩ :=
        perform_move ids now hne h hfound htouches (hsame e List.mem_cons_self)
      have hkeys : ∀ e' ∈ moved, e'.2.key ≠ e.2.key := fun e' he' heq =>
        hfirst e' he' (target_of_key_eq heq.symm)
      have hcross : ∀ e₁ e₂ : String × EntityEdge τ, EdgeKey.touches e₁.2.key fromRecord →
          e₁.2.key ≠ e₂.2.target fromRecord toRecord := fun e₁ e₂ ht heq =>
        not_touches_target hne e₂.2 (heq ▸ ht)
      obtain ⟨table', hall, hunique', hgone, hlanded, hkept⟩ := ih table₁ hunique
        (fun e' he' => by
          obtain ⟨hfound', ht'⟩ := hm e' (List.mem_cons_of_mem _ he')
          rw [hfind, if_neg (hkeys e' he'), if_neg (hcross e' e ht')]
          exact ⟨hfound', ht'⟩)
        (fun e' he' => by
          rw [hfind, if_neg (hcross e e' htouches).symm, if_neg (hfirst e' he').symm]
          exact hsame e' (List.mem_cons_of_mem _ he'))
        hrest
      refine ⟨table', ?_, hunique', ?_, ?_, ?_⟩
      · rw [List.map_cons, List.flatMap_cons, performAll_append, hperform]
        exact hall
      · refine List.forall_mem_cons.mpr ⟨?_, hgone⟩
        rw [hkept _ (fun e' he' => (hkeys e' he').symm) fun e' _ => hcross e e' htouches, hfind,
          if_pos rfl]
      · refine List.forall_mem_cons.mpr ⟨⟨id', ?_⟩, hlanded⟩
        rw [hkept _ (fun e' he' => (hcross e' e (hm e' (List.mem_cons_of_mem _ he')).2).symm)
          hfirst, hfind, if_neg (hcross e e htouches).symm, if_pos rfl]
      · intro key hno hno'
        obtain ⟨hk, hks⟩ := List.forall_mem_cons.mp hno
        obtain ⟨ht, hts⟩ := List.forall_mem_cons.mp hno'
        rw [hkept key hks hts, hfind, if_neg hk, if_neg ht]

/-- What the fragment leaves under each key. -/
structure Reassigned (fromRecord toRecord : String) (table table' : EdgeTable τ) : Prop where
  unique : table'.UniqueOn EntityEdge.key
  gone : ∀ key, EdgeKey.touches key fromRecord → findEdge table' key = none
  landed : ∀ e ∈ movedEdges fromRecord toRecord table, ∃ id',
    findEdge table' (e.2.target fromRecord toRecord) =
      some (id', landed now fromRecord toRecord e.2
        ((findEdge table (e.2.target fromRecord toRecord)).map Prod.snd))
  kept : ∀ key, ¬ EdgeKey.touches key fromRecord →
    (∀ e ∈ movedEdges fromRecord toRecord table, key ≠ e.2.target fromRecord toRecord) →
    findEdge table' key = findEdge table key

/-- **The fragment performed**, by what is found under each key. -/
theorem performAll_reassigned (h : table.UniqueOn EntityEdge.key)
    {fromEntityId toEntityId : String} (hids : fromEntityId ≠ toEntityId)
    (hne : entityRecord fromEntityId ≠ entityRecord toEntityId) :
    ∃ table', performAll ids (composeEdgeReassignment now table fromEntityId toEntityId) table =
        some table' ∧
      Reassigned now (entityRecord fromEntityId) (entityRecord toEntityId) table table' := by
  generalize hF : entityRecord fromEntityId = fromRecord at hne ⊢
  generalize hT : entityRecord toEntityId = toRecord at hne ⊢
  have hfind : ∀ e ∈ table.entries, findEdge table e.2.key = some e := fun e he =>
    h.findOn_eq_some.mpr ⟨he, rfl⟩
  obtain ⟨table₁, hdelete, hunique₁, hgone₁, hkept₁⟩ :=
    performDeletes ids (loopEdges fromRecord toRecord table) table h
      (fun e he => hfind e (mem_loopEdges.mp he).1)
      (((table.entries_nodup.filter _).filter _).pairwise_of_forall_ne fun e he e' he' hne' heq =>
        hne' (h e (mem_loopEdges.mp he).1 e' (mem_loopEdges.mp he').1 heq))
  -- a moved edge is no loop, and its target does not touch the record
  have hmoved : ∀ e ∈ movedEdges fromRecord toRecord table,
      ∀ e' ∈ loopEdges fromRecord toRecord table, e.2.key ≠ e'.2.key := fun e he e' he' heq => by
    obtain ⟨hm, -, hl⟩ := mem_movedEdges.mp he
    obtain ⟨hm', -, hl'⟩ := mem_loopEdges.mp he'
    rw [h e hm e' hm' heq, hl'] at hl
    cases hl
  have hfree : ∀ key, ¬ EdgeKey.touches key fromRecord →
      findEdge table₁ key = findEdge table key := fun key hno =>
    hkept₁ key fun e he heq => hno (heq ▸ (mem_loopEdges.mp he).2.1)
  obtain ⟨table', hmove, hunique', hgone, hlanded, hkept⟩ :=
    performMoves ids now table hne (movedEdges fromRecord toRecord table) table₁
      hunique₁
      (fun e he => by
        obtain ⟨hm, ht, -⟩ := mem_movedEdges.mp he
        rw [hkept₁ e.2.key (hmoved e he)]
        exact ⟨hfind e hm, ht⟩)
      (fun e _ => hfree _ (not_touches_target hne e.2)) (pairwise_target h)
  refine ⟨table', ?_, hunique', fun key ht => ?_, hlanded, fun key hno htarget => ?_⟩
  · have hagg := aggregateEdges_eq now fromRecord toRecord h
    unfold composeEdgeReassignment
    rw [if_neg hids, hF, hT]
    dsimp only
    rw [hagg.1, hagg.2, performAll_append, hdelete]
    exact hmove
  · have hcross : ∀ e ∈ movedEdges fromRecord toRecord table,
        key ≠ e.2.target fromRecord toRecord := fun e _ heq =>
      not_touches_target hne e.2 (heq ▸ ht)
    by_cases hm : ∃ e ∈ movedEdges fromRecord toRecord table, key = e.2.key
    · obtain ⟨e, he, rfl⟩ := hm
      exact hgone e he
    · rw [hkept key (fun e he heq => hm ⟨e, he, heq⟩) hcross]
      by_cases hl : ∃ e ∈ loopEdges fromRecord toRecord table, key = e.2.key
      · obtain ⟨e, he, rfl⟩ := hl
        exact hgone₁ e he
      · rw [hkept₁ key fun e he heq => hl ⟨e, he, heq⟩]
        refine OrdMap.findOn_eq_none.mpr fun e he heq => ?_
        cases hloops : e.2.loops fromRecord toRecord with
        | true => exact hl ⟨e, mem_loopEdges.mpr ⟨he, heq ▸ ht, hloops⟩, heq.symm⟩
        | false => exact hm ⟨e, mem_movedEdges.mpr ⟨he, heq ▸ ht, hloops⟩, heq.symm⟩
  · rw [hkept key (fun e he heq => hno (heq ▸ (mem_movedEdges.mp he).2.1)) htarget, hfree key hno]

end

/-! ### The quotient -/

section
variable (fromRecord toRecord : String)

/-- The edges folded into the one with this key: those the move gives the key, without the edges of
the record that become loops. -/
def folded (table : EdgeTable τ) (key : EdgeKey) : List (String × EntityEdge τ) :=
  table.entries.filter fun e =>
    !(e.2.touches fromRecord && e.2.loops fromRecord toRecord) &&
      decide (e.2.target fromRecord toRecord = key)

variable {fromRecord toRecord} {key : EdgeKey}

theorem mem_folded :
    e ∈ folded fromRecord toRecord table key ↔ e ∈ table.entries ∧
      (EdgeKey.touches e.2.key fromRecord → e.2.loops fromRecord toRecord = false) ∧
        e.2.target fromRecord toRecord = key := by
  rw [folded, List.mem_filter, Bool.and_eq_true, decide_eq_true_eq, ← touches_iff]
  cases e.2.touches fromRecord <;> simp

theorem nodup_folded (table : EdgeTable τ) (key : EdgeKey) :
    (folded fromRecord toRecord table key).Nodup := table.entries_nodup.filter _

/-- An edge that does not touch the record is folded where it stands. -/
theorem mem_folded_of_not_touches (h : table.UniqueOn EntityEdge.key)
    (hno : ¬ EdgeKey.touches e.2.key fromRecord) :
    e ∈ folded fromRecord toRecord table key ↔ findEdge table key = some e := by
  rw [mem_folded, target_eq_key hno]
  refine Iff.trans ?_ h.findOn_eq_some.symm
  exact ⟨fun ⟨hm, _, hk⟩ => ⟨hm, hk⟩, fun ⟨hm, hk⟩ => ⟨hm, fun ht => absurd ht hno, hk⟩⟩

/-- Nothing is folded into an edge that touches the record. -/
theorem folded_of_touches (hne : fromRecord ≠ toRecord)
    (ht : EdgeKey.touches key fromRecord) : folded fromRecord toRecord table key = [] := by
  refine List.eq_nil_iff_forall_not_mem.mpr fun e he => ?_
  exact not_touches_target hne e.2 ((mem_folded.mp he).2.2 ▸ ht)

/-- A moved edge is folded with what stood where it went. -/
theorem folded_target (hne : fromRecord ≠ toRecord) (h : table.UniqueOn EntityEdge.key)
    (he : e ∈ movedEdges fromRecord toRecord table) :
    folded fromRecord toRecord table (e.2.target fromRecord toRecord) ~
      e :: (findEdge table (e.2.target fromRecord toRecord)).toList := by
  obtain ⟨hm, ht, hl⟩ := mem_movedEdges.mp he
  have hapart : findEdge table (e.2.target fromRecord toRecord) ≠ some e := fun hfind =>
    not_touches_target hne e.2 ((OrdMap.mem_of_findOn hfind).2 ▸ ht)
  have hnodup : (e :: (findEdge table (e.2.target fromRecord toRecord)).toList).Nodup := by
    refine List.nodup_cons.mpr ⟨fun hm' => hapart (Option.mem_toList.mp hm'), ?_⟩
    cases findEdge table (e.2.target fromRecord toRecord) <;> simp
  refine (List.perm_ext_iff_of_nodup (nodup_folded table _) hnodup).mpr fun e' => ?_
  rw [List.mem_cons, Option.mem_toList]
  by_cases ht' : EdgeKey.touches e'.2.key fromRecord
  · rw [mem_folded]
    constructor
    · rintro ⟨hm', hl', htarget⟩
      exact Or.inl (h e' hm' e hm (target_injective ht' ht (hl' ht') hl htarget))
    · rintro (rfl | hfind)
      · exact ⟨hm, fun _ => hl, rfl⟩
      · exact absurd ((OrdMap.mem_of_findOn hfind).2 ▸ ht') (not_touches_target hne e.2)
  · rw [mem_folded_of_not_touches h ht']
    refine ⟨Or.inr, ?_⟩
    rintro (rfl | hfind)
    · exact absurd ht ht'
    · exact hfind

/-- An edge no other goes to is folded alone. -/
theorem folded_of_kept (h : table.UniqueOn EntityEdge.key) (hno : ¬ EdgeKey.touches key fromRecord)
    (hfree : ∀ e ∈ movedEdges fromRecord toRecord table, key ≠ e.2.target fromRecord toRecord) :
    folded fromRecord toRecord table key ~ (findEdge table key).toList := by
  have hnodup : (findEdge table key).toList.Nodup := by
    cases findEdge table key <;> simp
  refine (List.perm_ext_iff_of_nodup (nodup_folded table key) hnodup).mpr fun e => ?_
  rw [Option.mem_toList]
  by_cases ht : EdgeKey.touches e.2.key fromRecord
  · constructor
    · intro he
      obtain ⟨hm, hl, htarget⟩ := mem_folded.mp he
      exact absurd htarget.symm (hfree e (mem_movedEdges.mpr ⟨hm, ht, hl ht⟩))
    · intro hfind
      exact absurd ((OrdMap.mem_of_findOn hfind).2 ▸ ht) hno
  · exact mem_folded_of_not_touches h ht

end

section
variable [LinearOrder τ] (now : τ) (fromRecord toRecord : String)

/-- What an edge counts for without a confidence: an edge of the record for `0.5`. -/
def countedConfidence (edge : EntityEdge τ) : ℚ :=
  edge.confidence.getD (if edge.touches fromRecord then 1 / 2 else 0)

/-- An edge of the record that was never seen is seen now. -/
def countedSeen (edge : EntityEdge τ) : WithBot τ :=
  if edge.touches fromRecord then ((edge.lastSeenAt.getD now : τ) : WithBot τ) else edge.lastSeenAt

def lastSeen (edge : EntityEdge τ) : WithBot τ := edge.lastSeenAt

/-- `table'` is the quotient of `table` by the move of the one record to the other. -/
structure EdgeQuotient (table table' : EdgeTable τ) : Prop where
  unique : table'.UniqueOn EntityEdge.key
  keys : ∀ key, (∃ e ∈ table'.entries, e.2.key = key) ↔ folded fromRecord toRecord table key ≠ []
  confidence : ∀ e ∈ table'.entries,
    IsGreatest {c | ∃ e' ∈ folded fromRecord toRecord table e.2.key,
      countedConfidence fromRecord e'.2 = c} (e.2.confidence.getD 0)
  weight : ∀ e ∈ table'.entries, e.2.weight.getD 1 =
    ((folded fromRecord toRecord table e.2.key).map fun e' => e'.2.weight.getD 1).sum
  lastSeenAt : ∀ e ∈ table'.entries,
    IsGreatest {t | ∃ e' ∈ folded fromRecord toRecord table e.2.key,
      countedSeen now fromRecord e'.2 = t} (lastSeen e.2)
  detached : ∀ e ∈ table'.entries, e.2.touches fromRecord = false
  unchanged : ∀ e ∈ table.entries, e.2.touches fromRecord = false →
    e.2.touches toRecord = false → e ∈ table'.entries

variable {fromRecord toRecord}

/-- The values of the elements of a list, greatest of one or of two. -/
theorem isGreatest_of_perm {α β : Type*} [LinearOrder β] {l : List α} {a : α} {o : Option α}
    (h : l ~ a :: o.toList) (f : α → β) :
    IsGreatest {b | ∃ x ∈ l, f x = b} ((o.map f).elim (f a) (max (f a))) := by
  have hmem : ∀ x, x ∈ l ↔ x = a ∨ o = some x := fun x => by
    rw [h.mem_iff, List.mem_cons, Option.mem_toList]
  constructor
  · cases o with
    | none => exact ⟨a, (hmem a).mpr (Or.inl rfl), rfl⟩
    | some x =>
        rcases le_total (f x) (f a) with hle | hle
        · exact ⟨a, (hmem a).mpr (Or.inl rfl), (max_eq_left hle).symm⟩
        · exact ⟨x, (hmem x).mpr (Or.inr rfl), (max_eq_right hle).symm⟩
  · rintro b ⟨x, hx, rfl⟩
    rcases (hmem x).mp hx with rfl | rfl
    · cases o with
      | none => exact le_rfl
      | some y => exact le_max_left _ _
    · exact le_max_right _ _

theorem coe_laterSeen (t : τ) (seen : Option τ) :
    ((laterSeen t seen : τ) : WithBot τ) = max (t : WithBot τ) seen := by
  cases seen with
  | none => exact (max_eq_left bot_le).symm
  | some s =>
      unfold laterSeen
      change ((if s < t then t else s : τ) : WithBot τ) = max (t : WithBot τ) (s : WithBot τ)
      split
      · rename_i h
        exact (max_eq_left (WithBot.coe_le_coe.mpr h.le)).symm
      · rename_i h
        exact (max_eq_right (WithBot.coe_le_coe.mpr (not_lt.mp h))).symm

/-- A moved edge and what it is folded with: the greatest confidence, the sum of the weights and the
latest date. -/
theorem landed_folds (toRecord : String) {l : List (String × EntityEdge τ)}
    {o : Option (String × EntityEdge τ)} (h : l ~ e :: o.toList)
    (ht : e.2.touches fromRecord = true) (ho : ∀ x, o = some x → x.2.touches fromRecord = false) :
    let edge := landed now fromRecord toRecord e.2 (o.map Prod.snd)
    IsGreatest {c | ∃ x ∈ l, countedConfidence fromRecord x.2 = c} (edge.confidence.getD 0) ∧
      edge.weight.getD 1 = (l.map fun x => x.2.weight.getD 1).sum ∧
      IsGreatest {t | ∃ x ∈ l, countedSeen now fromRecord x.2 = t} (lastSeen edge) := by
  have hconf := isGreatest_of_perm h fun x => countedConfidence fromRecord x.2
  have hseen := isGreatest_of_perm h fun x => countedSeen now fromRecord x.2
  have hsum : (l.map fun x => x.2.weight.getD 1).sum =
      ((e :: o.toList).map fun x => x.2.weight.getD 1).sum := (h.map _).sum_eq
  have hc : countedConfidence fromRecord e.2 = e.2.confidence.getD (1 / 2) := by
    rw [countedConfidence, if_pos ht]
  have hs : countedSeen now fromRecord e.2 = ((e.2.lastSeenAt.getD now : τ) : WithBot τ) :=
    if_pos ht
  cases o with
  | none =>
      refine ⟨?_, ?_, ?_⟩
      · rw [Option.map_none, Option.elim_none, hc] at hconf
        exact hconf
      · rw [hsum]
        simp [landed, newAgg, TargetAgg.edge]
      · rw [Option.map_none, Option.elim_none, hs] at hseen
        exact hseen
  | some x =>
      have hno := ho x rfl
      refine ⟨?_, ?_, ?_⟩
      · have hx : countedConfidence fromRecord x.2 = x.2.confidence.getD 0 := by
          rw [countedConfidence, if_neg (by rw [hno]; exact Bool.false_ne_true)]
        rw [Option.map_some, Option.elim_some, hc, hx] at hconf
        exact hconf
      · rw [hsum]
        simp [landed]
      · have hx : countedSeen now fromRecord x.2 = (x.2.lastSeenAt : WithBot τ) :=
          if_neg (by rw [hno]; exact Bool.false_ne_true)
        rw [Option.map_some, Option.elim_some, hs, hx, ← coe_laterSeen] at hseen
        exact hseen

/-- An edge folded alone is as it was. -/
theorem kept_folds {l : List (String × EntityEdge τ)}
    (h : l ~ [e]) (ht : e.2.touches fromRecord = false) :
    IsGreatest {c | ∃ x ∈ l, countedConfidence fromRecord x.2 = c} (e.2.confidence.getD 0) ∧
      e.2.weight.getD 1 = (l.map fun x => x.2.weight.getD 1).sum ∧
      IsGreatest {t | ∃ x ∈ l, countedSeen now fromRecord x.2 = t} (lastSeen e.2) := by
  have hconf := isGreatest_of_perm (o := none) h fun x => countedConfidence fromRecord x.2
  have hseen := isGreatest_of_perm (o := none) h fun x => countedSeen now fromRecord x.2
  have hc : countedConfidence fromRecord e.2 = e.2.confidence.getD 0 := by
    rw [countedConfidence, if_neg (by rw [ht]; exact Bool.false_ne_true)]
  have hs : countedSeen now fromRecord e.2 = lastSeen e.2 :=
    if_neg (by rw [ht]; exact Bool.false_ne_true)
  rw [Option.map_none, Option.elim_none, hc] at hconf
  rw [Option.map_none, Option.elim_none, hs] at hseen
  refine ⟨hconf, ?_, hseen⟩
  rw [(h.map _).sum_eq]
  simp

namespace Reassigned
variable {now} {table table' : EdgeTable τ} (hr : Reassigned now fromRecord toRecord table table')
include hr

theorem detached (he : e ∈ table'.entries) :
    ¬ EdgeKey.touches e.2.key fromRecord := fun ht =>
  OrdMap.findOn_eq_none.mp (hr.gone _ ht) e he rfl

theorem findEdge_eq (he : e ∈ table'.entries) :
    findEdge table' e.2.key = some e :=
  hr.unique.findOn_eq_some.mpr ⟨he, rfl⟩

/-- Each edge has the greatest confidence, the sum of the weights and the latest date of what is
folded into it. -/
theorem folds (hne : fromRecord ≠ toRecord) (h : table.UniqueOn EntityEdge.key)
    (he : e ∈ table'.entries) :
    IsGreatest {c | ∃ x ∈ folded fromRecord toRecord table e.2.key,
        countedConfidence fromRecord x.2 = c} (e.2.confidence.getD 0) ∧
      e.2.weight.getD 1 =
        ((folded fromRecord toRecord table e.2.key).map fun x => x.2.weight.getD 1).sum ∧
      IsGreatest {t | ∃ x ∈ folded fromRecord toRecord table e.2.key,
        countedSeen now fromRecord x.2 = t} (lastSeen e.2) := by
  have hno := hr.detached he
  by_cases hm : ∃ e₀ ∈ movedEdges fromRecord toRecord table,
      e.2.key = e₀.2.target fromRecord toRecord
  · obtain ⟨e₀, he₀, hkey⟩ := hm
    obtain ⟨id', hland⟩ := hr.landed e₀ he₀
    rw [← hkey, hr.findEdge_eq he] at hland
    have hedge : e.2 = Runir.landed now fromRecord toRecord e₀.2
        ((findEdge table e.2.key).map Prod.snd) := congrArg Prod.snd (Option.some.inj hland)
    have hfolded := folded_target hne h he₀
    rw [← hkey] at hfolded
    have hlands := landed_folds now toRecord hfolded
      (touches_iff.mpr (mem_movedEdges.mp he₀).2.1) fun x hx =>
        touches_eq_false ((OrdMap.mem_of_findOn hx).2 ▸ hno)
    dsimp only at hlands
    rw [← hedge] at hlands
    exact hlands
  · have hfree : ∀ e₀ ∈ movedEdges fromRecord toRecord table,
        e.2.key ≠ e₀.2.target fromRecord toRecord := fun e₀ he₀ hkey => hm ⟨e₀, he₀, hkey⟩
    have hfolded := folded_of_kept h hno hfree
    rw [← hr.kept _ hno hfree, hr.findEdge_eq he] at hfolded
    exact kept_folds now hfolded (touches_eq_false hno)

/-- There is an edge where something is folded. -/
theorem findEdge_eq_none_iff (hne : fromRecord ≠ toRecord) (h : table.UniqueOn EntityEdge.key)
    (key : EdgeKey) :
    findEdge table' key = none ↔ folded fromRecord toRecord table key = [] := by
  by_cases ht : EdgeKey.touches key fromRecord
  · rw [folded_of_touches hne ht, hr.gone key ht, eq_self_iff_true, eq_self_iff_true]
  · by_cases hm : ∃ e₀ ∈ movedEdges fromRecord toRecord table,
        key = e₀.2.target fromRecord toRecord
    · obtain ⟨e₀, he₀, rfl⟩ := hm
      obtain ⟨id', hland⟩ := hr.landed e₀ he₀
      have hfolded := folded_target hne h he₀
      rw [hland]
      constructor
      · intro hnone
        cases hnone
      · intro hnil
        rw [hnil] at hfolded
        exact absurd hfolded.symm.eq_nil (List.cons_ne_nil _ _)
    · have hfree : ∀ e₀ ∈ movedEdges fromRecord toRecord table,
          key ≠ e₀.2.target fromRecord toRecord := fun e₀ he₀ hkey => hm ⟨e₀, he₀, hkey⟩
      have hfolded := folded_of_kept h ht hfree
      rw [hr.kept key ht hfree]
      cases hfound : findEdge table key with
      | none =>
          rw [hfound] at hfolded
          exact ⟨fun _ => hfolded.eq_nil, fun _ => rfl⟩
      | some e =>
          rw [hfound] at hfolded
          constructor
          · intro hnone
            cases hnone
          · intro hnil
            rw [hnil] at hfolded
            exact absurd hfolded.symm.eq_nil (List.cons_ne_nil _ _)

/-- An edge that touches neither record stays: every moved edge goes to the other record. -/
theorem unchanged (h : table.UniqueOn EntityEdge.key)
    (he : e ∈ table.entries) (hfrom : ¬ EdgeKey.touches e.2.key fromRecord)
    (hto : ¬ EdgeKey.touches e.2.key toRecord) : e ∈ table'.entries := by
  have hfree : ∀ e₀ ∈ movedEdges fromRecord toRecord table,
      e.2.key ≠ e₀.2.target fromRecord toRecord := fun e₀ he₀ hkey =>
    hto (hkey ▸ touches_target toRecord (mem_movedEdges.mp he₀).2.1)
  have hfound := hr.kept _ hfrom hfree
  rw [show findEdge table e.2.key = some e from h.findOn_eq_some.mpr ⟨he, rfl⟩] at hfound
  exact (OrdMap.mem_of_findOn hfound).1

end Reassigned

end

theorem entityRecord_injective {id id' : String} (h : entityRecord id = entityRecord id') :
    id = id' := by
  have hlist : ("entities:" ++ id).toList = ("entities:" ++ id').toList := congrArg String.toList h
  rw [String.toList_append, String.toList_append] at hlist
  exact String.toList_inj.mp (List.append_cancel_left hlist)

/-- **Edge reassignment is the quotient**: the transaction commits, and the table it leaves is the
image of the one before, with the edges that meet folded into one. -/
theorem performAll_composeEdgeReassignment {τ : Type*} [LinearOrder τ] (ids : EdgeIds τ) (now : τ)
    {table : EdgeTable τ} (h : table.UniqueOn EntityEdge.key) {fromEntityId toEntityId : String}
    (hids : fromEntityId ≠ toEntityId) :
    ∃ table', performAll ids (composeEdgeReassignment now table fromEntityId toEntityId) table =
        some table' ∧
      EdgeQuotient now (entityRecord fromEntityId) (entityRecord toEntityId) table table' := by
  have hne : entityRecord fromEntityId ≠ entityRecord toEntityId := fun heq =>
    hids (entityRecord_injective heq)
  obtain ⟨table', hperform, hr⟩ := performAll_reassigned ids now h hids hne
  refine ⟨table', hperform, ?_⟩
  constructor
  case unique => exact hr.unique
  case keys =>
    intro key
    rw [Ne, ← hr.findEdge_eq_none_iff hne h key, findEdge, OrdMap.findOn_eq_none]
    push Not
    rfl
  case confidence => exact fun e he => (hr.folds hne h he).1
  case weight => exact fun e he => (hr.folds hne h he).2.1
  case lastSeenAt => exact fun e he => (hr.folds hne h he).2.2
  case detached => exact fun e he => touches_eq_false (hr.detached he)
  case unchanged =>
    intro e he hfrom hto
    rw [Bool.eq_false_iff, Ne, touches_iff] at hfrom hto
    exact hr.unchanged h he hfrom hto

/-- Ids longer than those there are. -/
def longerIds (τ : Type*) : EdgeIds τ where
  pick table := String.ofList (List.replicate ((table.keys.map String.length).sum + 1) 'x')
  unused table := by
    refine OrdMap.get?_eq_none.mpr fun hm => ?_
    have hle : String.length _ ≤ (table.keys.map String.length).sum :=
      List.le_sum_of_mem (List.mem_map_of_mem hm)
    rw [String.length_ofList, List.length_replicate] at hle
    omega

/-- An edge of the entity and one there is where it goes. -/
def meetingEdges : EdgeTable Nat :=
  OrdMap.ofList
    [ ("e1", { inStr := "entities:loser", outStr := "entities:node", kind := .relatedTo,
               confidence := some (9 / 10), weight := some 2, lastSeenAt := some 1 }),
      ("e2", { inStr := "entities:winner", outStr := "entities:node", kind := .relatedTo,
               confidence := some (1 / 2), weight := some 1, lastSeenAt := some 3 }),
      ("e3", { inStr := "entities:winner", outStr := "entities:loser", kind := .supports }) ]

theorem meetingEdges_reassigned :
    ∃ table', performAll (longerIds Nat) (composeEdgeReassignment 7 meetingEdges "loser" "winner")
        meetingEdges = some table' ∧
      EdgeQuotient 7 (entityRecord "loser") (entityRecord "winner") meetingEdges table' :=
  performAll_composeEdgeReassignment (longerIds Nat) 7 (by unfold OrdMap.UniqueOn; decide +kernel)
    (by decide)

end Runir
