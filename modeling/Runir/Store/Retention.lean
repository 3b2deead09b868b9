import Runir.Lib.Runs
import Runir.Store.SourceLinks

/-!
# Store — Retention of source turns

Sequences of the calls that store, link, unlink, erase and expire source turns.

* `SourceStore.Names`: a fact that is linked or legacy, or linked evidence, names a turn.
* `SourceStore.FollowsLinks`: a turn that is named is of class `linked`, and one of class `linked`
  that does not expire is named.
* `SourceCall.spares`: a mark writes over no last name of a turn, and an unlinking leaves no legacy
  fact alone with a turn.
* `retention_follows_links_iff`: the runs in which the classes follow the links.
-/

namespace Runir

/-! ### Calls -/

/-- A call, from its beginning to its end. -/
inductive SourceCall where
  | upsert (call : UpsertCall)
  | mark (call : MarkCall)
  | reconcile (turn : IdentifiedTurn) (keyAllowed : Bool)
  | unlink (userId factId nowIso : String)
  | forgetSession (userId sessionId : String)
  | forgetUser (userId : String)
  | expire (cutoff : Int)

namespace SourceCall

def apply (host : Host) (rh : Redaction.RedactionHost) (crypto : Crypto) :
    SourceCall → SourceStore → SourceStore
  | .upsert call, s => (s.upsert host rh call).1
  | .mark call, s => s.markFactSourceLink crypto call
  | .reconcile turn keyAllowed, s => s.reconcileSourceTurnLinks turn.toSourceTurn keyAllowed
  | .unlink userId factId nowIso, s => s.unlinkFactSource host userId factId nowIso
  | .forgetSession userId sessionId, s =>
      let ids := s.turnIdsOf userId (some sessionId)
      if ids.isEmpty then s else s.eraseTurns userId ids
  | .forgetUser userId, s => s.eraseUser userId
  | .expire cutoff, s => s.deleteExpired cutoff

end SourceCall

/-! ### Names -/

/-- The link is one a turn is retained for. -/
def FactLink.holds (f : FactLink) : Bool := f.state = some .linked ∨ f.state = some .legacy

variable {row : TurnRow}

namespace SourceStore

/-- A fact in state `linked` or `legacy`, or linked evidence, of a user names the turn. -/
inductive Names (s : SourceStore) (userId turnId : String) : Prop where
  | fact {id : String} {f : FactLink} (row : s.facts.get? id = some f) (user : f.userId = userId)
      (turn : f.turnId = some turnId) (holds : f.holds = true)
  | evidence {id : String} {e : EvidenceRow} (row : s.evidence.get? id = some e)
      (user : e.userId = userId) (turn : e.turnId = turnId) (linked : e.state = .linked)

def refersTo (userId turnId : String) (s : SourceStore) : Bool :=
  s.linkedTo userId turnId || s.factsIn .legacy userId turnId

variable {s s' : SourceStore} {userId turnId : String}

theorem factsIn_iff {state : SourceLinkState} : s.factsIn state userId turnId = true ↔
    ∃ id f, s.facts.get? id = some f ∧ f.userId = userId ∧ f.turnId = some turnId ∧
      f.state = some state := by
  unfold factsIn
  rw [OrdMap.any_eq_true]
  simp only [decide_eq_true_eq]

theorem linkedTo_iff : s.linkedTo userId turnId = true ↔
    (∃ id f, s.facts.get? id = some f ∧ f.userId = userId ∧ f.turnId = some turnId ∧
      f.state = some .linked) ∨
    ∃ id e, s.evidence.get? id = some e ∧ e.userId = userId ∧ e.turnId = turnId ∧
      e.state = .linked := by
  unfold linkedTo
  rw [Bool.or_eq_true, factsIn_iff, OrdMap.any_eq_true]
  simp only [decide_eq_true_eq]

theorem refersTo_iff : s.refersTo userId turnId = true ↔ s.Names userId turnId := by
  unfold refersTo
  rw [Bool.or_eq_true, linkedTo_iff, factsIn_iff]
  constructor
  · rintro ((⟨id, f, hrow, huser, hturn, hstate⟩ | ⟨id, e, hrow, huser, hturn, hstate⟩) |
      ⟨id, f, hrow, huser, hturn, hstate⟩)
    · exact .fact hrow huser hturn (decide_eq_true (.inl hstate))
    · exact .evidence hrow huser hturn hstate
    · exact .fact hrow huser hturn (decide_eq_true (.inr hstate))
  · rintro (⟨hrow, huser, hturn, hholds⟩ | ⟨hrow, huser, hturn, hstate⟩)
    · rcases of_decide_eq_true hholds with hstate | hstate
      · exact .inl (.inl ⟨_, _, hrow, huser, hturn, hstate⟩)
      · exact .inr ⟨_, _, hrow, huser, hturn, hstate⟩
    · exact .inl (.inr ⟨_, _, hrow, huser, hturn, hstate⟩)

theorem Names.of_linkedTo (h : s.linkedTo userId turnId = true) : s.Names userId turnId :=
  refersTo_iff.mp (by unfold refersTo; rw [h]; rfl)

/-- The tables name no more than others did. -/
def NamesLess (s' s : SourceStore) : Prop := ∀ ⦃userId turnId⦄, s'.Names userId turnId →
  s.Names userId turnId

/-! ### What the classes are to be -/

/-- **The classes follow the links.**  No sweep deletes a turn that is named, and none is kept for
ever that is not. -/
structure FollowsLinks (s : SourceStore) : Prop where
  linked : ∀ userId turnId row, s.tables.turns.get? turnId = some row → s.Names userId turnId →
    row.retentionClass = some "linked"
  spared : ∀ userId turnId row cutoff, s.tables.turns.get? turnId = some row →
    s.Names userId turnId → (s.deleteExpired cutoff).tables.turns.get? turnId = some row
  released : ∀ turnId row, s.tables.turns.get? turnId = some row →
    row.retentionClass = some "linked" → s.retainUntil.get? turnId = none →
      ∃ userId, s.Names userId turnId

/-- What is named is a turn that is there, of the same user, and retained without end. -/
structure Retained (s : SourceStore) : Prop where
  kept : ∀ userId turnId, s.Names userId turnId → turnId ≠ "" ∧
    s.retainUntil.get? turnId = none ∧ ∃ row, s.tables.turns.get? turnId = some row ∧
      row.userId = userId ∧ row.retentionClass = some "linked"
  used : ∀ turnId row, s.tables.turns.get? turnId = some row →
    row.retentionClass = some "linked" → s.retainUntil.get? turnId = none →
      ∃ userId, s.Names userId turnId

/-- A turn is named by its own user only. -/
theorem Retained.user (h : s.Retained)
    (hrow : s.tables.turns.get? turnId = some row) (hnames : s.Names userId turnId) :
    row.userId = userId := by
  obtain ⟨-, -, row', hrow', huser, -⟩ := h.kept _ _ hnames
  obtain rfl := Option.some.inj (hrow.symm.trans hrow')
  exact huser

theorem deleteExpired_turn {cutoff : Int} : (s.deleteExpired cutoff).tables.turns.get? turnId =
    (s.tables.turns.get? turnId).filter fun row => !s.expired cutoff turnId row :=
  OrdMap.get?_filter _ _ _

/-- A turn of class `linked` does not expire. -/
theorem not_expired {cutoff : Int} (h : row.retentionClass = some "linked") :
    s.expired cutoff turnId row = false := by
  unfold expired
  rw [h]
  rfl

theorem Retained.followsLinks (h : s.Retained) : s.FollowsLinks where
  linked userId turnId row hrow hnames := by
    obtain ⟨-, -, row', hrow', -, hclass⟩ := h.kept _ _ hnames
    obtain rfl := Option.some.inj (hrow.symm.trans hrow')
    exact hclass
  spared userId turnId row cutoff hrow hnames := by
    obtain ⟨-, -, row', hrow', -, hclass⟩ := h.kept _ _ hnames
    obtain rfl := Option.some.inj (hrow.symm.trans hrow')
    rw [deleteExpired_turn, hrow, Option.filter_some, not_expired hclass]
    rfl
  released := h.used

/-! ### One call -/

/-- A call that leaves the turns, and a name of every turn that had one. -/
theorem Retained.of_names (h : s.Retained) (hturns : s'.tables.turns = s.tables.turns)
    (huntil : s'.retainUntil = s.retainUntil) (hless : s'.NamesLess s)
    (hnamed : ∀ userId turnId, s.Names userId turnId → ∃ userId, s'.Names userId turnId) :
    s'.Retained where
  kept userId turnId hnames := by
    rw [hturns, huntil]
    exact h.kept userId turnId (hless hnames)
  used turnId row hrow hclass hnone := by
    rw [hturns] at hrow
    rw [huntil] at hnone
    obtain ⟨userId, hnames⟩ := h.used turnId row hrow hclass hnone
    exact hnamed userId turnId hnames

/-- Names are those of the facts and the evidence. -/
theorem Names.of_same (h : s.Names userId turnId) (hfacts : s'.facts = s.facts)
    (hevidence : s'.evidence = s.evidence) : s'.Names userId turnId := by
  cases h with
  | fact hrow huser hturn hholds => exact .fact (hfacts ▸ hrow) huser hturn hholds
  | evidence hrow huser hturn hlinked => exact .evidence (hevidence ▸ hrow) huser hturn hlinked

/-- A turn that is stored anew is of class `unlinked`, and nothing names it. -/
theorem Retained.upsert (h : s.Retained) (host : Host) (rh : Redaction.RedactionHost)
    (call : UpsertCall) : (s.upsert host rh call).1.Retained := by
  unfold SourceStore.upsert
  split
  · rename_i hcreated
    split
    · exact h
    · rcases upsertSourceTurn_cases rh call s.tables.toSourceTables with
        ⟨-, hno⟩ | ⟨hnone, hnew⟩
      · exact absurd hcreated hno
      · have hturns := (createTurn_eq hnew).1
        have hother : ∀ turnId row, s.tables.turns.get? turnId = some row →
            turnId ≠ call.turn.id := by
          rintro _ row hrow rfl
          exact nomatch hnone.symm.trans hrow
        refine ⟨fun userId turnId hnames => ?_, fun turnId row hrow hclass huntil => ?_⟩
        · obtain ⟨hne, huntil, row, hrow, huser, hclass⟩ :=
            h.kept userId turnId (hnames.of_same rfl rfl)
          have hid := hother turnId row hrow
          refine ⟨hne, (OrdMap.get?_set_ne _ _ hid).trans huntil, row, ?_, huser, hclass⟩
          exact (congrArg (OrdMap.get? · turnId) hturns).trans
            ((OrdMap.get?_set_ne _ _ hid).trans hrow)
        · have hrow := (congrArg (OrdMap.get? · turnId) hturns).symm.trans hrow
          by_cases hid : turnId = call.turn.id
          · subst hid
            rw [OrdMap.get?_set_self] at hrow
            obtain rfl := Option.some.inj hrow
            exact absurd (Option.some.inj hclass) (by decide)
          · have huntil := (OrdMap.get?_set_ne _ _ hid).symm.trans huntil
            obtain ⟨userId, hnames⟩ := h.used turnId row
              ((OrdMap.get?_set_ne _ _ hid).symm.trans hrow) hclass huntil
            exact ⟨userId, hnames.of_same rfl rfl⟩
  · exact h

/-- Only turns of class `unlinked` expire. -/
theorem Retained.deleteExpired (h : s.Retained) (cutoff : Int) : (s.deleteExpired cutoff).Retained := by
  have huntil : ∀ turnId row, s.tables.turns.get? turnId = some row →
      row.retentionClass = some "linked" →
        (s.deleteExpired cutoff).retainUntil.get? turnId = s.retainUntil.get? turnId := by
    intro turnId row hrow hclass
    refine (OrdMap.get?_filter _ _ _).trans ?_
    rw [hrow, Option.any_some, not_expired hclass]
    cases s.retainUntil.get? turnId <;> rfl
  refine ⟨fun userId turnId hnames => ?_, fun turnId row hrow hclass hnone => ?_⟩
  · obtain ⟨hne, hnone, row, hrow, huser, hclass⟩ :=
      h.kept userId turnId (hnames.of_same rfl rfl)
    refine ⟨hne, (huntil turnId row hrow hclass).trans hnone, row, ?_, huser, hclass⟩
    rw [deleteExpired_turn, hrow, Option.filter_some, not_expired hclass]
    rfl
  · rw [deleteExpired_turn, Option.filter_eq_some_iff] at hrow
    obtain ⟨userId, hnames⟩ := h.used turnId row hrow.1 hclass
      ((huntil turnId row hrow.1 hclass).symm.trans hnone)
    exact ⟨userId, hnames.of_same rfl rfl⟩

theorem setRetention_turn {id : String} {p : TurnRow → Bool} {retentionClass : String}
    {ms : Option Int} : (s.setRetention id p retentionClass ms).tables.turns.get? turnId =
      (s.tables.turns.get? turnId).map fun row =>
        if turnId = id ∧ p row then { row with retentionClass := some retentionClass } else row :=
  OrdMap.get?_mapEntries _ _ _

/-! ### Reconciling -/

/-- A fact that is linked or legacy stays so. -/
theorem Names.linkPending (h : s.Names userId turnId) (turn : SourceTurn) :
    (s.linkPending turn).Names userId turnId := by
  cases h with
  | @fact id f hrow huser hturn hholds =>
      refine @Names.fact _ _ _ id f ?_ huser hturn hholds
      refine (OrdMap.get?_mapEntries _ _ _).trans ?_
      rw [hrow, Option.map_some, if_neg]
      rintro ⟨-, -, -, hpending, -⟩
      unfold FactLink.holds at hholds
      rw [hpending] at hholds
      exact nomatch hholds
  | @evidence id e hrow huser hturn hlinked =>
      refine @Names.evidence _ _ _ id e ?_ huser hturn hlinked
      refine (OrdMap.get?_mapEntries _ _ _).trans ?_
      rw [hrow, Option.map_some, if_neg]
      rintro ⟨-, -, -, -, -, hpending⟩
      rw [hlinked] at hpending
      exact nomatch hpending

/-- What is named then is named before, or is the turn that is reconciled. -/
theorem names_of_linkPending {turn : SourceTurn} (h : (s.linkPending turn).Names userId turnId) :
    s.Names userId turnId ∨ (userId = turn.userId ∧ turnId = turn.id) ∧
      (s.linkPending turn).linkedTo userId turnId = true := by
  cases h with
  | @fact id f hrow huser hturn hholds =>
      obtain ⟨old, hold, hf⟩ := Option.map_eq_some_iff.mp
        ((OrdMap.get?_mapEntries _ _ _).symm.trans hrow)
      split at hf
      · rename_i hmatch
        subst hf
        exact .inr ⟨⟨huser.symm.trans hmatch.1,
          Option.some.inj (hturn.symm.trans hmatch.2.1)⟩,
          linkedTo_iff.mpr (.inl ⟨id, _, hrow, huser, hturn, rfl⟩)⟩
      · subst hf
        exact .inl (.fact hold huser hturn hholds)
  | @evidence id e hrow huser hturn hlinked =>
      obtain ⟨old, hold, he⟩ := Option.map_eq_some_iff.mp
        ((OrdMap.get?_mapEntries _ _ _).symm.trans hrow)
      split at he
      · rename_i hmatch
        subst he
        exact .inr ⟨⟨huser.symm.trans hmatch.1, hturn.symm.trans hmatch.2.1⟩,
          linkedTo_iff.mpr (.inr ⟨id, _, hrow, huser, hturn, hlinked⟩)⟩
      · subst he
        exact .inl (.evidence hold huser hturn hlinked)

theorem isStored_iff {turn : SourceTurn} : s.isStored turn = true ↔
    ∃ row, s.tables.turns.get? turn.id = some row ∧ row.userId = turn.userId ∧
      row.scope = some turn.scope.name ∧ row.contentHmac = some turn.contentHmac ∧
      row.keyFingerprint = some turn.keyFingerprint := by
  unfold isStored
  rw [Option.any_eq_true]
  simp only [decide_eq_true_eq]

theorem Retained.linkTurn (h : s.Retained) {turn : IdentifiedTurn}
    (hstored : s.isStored turn.toSourceTurn = true) : (s.linkTurn turn.toSourceTurn).Retained := by
  obtain ⟨row₀, hrow₀, huser₀, -, hhmac₀, hkey₀⟩ := isStored_iff.mp hstored
  unfold SourceStore.linkTurn
  dsimp only
  split
  · rename_i hlinked
    have hp : turn.owns row₀ = true := decide_eq_true ⟨huser₀, hhmac₀, hkey₀⟩
    have hown : ∀ {turnId : String} {row : TurnRow}, s.tables.turns.get? turnId = some row →
        turnId = turn.id → row = row₀ := by
      rintro _ row hrow rfl
      exact Option.some.inj (hrow.symm.trans hrow₀)
    have huntil : ∀ turnId, (setRetention turn.id turn.owns "linked" none
        (s.linkPending turn.toSourceTurn)).retainUntil.get? turnId =
          if turnId = turn.id then none else s.retainUntil.get? turnId := by
      intro turnId
      unfold setRetention
      dsimp only
      rw [if_pos]
      · exact OrdMap.get?_erase _ _ _
      · exact (Option.any_eq_true _ _).mpr ⟨row₀, hrow₀, hp⟩
    have hclass : ∀ turnId row, s.tables.turns.get? turnId = some row →
        (setRetention turn.id turn.owns "linked" none
          (s.linkPending turn.toSourceTurn)).tables.turns.get? turnId =
            some (if turnId = turn.id then { row with retentionClass := some "linked" }
              else row) := by
      intro turnId row hrow
      rw [setRetention_turn]
      refine (congrArg _ hrow).trans ?_
      rw [Option.map_some]
      by_cases hid : turnId = turn.id
      · obtain rfl := hown hrow hid
        rw [if_pos hid, if_pos ⟨hid, hp⟩]
      · rw [if_neg hid, if_neg fun hand => hid hand.1]
    refine ⟨fun userId turnId hnames => ?_, fun turnId row' hrow' hclass' hnone => ?_⟩
    · rcases names_of_linkPending (hnames.of_same rfl rfl) with hbefore | ⟨⟨rfl, rfl⟩, -⟩
      · obtain ⟨hne, hnone, row, hrow, huser, hlinked'⟩ := h.kept userId turnId hbefore
        refine ⟨hne, ?_, _, hclass turnId row hrow, ?_, ?_⟩
        · rw [huntil, hnone, ite_self]
        · split <;> exact huser
        · split
          · rfl
          · exact hlinked'
      · refine ⟨turn.id_ne, ?_, _, hclass turn.id row₀ hrow₀, ?_, ?_⟩
        · rw [huntil, if_pos rfl]
        · rw [if_pos rfl]
          exact huser₀
        · rw [if_pos rfl]
    · by_cases hid : turnId = turn.id
      · subst hid
        exact ⟨turn.userId, (Names.of_linkedTo hlinked).of_same rfl rfl⟩
      · rw [setRetention_turn] at hrow'
        obtain ⟨row, hrow, rfl⟩ := Option.map_eq_some_iff.mp hrow'
        rw [if_neg fun hand => hid hand.1] at hclass'
        rw [huntil, if_neg hid] at hnone
        obtain ⟨userId, hnames⟩ := h.used turnId row hrow hclass' hnone
        exact ⟨userId, (hnames.linkPending turn.toSourceTurn).of_same rfl rfl⟩
  · rename_i hlinked
    refine h.of_names rfl rfl (fun userId turnId hnames => ?_) fun userId turnId hnames =>
      ⟨userId, hnames.linkPending turn.toSourceTurn⟩
    rcases names_of_linkPending hnames with hbefore | ⟨⟨rfl, rfl⟩, hlinked'⟩
    · exact hbefore
    · exact absurd hlinked' hlinked

/-! ### Erasing -/

theorem erase_turn {user : String} {gone : String → Bool} :
    (s.erase user gone).tables.turns.get? turnId = (s.tables.turns.get? turnId).filter fun row =>
      !(decide (row.userId = user) && gone turnId) := OrdMap.get?_filter _ _ _

theorem names_erase {user : String} {gone : String → Bool} :
    (s.erase user gone).Names userId turnId ↔
      s.Names userId turnId ∧ (decide (userId = user) && gone turnId) = false := by
  constructor
  · intro h
    cases h with
    | @fact id f hrow huser hturn hholds =>
        obtain ⟨old, hold, hf⟩ := Option.map_eq_some_iff.mp
          ((OrdMap.get?_mapEntries _ _ _).symm.trans hrow)
        split at hf
        · subst hf
          exact nomatch hturn
        · rename_i hkept
          subst hf
          refine ⟨.fact hold huser hturn hholds, Bool.eq_false_iff.mpr fun hgone => hkept ?_⟩
          rw [Bool.and_eq_true, decide_eq_true_eq] at hgone
          dsimp only
          rw [huser, hturn]
          exact hgone
    | @evidence id e hrow huser hturn hlinked =>
        have hrow := (OrdMap.get?_filter _ _ _).symm.trans hrow
        rw [Option.filter_eq_some_iff, Bool.not_eq_true'] at hrow
        refine ⟨.evidence hrow.1 huser hturn hlinked, ?_⟩
        rw [← huser, ← hturn]
        exact hrow.2
  · rintro ⟨h, hkept⟩
    cases h with
    | @fact id f hrow huser hturn hholds =>
        refine @Names.fact _ _ _ id f ?_ huser hturn hholds
        refine (OrdMap.get?_mapEntries _ _ _).trans ?_
        rw [hrow, Option.map_some, if_neg]
        dsimp only
        rw [huser, hturn]
        rintro ⟨rfl, hgone⟩
        rw [decide_eq_true rfl, Bool.true_and] at hkept
        exact nomatch hkept.symm.trans hgone
    | @evidence id e hrow huser hturn hlinked =>
        refine @Names.evidence _ _ _ id e ?_ huser hturn hlinked
        refine (OrdMap.get?_filter _ _ _).trans ?_
        refine (congrArg (Option.filter _) hrow).trans ?_
        rw [Option.filter_some, huser, hturn, hkept]
        rfl

theorem Retained.erase (h : s.Retained) (user : String) (gone : String → Bool) :
    (s.erase user gone).Retained := by
  have huntil : ∀ turnId row, s.tables.turns.get? turnId = some row →
      (decide (row.userId = user) && gone turnId) = false →
        (s.erase user gone).retainUntil.get? turnId = s.retainUntil.get? turnId := by
    intro turnId row hrow hstays
    refine (OrdMap.get?_filter _ _ _).trans ?_
    refine (congrArg (fun o : Option TurnRow => Option.filter (fun _ => !o.any fun row =>
      decide (row.userId = user) && gone turnId) (s.retainUntil.get? turnId)) hrow).trans ?_
    rw [Option.any_some, hstays]
    cases s.retainUntil.get? turnId <;> rfl
  refine ⟨fun userId turnId hnames => ?_, fun turnId row hrow hclass hnone => ?_⟩
  · obtain ⟨hbefore, hstays⟩ := names_erase.mp hnames
    obtain ⟨hne, hnone, row, hrow, rfl, hclass⟩ := h.kept userId turnId hbefore
    refine ⟨hne, (huntil turnId row hrow hstays).trans hnone, row, ?_, rfl, hclass⟩
    rw [erase_turn, hrow, Option.filter_some, hstays]
    rfl
  · rw [erase_turn, Option.filter_eq_some_iff, Bool.not_eq_true'] at hrow
    rw [huntil turnId row hrow.1 hrow.2] at hnone
    obtain ⟨userId, hnames⟩ := h.used turnId row hrow.1 hclass hnone
    refine ⟨userId, names_erase.mpr ⟨hnames, ?_⟩⟩
    rw [← h.user hrow.1 hnames]
    exact hrow.2

/-! ### Unlinking -/

theorem release_cases (user : String) (ms : Int) (s : SourceStore) (id : String) :
    release user ms s id = if s.linkedTo user id then s
      else s.setRetention id (fun row => row.userId = user) "unlinked" (some ms) := rfl

variable {user id : String} {ms : Int}

/-- A release changes no link. -/
theorem linkedTo_release (userId turnId : String) :
    (release user ms s id).linkedTo userId turnId = s.linkedTo userId turnId := by
  rw [release_cases]
  split <;> rfl

theorem release_turn :
    (release user ms s id).tables.turns.get? turnId = (s.tables.turns.get? turnId).map fun row =>
      if turnId = id ∧ row.userId = user ∧ s.linkedTo user turnId = false then
        { row with retentionClass := some "unlinked" } else row := by
  rw [release_cases]
  split
  · rename_i hlinked
    cases s.tables.turns.get? turnId with
    | none => rfl
    | some row =>
        rw [Option.map_some, if_neg]
        rintro ⟨rfl, -, hno⟩
        exact nomatch hlinked.symm.trans hno
  · rename_i hlinked
    rw [Bool.not_eq_true] at hlinked
    rw [setRetention_turn]
    congr 1
    funext row
    by_cases hid : turnId = id
    · subst hid
      simp only [true_and, decide_eq_true_eq, hlinked, and_true]
    · rw [if_neg fun h => hid h.1, if_neg fun h => hid h.1]

theorem release_until (h : (release user ms s id).retainUntil.get?
    turnId ≠ s.retainUntil.get? turnId) : turnId = id ∧ s.linkedTo user turnId = false ∧
      (s.tables.turns.get? turnId).any (fun row => row.userId = user) = true := by
  rw [release_cases] at h
  split at h
  · exact absurd rfl h
  · rename_i hlinked
    rw [Bool.not_eq_true] at hlinked
    unfold setRetention at h
    dsimp only at h
    split at h
    · rename_i hown
      by_cases hid : turnId = id
      · subst hid
        exact ⟨rfl, hlinked, hown⟩
      · exact absurd (OrdMap.get?_set_ne _ _ hid) h
    · exact absurd rfl h

section
variable {user : String} {ms : Int} {ids : List String}

theorem foldl_release_names :
    (ids.foldl (release user ms) s).Names userId turnId ↔ s.Names userId turnId := by
  induction ids generalizing s with
  | nil => exact Iff.rfl
  | cons id ids ih =>
      refine (ih (s := release user ms s id)).trans ?_
      rw [release_cases]
      split
      · exact Iff.rfl
      · exact ⟨fun h => h.of_same rfl rfl, fun h => h.of_same rfl rfl⟩

/-- The turns of the user among those released, which nothing is linked to, are to expire. -/
theorem foldl_release_turn : (ids.foldl (release user ms) s).tables.turns.get? turnId =
    (s.tables.turns.get? turnId).map fun row =>
      if turnId ∈ ids ∧ row.userId = user ∧ s.linkedTo user turnId = false then
        { row with retentionClass := some "unlinked" } else row := by
  induction ids generalizing s with
  | nil =>
      rw [List.foldl_nil]
      cases s.tables.turns.get? turnId with
      | none => rfl
      | some row =>
          rw [Option.map_some, if_neg]
          exact fun h => nomatch h.1
  | cons id ids ih =>
      refine (ih (s := release user ms s id)).trans ?_
      rw [release_turn, Option.map_map]
      congr 1
      funext row
      simp only [Function.comp_apply, linkedTo_release, List.mem_cons]
      by_cases hown : row.userId = user ∧ s.linkedTo user turnId = false
      · by_cases hid : turnId = id
        · rw [if_pos (⟨hid, hown⟩ : turnId = id ∧ _), if_pos (⟨.inl hid, hown⟩ : (_ ∨ _) ∧ _)]
          split <;> rfl
        · simp only [hid, false_and, if_false, false_or]
      · simp only [hown, and_false, if_false]

theorem foldl_release_until
    (h : (ids.foldl (release user ms) s).retainUntil.get? turnId ≠ s.retainUntil.get? turnId) :
    turnId ∈ ids ∧ s.linkedTo user turnId = false ∧
      (s.tables.turns.get? turnId).any (fun row => row.userId = user) = true := by
  induction ids generalizing s with
  | nil => exact absurd rfl h
  | cons id ids ih =>
      by_cases hfirst : (release user ms s id).retainUntil.get? turnId = s.retainUntil.get? turnId
      · obtain ⟨hid, hlinked, hown⟩ := ih (s := release user ms s id) (hfirst ▸ h)
        rw [linkedTo_release] at hlinked
        refine ⟨List.mem_cons_of_mem _ hid, hlinked, ?_⟩
        rw [release_turn, Option.any_map] at hown
        rw [← hown]
        congr 1
        funext row
        split <;> rfl
      · obtain ⟨rfl, hrest⟩ := release_until hfirst
        exact ⟨List.mem_cons_self, hrest⟩

end

/-- What a fact names is among what is affected by its unlinking. -/
theorem names_dropFact_or (user factId : String) (h : s.Names userId turnId) (hne : turnId ≠ "") :
    (s.dropFact user factId).Names userId turnId ∨
      userId = user ∧ turnId ∈ s.affectedTurnIds user factId := by
  unfold affectedTurnIds
  cases h with
  | @fact id f hrow huser hturn hholds =>
      by_cases hdropped : f.userId = user ∧ id = factId
      · obtain ⟨rfl, rfl⟩ := hdropped
        refine .inr ⟨huser.symm, List.mem_append_left _ ?_⟩
        rw [hrow, Option.filter_some, if_pos (decide_eq_true rfl), Option.bind_some, hturn,
          Option.filter_some, if_pos (by simpa [Text.truthy] using hne)]
        exact List.mem_singleton_self _
      · refine .inl (@Names.fact _ _ _ id f ?_ huser hturn hholds)
        refine (OrdMap.get?_mapEntries _ _ _).trans ?_
        rw [hrow, Option.map_some, if_neg]
        simpa only [decide_eq_true_eq] using hdropped
  | @evidence id e hrow huser hturn hlinked =>
      by_cases hdropped : e.userId = user ∧ e.factId = factId
      · refine .inr ⟨huser.symm.trans hdropped.1, List.mem_append_right _ ?_⟩
        refine List.mem_map.mpr ⟨e, List.mem_filter.mpr ⟨?_, decide_eq_true hdropped⟩, hturn⟩
        exact OrdMap.mem_values.mpr ⟨id, hrow⟩
      · refine .inl (@Names.evidence _ _ _ id e ?_ huser hturn hlinked)
        refine (OrdMap.get?_filter _ _ _).trans ?_
        refine (congrArg (Option.filter _) hrow).trans ?_
        rw [Option.filter_some, decide_eq_false hdropped]
        rfl

theorem names_dropFact {user factId : String} : (s.dropFact user factId).NamesLess s := by
  rintro userId turnId (@⟨id, f, hrow, huser, hturn, hholds⟩ | @⟨id, e, hrow, huser, hturn, hlinked⟩)
  · obtain ⟨old, hold, hf⟩ := Option.map_eq_some_iff.mp
      ((OrdMap.get?_mapEntries _ _ _).symm.trans hrow)
    split at hf
    · subst hf
      exact nomatch hturn
    · subst hf
      exact .fact hold huser hturn hholds
  · have hrow := (OrdMap.get?_filter _ _ _).symm.trans hrow
    rw [Option.filter_eq_some_iff] at hrow
    exact .evidence hrow.1 huser hturn hlinked

/-- No legacy fact is left alone with a turn that is released. -/
def leavesNoLegacy (userId factId : String) (s : SourceStore) : Prop :=
  ∀ turnId ∈ s.affectedTurnIds userId factId,
    (s.dropFact userId factId).factsIn .legacy userId turnId = true →
      (s.dropFact userId factId).linkedTo userId turnId = true

theorem Retained.releaseFact (h : s.Retained) {user factId : String} (ms : Int)
    (hlegacy : s.leavesNoLegacy user factId) :
    (s.releaseFact user factId (s.affectedTurnIds user factId) ms).Retained := by
  -- What is named afterwards and is not linked is not released.
  have hstays : ∀ userId turnId row, (s.dropFact user factId).Names userId turnId →
      s.tables.turns.get? turnId = some row → ¬(turnId ∈ s.affectedTurnIds user factId ∧
        row.userId = user ∧ (s.dropFact user factId).linkedTo user turnId = false) := by
    rintro userId turnId row hnames hrow ⟨hmem, rfl, hnot⟩
    obtain rfl := h.user hrow (names_dropFact hnames)
    have hrefers := refersTo_iff.mpr hnames
    unfold refersTo at hrefers
    rw [hnot, Bool.false_or] at hrefers
    rw [hlegacy turnId hmem hrefers] at hnot
    exact nomatch hnot
  refine ⟨fun userId turnId hnames => ?_, fun turnId row' hrow' hclass hnone => ?_⟩
  · have hnames := foldl_release_names.mp hnames
    obtain ⟨hne, hnone, row, hrow, huser, hclass⟩ := h.kept userId turnId (names_dropFact hnames)
    have hkeep := hstays userId turnId row hnames hrow
    refine ⟨hne, ?_, row, ?_, huser, hclass⟩
    · by_contra hchanged
      obtain ⟨hmem, hnot, hown⟩ := foldl_release_until fun heq => hchanged (heq.trans hnone)
      refine hkeep ⟨hmem, ?_, hnot⟩
      have hown := (congrArg (Option.any _) hrow).symm.trans hown
      exact of_decide_eq_true hown
    · refine foldl_release_turn.trans ?_
      refine (congrArg (Option.map _) hrow).trans ?_
      rw [Option.map_some, if_neg hkeep]
  · obtain ⟨row, hrow, rfl⟩ := Option.map_eq_some_iff.mp (foldl_release_turn.symm.trans hrow')
    split at hclass
    · exact absurd (Option.some.inj hclass) (by decide)
    · rename_i hkept
      have hsame : s.retainUntil.get? turnId = none := by
        by_contra hchanged
        obtain ⟨hmem, hnot, hown⟩ := foldl_release_until (s := s.dropFact user factId)
          fun heq => hchanged (heq.symm.trans hnone)
        refine hkept ⟨hmem, ?_, hnot⟩
        have hown := (congrArg (Option.any _) hrow).symm.trans hown
        exact of_decide_eq_true hown
      obtain ⟨userId, hnames⟩ := h.used turnId row hrow hclass hsame
      obtain ⟨hne, -⟩ := h.kept userId turnId hnames
      rcases names_dropFact_or user factId hnames hne with
        hleft | ⟨rfl, hmem⟩
      · exact ⟨userId, foldl_release_names.mpr hleft⟩
      · have hlinked : (s.dropFact userId factId).linkedTo userId turnId = true := by
          by_contra hnot
          exact hkept ⟨hmem, h.user hrow hnames, Bool.eq_false_iff.mpr hnot⟩
        exact ⟨userId, foldl_release_names.mpr (Names.of_linkedTo hlinked)⟩

end SourceStore

/-! ### Marking -/

namespace MarkCall
variable (crypto : Crypto) (call : MarkCall) (s : SourceStore)

/-- The call throws before it writes. -/
def throws : Bool := call.turn.isSome && !call.keyAllowed

/-- The tables without the record a mark writes over. -/
def rest : SourceStore :=
  if call.throws then s
  else if call.evidenceOnly then
    match call.evidenceTurn with
    | none => s
    | some turn =>
        { s with evidence := s.evidence.erase (evidenceId crypto call.userId call.factId turn.id) }
  else
    { s with facts := s.facts.filter fun id f => !decide (id = call.factId ∧ f.userId = call.userId) }

/-- The user and the turn that the record a mark writes over names. -/
def overwrites : Option (String × String) :=
  if call.throws then none
  else if call.evidenceOnly then
    match call.evidenceTurn with
    | none => none
    | some turn =>
        ((s.evidence.get? (evidenceId crypto call.userId call.factId turn.id)).filter fun e =>
          e.state = .linked).map fun e => (e.userId, e.turnId)
  else
    ((s.facts.get? call.factId).filter fun f => f.userId = call.userId ∧ f.holds).bind fun f =>
      f.turnId.map fun turnId => (f.userId, turnId)

variable {crypto call s} {userId turnId : String}

/-- What a mark writes is a link that is not yet one to be counted. -/
theorem holds_apply (f : FactLink) : (call.apply f).holds = false := by
  unfold FactLink.holds apply
  cases call.state <;> rfl

open SourceStore

theorem names_filter_facts {p : String → FactLink → Bool} :
    { s with facts := s.facts.filter p }.Names userId turnId ↔
      (∃ id f, s.facts.get? id = some f ∧ p id f = true ∧ f.userId = userId ∧
        f.turnId = some turnId ∧ f.holds = true) ∨
      ∃ id e, s.evidence.get? id = some e ∧ e.userId = userId ∧ e.turnId = turnId ∧
        e.state = .linked := by
  constructor
  · rintro (@⟨id, f, hrow, huser, hturn, hholds⟩ | ⟨hrow, huser, hturn, hlinked⟩)
    · have hrow := (OrdMap.get?_filter _ _ _).symm.trans hrow
      rw [Option.filter_eq_some_iff] at hrow
      exact .inl ⟨id, f, hrow.1, hrow.2, huser, hturn, hholds⟩
    · exact .inr ⟨_, _, hrow, huser, hturn, hlinked⟩
  · rintro (⟨id, f, hrow, hp, huser, hturn, hholds⟩ | ⟨id, e, hrow, huser, hturn, hlinked⟩)
    · refine @Names.fact _ _ _ id f ?_ huser hturn hholds
      exact (OrdMap.get?_filter _ _ _).trans (Option.filter_eq_some_iff.mpr ⟨hrow, hp⟩)
    · exact .evidence hrow huser hturn hlinked

/-- After a mark, what the rest names is named. -/
theorem names_mark : (s.markFactSourceLink crypto call).Names userId turnId ↔
    (call.rest crypto s).Names userId turnId := by
  unfold markFactSourceLink rest throws
  split
  · exact Iff.rfl
  · split
    · cases call.evidenceTurn with
      | none => exact Iff.rfl
      | some turn =>
        constructor
        · rintro (⟨hrow, huser, hturn, hholds⟩ | @⟨id, e, hrow, huser, hturn, hlinked⟩)
          · exact .fact hrow huser hturn hholds
          · have hrow := (OrdMap.get?_set _ _ _ _).symm.trans hrow
            split at hrow
            · obtain rfl := Option.some.inj hrow
              exact nomatch hlinked
            · rename_i hid
              refine @Names.evidence _ _ _ id e ?_ huser hturn hlinked
              exact (OrdMap.get?_erase _ _ _).trans ((if_neg hid).trans hrow)
        · rintro (⟨hrow, huser, hturn, hholds⟩ | @⟨id, e, hrow, huser, hturn, hlinked⟩)
          · exact .fact hrow huser hturn hholds
          · have hrow := (OrdMap.get?_erase _ _ _).symm.trans hrow
            split at hrow
            · exact nomatch hrow
            · rename_i hid
              refine @Names.evidence _ _ _ id e ?_ huser hturn hlinked
              exact (OrdMap.get?_set_ne _ _ hid).trans hrow
    · rw [names_filter_facts]
      constructor
      · rintro (@⟨id, f, hrow, huser, hturn, hholds⟩ | ⟨hrow, huser, hturn, hlinked⟩)
        · obtain ⟨old, hold, hf⟩ := Option.map_eq_some_iff.mp
            ((OrdMap.get?_mapEntries _ _ _).symm.trans hrow)
          split at hf
          · subst hf
            rw [holds_apply] at hholds
            exact nomatch hholds
          · rename_i hother
            subst hf
            refine .inl ⟨id, old, hold, ?_, huser, hturn, hholds⟩
            rw [decide_eq_false hother]
            rfl
        · exact .inr ⟨_, _, hrow, huser, hturn, hlinked⟩
      · rintro (⟨id, f, hrow, hother, huser, hturn, hholds⟩ | ⟨id, e, hrow, huser, hturn, hlinked⟩)
        · refine @Names.fact _ _ _ id f ?_ huser hturn hholds
          refine (OrdMap.get?_mapEntries _ _ _).trans ?_
          rw [Bool.not_eq_true', decide_eq_false_iff_not] at hother
          rw [hrow, Option.map_some, if_neg hother]
        · exact .evidence hrow huser hturn hlinked

/-- What is named is named by the rest or by the record that is written over. -/
theorem names_iff : s.Names userId turnId ↔
    (call.rest crypto s).Names userId turnId ∨
      call.overwrites crypto s = some (userId, turnId) := by
  unfold rest overwrites
  split
  · exact ⟨.inl, fun h => h.elim id fun h => nomatch h⟩
  · split
    · cases call.evidenceTurn with
      | none => exact ⟨.inl, fun h => h.elim id fun h => nomatch h⟩
      | some turn =>
        dsimp only
        rw [Option.map_eq_some_iff]
        constructor
        · rintro (⟨hrow, huser, hturn, hholds⟩ | @⟨id, e, hrow, huser, hturn, hlinked⟩)
          · exact .inl (.fact hrow huser hturn hholds)
          · by_cases hid : id = evidenceId crypto call.userId call.factId turn.id
            · subst hid
              refine .inr ⟨e, Option.filter_eq_some_iff.mpr ⟨hrow, decide_eq_true hlinked⟩, ?_⟩
              rw [huser, hturn]
            · refine .inl (@Names.evidence _ _ _ id e ?_ huser hturn hlinked)
              exact (OrdMap.get?_erase _ _ _).trans ((if_neg hid).trans hrow)
        · rintro ((⟨hrow, huser, hturn, hholds⟩ | @⟨id, e, hrow, huser, hturn, hlinked⟩) |
            ⟨e, hrow, he⟩)
          · exact .fact hrow huser hturn hholds
          · have hrow := (OrdMap.get?_erase _ _ _).symm.trans hrow
            split at hrow
            · exact nomatch hrow
            · exact .evidence hrow huser hturn hlinked
          · rw [Option.filter_eq_some_iff, decide_eq_true_eq] at hrow
            obtain ⟨rfl, rfl⟩ := Prod.mk.inj he
            exact .evidence hrow.1 rfl rfl hrow.2
    · rw [names_filter_facts, Option.bind_eq_some_iff]
      constructor
      · rintro (@⟨id, f, hrow, huser, hturn, hholds⟩ | ⟨hrow, huser, hturn, hlinked⟩)
        · by_cases hover : id = call.factId ∧ f.userId = call.userId
          · obtain ⟨rfl, hown⟩ := hover
            refine .inr ⟨f, Option.filter_eq_some_iff.mpr
              ⟨hrow, decide_eq_true ⟨hown, hholds⟩⟩, ?_⟩
            rw [hturn, huser, Option.map_some]
          · refine .inl (.inl ⟨id, f, hrow, ?_, huser, hturn, hholds⟩)
            rw [decide_eq_false hover]
            rfl
        · exact .inl (.inr ⟨_, _, hrow, huser, hturn, hlinked⟩)
      · rintro ((⟨id, f, hrow, -, huser, hturn, hholds⟩ | ⟨id, e, hrow, huser, hturn, hlinked⟩) |
          ⟨f, hrow, hf⟩)
        · exact .fact hrow huser hturn hholds
        · exact .evidence hrow huser hturn hlinked
        · rw [Option.filter_eq_some_iff, decide_eq_true_eq] at hrow
          obtain ⟨turnId', hturn, he⟩ := Option.map_eq_some_iff.mp hf
          obtain ⟨rfl, rfl⟩ := Prod.mk.inj he
          exact .fact hrow.1 rfl hturn hrow.2.2

theorem tables_mark : (s.markFactSourceLink crypto call).tables = s.tables := by
  unfold markFactSourceLink
  split
  · rfl
  · split
    · cases call.evidenceTurn <;> rfl
    · rfl

theorem retainUntil_mark : (s.markFactSourceLink crypto call).retainUntil = s.retainUntil := by
  unfold markFactSourceLink
  split
  · rfl
  · split
    · cases call.evidenceTurn <;> rfl
    · rfl

end MarkCall

/-! ### Runs -/

/-- A mark leaves another name to the turn whose name it writes over, and an unlinking leaves no
legacy fact alone with a turn. -/
def SourceCall.spares (host : Host) (crypto : Crypto) : SourceCall → SourceStore → Prop
  | .mark call, s => ∀ o ∈ call.overwrites crypto s, (call.rest crypto s).refersTo o.1 o.2 = true
  | .unlink userId factId nowIso, s =>
      (host.dateParse nowIso).isSome = true → s.leavesNoLegacy userId factId
  | _, _ => True

instance (userId factId : String) (s : SourceStore) : Decidable (s.leavesNoLegacy userId factId) :=
  inferInstanceAs (Decidable (∀ turnId ∈ s.affectedTurnIds userId factId,
    (s.dropFact userId factId).factsIn .legacy userId turnId = true →
      (s.dropFact userId factId).linkedTo userId turnId = true))

instance (host : Host) (crypto : Crypto) (call : SourceCall) (s : SourceStore) :
    Decidable (call.spares host crypto s) :=
  match call with
  | .mark call => inferInstanceAs (Decidable (∀ o ∈ call.overwrites crypto s,
      (call.rest crypto s).refersTo o.1 o.2 = true))
  | .unlink userId factId nowIso => inferInstanceAs (Decidable
      ((host.dateParse nowIso).isSome = true → s.leavesNoLegacy userId factId))
  | .upsert _ => isTrue trivial
  | .reconcile _ _ => isTrue trivial
  | .forgetSession _ _ => isTrue trivial
  | .forgetUser _ => isTrue trivial
  | .expire _ => isTrue trivial

section
variable {host : Host} {rh : Redaction.RedactionHost} {crypto : Crypto} {s : SourceStore}

open SourceStore MarkCall

theorem SourceStore.Retained.mark (h : s.Retained) {call : MarkCall}
    (hspares : (SourceCall.mark call).spares host crypto s) :
    (s.markFactSourceLink crypto call).Retained := by
  refine h.of_names (by rw [tables_mark]) retainUntil_mark (fun userId turnId hnames => ?_)
    fun userId turnId hnames => ⟨userId, ?_⟩
  · exact names_iff.mpr (.inl (names_mark.mp hnames))
  · rcases names_iff.mp hnames with hrest | hover
    · exact names_mark.mpr hrest
    · exact names_mark.mpr (refersTo_iff.mp (hspares _ hover))

/-- A call that spares the last names keeps the classes. -/
theorem SourceStore.Retained.apply (h : s.Retained) {call : SourceCall}
    (hspares : call.spares host crypto s) : (call.apply host rh crypto s).Retained := by
  cases call with
  | upsert call => exact h.upsert host rh call
  | mark call => exact h.mark hspares
  | reconcile turn keyAllowed =>
      unfold SourceCall.apply reconcileSourceTurnLinks
      dsimp only
      split
      · rename_i hboth
        exact h.linkTurn (Bool.and_eq_true _ _ ▸ hboth).2
      · exact h
  | unlink userId factId nowIso =>
      unfold SourceCall.apply unlinkFactSource
      dsimp only
      split
      · exact h
      · rename_i hdate
        exact h.releaseFact _ (hspares (by rw [hdate]; rfl))
  | forgetSession userId sessionId =>
      unfold SourceCall.apply
      dsimp only
      split
      · exact h
      · exact h.erase userId _
  | forgetUser userId => exact h.erase userId _
  | expire cutoff => exact h.deleteExpired cutoff

/-- A mark over the last name of a turn leaves it of class `linked`. -/
theorem not_followsLinks_mark (h : s.Retained) {call : MarkCall}
    (hnot : ¬(SourceCall.mark call).spares host crypto s) :
    ¬(s.markFactSourceLink crypto call).FollowsLinks := by
  unfold SourceCall.spares at hnot
  push Not at hnot
  obtain ⟨⟨userId, turnId⟩, hover, hlast⟩ := hnot
  obtain ⟨-, hnone, row, hrow, huser, hclass⟩ := h.kept userId turnId (names_iff.mpr (.inr hover))
  intro hfollows
  obtain ⟨other, hother⟩ := hfollows.released turnId row (by rw [tables_mark]; exact hrow) hclass
    (by rw [retainUntil_mark]; exact hnone)
  have hrest := names_mark.mp hother
  obtain rfl := huser.symm.trans (h.user hrow (names_iff.mpr (.inl hrest)))
  exact hlast (refersTo_iff.mpr hrest)

/-- An unlinking that leaves a legacy fact alone releases the turn of it. -/
theorem not_followsLinks_releaseFact (h : s.Retained) {userId factId : String} (ms : Int)
    (hnot : ¬s.leavesNoLegacy userId factId) :
    ¬(s.releaseFact userId factId (s.affectedTurnIds userId factId) ms).FollowsLinks := by
  unfold leavesNoLegacy at hnot
  push Not at hnot
  obtain ⟨turnId, hmem, hlegacy, hlinked⟩ := hnot
  have hlinked := Bool.eq_false_iff.mpr hlinked
  obtain ⟨id, f, hf, huser, hturn, hstate⟩ := factsIn_iff.mp hlegacy
  have hnames : (s.dropFact userId factId).Names userId turnId :=
    .fact hf huser hturn (decide_eq_true (.inr hstate))
  obtain ⟨-, -, row, hrow, hown, -⟩ := h.kept userId turnId (names_dropFact hnames)
  intro hfollows
  have hreleased : (s.releaseFact userId factId (s.affectedTurnIds userId factId)
      ms).tables.turns.get? turnId = some { row with retentionClass := some "unlinked" } := by
    refine foldl_release_turn.trans ?_
    refine (congrArg (Option.map _) hrow).trans ?_
    rw [Option.map_some, if_pos ⟨hmem, hown, hlinked⟩]
  have hclass := hfollows.linked userId turnId _ hreleased (foldl_release_names.mpr hnames)
  exact absurd (Option.some.inj hclass) (by decide)

theorem not_followsLinks_apply (h : s.Retained) {call : SourceCall}
    (hnot : ¬call.spares host crypto s) : ¬(call.apply host rh crypto s).FollowsLinks := by
  cases call with
  | mark call => exact not_followsLinks_mark h hnot
  | unlink userId factId nowIso =>
      unfold SourceCall.spares at hnot
      rw [Classical.not_imp] at hnot
      obtain ⟨hdate, hleaves⟩ := hnot
      obtain ⟨now, hnow⟩ := Option.isSome_iff_exists.mp hdate
      unfold SourceCall.apply unlinkFactSource
      dsimp only
      rw [hnow]
      exact not_followsLinks_releaseFact h _ hleaves
  | upsert call => exact absurd trivial hnot
  | reconcile turn keyAllowed => exact absurd trivial hnot
  | forgetSession userId sessionId => exact absurd trivial hnot
  | forgetUser userId => exact absurd trivial hnot
  | expire cutoff => exact absurd trivial hnot

end

/-- **Retention follows the links** in every state of exactly the runs whose marks spare the last
name of a turn, and whose unlinkings leave no legacy fact alone. -/
theorem retention_follows_links_iff (host : Host) (rh : Redaction.RedactionHost) (crypto : Crypto)
    (s : SourceStore) (h : s.Retained) (calls : List SourceCall) :
    (∀ n s', Runs.exec (fun s call => some (SourceCall.apply host rh crypto call s)) s
        (calls.take n) = some s' → s'.FollowsLinks) ↔
      Runs.Along (fun s call => some (SourceCall.apply host rh crypto call s))
        (fun s call => call.spares host crypto s) s calls := by
  refine Runs.always_iff_along (I := SourceStore.Retained) (fun s call s' hs hspares hstep => ?_)
    (fun s hs => hs.followsLinks) (fun s call hs hnot => ?_) h
  · obtain rfl := Option.some.inj hstep
    exact hs.apply hspares
  · exact ⟨_, rfl, not_followsLinks_apply hs hnot⟩

/-! ### A turn that is kept for ever, and one that is not kept -/

def turnNamed (id : String) (hid : id ≠ "") : IdentifiedTurn where
  id := id
  userId := "ann"
  client := "cli"
  sessionId := "s"
  sessionEpoch := "e"
  turnKey := id
  role := .user
  content := "hello"
  contentHmac := "h"
  keyFingerprint := "k"
  redactionVersion := 1
  sourceFormat := 1
  identityQuality := .native
  occurredAt := "2026-01-01T00:00:00.000Z"
  scope := .user
  truncated := false
  originalBytes := 5
  id_ne := hid

def turnA : IdentifiedTurn := turnNamed "a" (by decide)

def turnB : IdentifiedTurn := turnNamed "b" (by decide)

/-- Two facts that name no turn. -/
def twoFacts : SourceStore where
  tables := .empty
  retainUntil := .empty
  facts := .ofList [("f", { userId := "ann", scope := some "user" }),
    ("g", { userId := "ann", scope := some "user" })]
  evidence := .empty

/-- A mark of a fact of `twoFacts`. -/
def markTo (factId : String) (turn : IdentifiedTurn) : SourceCall :=
  .mark { factId := factId, userId := "ann", turn := some turn, state := .pending }

/-- The first fact is linked to a turn. -/
def linkFirst : List SourceCall :=
  [.upsert { turn := turnA.toSourceTurn }, markTo "f" turnA, .reconcile turnA true]

theorem twoFacts_retained : twoFacts.Retained where
  kept userId turnId h := by
    have hno : ∀ f ∈ twoFacts.facts.values, f.holds = false := by decide
    cases h with
    | fact hrow huser hturn hholds =>
        exact nomatch (hno _ (OrdMap.mem_values.mpr ⟨_, hrow⟩)).symm.trans hholds
    | evidence hrow huser hturn hlinked => exact nomatch hrow
  used turnId row hrow := nomatch hrow

/-- The first fact is linked, and the second to the same turn, and then the first to another. -/
theorem retention_follows_links_two :
    twoFacts.Retained ∧ ∀ n s', Runs.exec (fun s call => some (SourceCall.apply .ascii
        plainRedactionHost plainCrypto call s)) twoFacts ((linkFirst ++ [markTo "g" turnA,
          .reconcile turnA true, markTo "f" turnB]).take n) = some s' → s'.FollowsLinks :=
  ⟨twoFacts_retained, (retention_follows_links_iff .ascii plainRedactionHost plainCrypto twoFacts
    twoFacts_retained _).mpr (by decide +kernel)⟩

/-- Sweeps leave a turn of class `linked`. -/
theorem SourceStore.turn_of_sweeps {s : SourceStore} {turnId : String}
    (hrow : s.tables.turns.get? turnId = some row) (hclass : row.retentionClass = some "linked")
    (cutoffs : List Int) :
    (cutoffs.foldl (fun s cutoff => s.deleteExpired cutoff) s).tables.turns.get? turnId =
      some row := by
  induction cutoffs generalizing s with
  | nil => exact hrow
  | cons cutoff cutoffs ih =>
      refine ih (s := s.deleteExpired cutoff) ?_
      rw [deleteExpired_turn, hrow, Option.filter_some, not_expired hclass]
      rfl

/-- The first fact is linked to a turn, and then marked with another: nothing names the first turn,
and no sweep deletes it. -/
theorem repointed_turn_kept : ∃ s row,
    Runs.exec (fun s call => some (SourceCall.apply .ascii plainRedactionHost plainCrypto call s))
      twoFacts (linkFirst ++ [markTo "f" turnB]) = some s ∧
    s.refersTo "ann" "a" = false ∧ row.retentionClass = some "linked" ∧
    s.retainUntil.get? "a" = none ∧
    ∀ cutoffs : List Int,
      (cutoffs.foldl (fun s cutoff => s.deleteExpired cutoff) s).tables.turns.get? "a" = some row :=
  ⟨_, { turnRow turnA.toSourceTurn with retentionClass := some "linked" }, rfl, by decide +kernel,
    rfl, by decide +kernel, SourceStore.turn_of_sweeps (by rfl) rfl⟩

end Runir
