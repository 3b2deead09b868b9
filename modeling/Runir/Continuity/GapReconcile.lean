import Runir.Continuity.GapStore

/-!
# Continuity — Reconciled gaps

`reconcileKind` of `src/lifecycle/semion/continuity-gaps.ts` with the eligibility of its
`missing_handoff` gaps.

* `HandoffGap`: the session of a gap and the close that it was written for, with the key they make.
* `Overruns`: of two session ids the one goes on behind a colon where the other ends.
* `reconcile_evaluated_iff`: a run supersedes gaps of evaluated sessions only, exactly where none of
  the other sessions overruns an evaluated one.
-/

namespace Runir

/-! ### Reconciliation -/

def missingHandoffDedupeKey (sessionId closedAt : String) : String :=
  "missing_handoff:" ++ sessionId ++ ":" ++ closedAt

/-- The open gaps of a project and kind, with their record ids. -/
def listActiveGapsForKind (userId workspaceIdRaw projectKey : String) (kind : ContinuityGapKind)
    (s : GapTable) : List (String × ContinuityGapRow) :=
  let workspaceId := canonicalizeWorkspaceId (some workspaceIdRaw)
  s.entries.filter fun gap =>
    gap.2.userId = userId && gap.2.workspaceId = workspaceId && gap.2.projectKey = projectKey &&
      gap.2.kind = kind && (gap.2.status = .fresh || gap.2.status = .active)

def buildMissingHandoffEligibility (evaluatedSessionIds : List String) (dedupeKey : String) : Bool :=
  evaluatedSessionIds.any (fun sessionId => "missing_handoff:" ++ sessionId == dedupeKey) ||
    evaluatedSessionIds.any fun sessionId =>
      Text.startsWith dedupeKey ("missing_handoff:" ++ sessionId ++ ":")

/-- Without an eligibility every gap is eligible. -/
def toSupersede (firedKeys : List String) (isWindowEligible : Option (String → Bool))
    (gap : String × ContinuityGapRow) : Bool :=
  !firedKeys.contains gap.2.dedupeKey &&
    (isWindowEligible.map fun eligible => eligible gap.2.dedupeKey).getD true

/-- `setGapStatus`. -/
def supersedeGap (s : GapTable) (gapId : String) : GapTable :=
  (GapTable.perform 0 (.setStatus gapId .superseded) s).1

/-- The table after the loop, and how many gaps it has superseded. -/
def reconcileKind (userId workspaceId projectKey : String) (kind : ContinuityGapKind)
    (firedKeys : List String) (isWindowEligible : Option (String → Bool)) (s : GapTable) :
    GapTable × Nat :=
  (listActiveGapsForKind userId workspaceId projectKey kind s).foldl (fun acc gap =>
    if toSupersede firedKeys isWindowEligible gap then (supersedeGap acc.1 gap.1, acc.2 + 1) else acc)
    (s, 0)

theorem get?_supersedeGap (s : GapTable) (gapId id : String) :
    (supersedeGap s gapId).get? id =
      if id = gapId then (s.get? id).map fun row => { row with status := .superseded }
      else s.get? id := by
  simp only [supersedeGap, GapTable.perform]
  by_cases hid : id = gapId
  · subst hid
    rw [if_pos rfl]
    cases hget : s.get? id with
    | none => exact hget
    | some old => exact OrdMap.get?_set_self ..
  · rw [if_neg hid]
    split
    · rfl
    · exact OrdMap.get?_set_ne _ _ hid

/-- The loop supersedes the gaps of its list that are to be superseded, and changes no other row. -/
theorem get?_reconcile_loop (firedKeys : List String) (isWindowEligible : Option (String → Bool))
    (gaps : List (String × ContinuityGapRow)) (acc : GapTable × Nat) (id : String) :
    ((gaps.foldl (fun acc gap =>
        if toSupersede firedKeys isWindowEligible gap then (supersedeGap acc.1 gap.1, acc.2 + 1)
        else acc) acc).1).get? id =
      if ∃ gap ∈ gaps, gap.1 = id ∧ toSupersede firedKeys isWindowEligible gap = true then
        (acc.1.get? id).map fun row => { row with status := .superseded }
      else acc.1.get? id := by
  induction gaps generalizing acc with
  | nil => simp
  | cons gap gaps ih =>
      rw [List.foldl_cons, ih]
      simp only [List.mem_cons, or_and_right, exists_or, exists_eq_left]
      by_cases hgap : toSupersede firedKeys isWindowEligible gap = true
      · rw [if_pos hgap, get?_supersedeGap]
        by_cases hid : id = gap.1
        · simp only [hid, hgap, and_self, true_or, if_true]
          split
          · cases acc.1.get? gap.1 with
            | none => rfl
            | some row => rfl
          · rfl
        · simp only [hid, Ne.symm hid, false_and, false_or, if_false]
      · simp only [hgap, and_false, false_or, Bool.false_eq_true, if_false]

section
variable {userId workspaceId projectKey : String} {kind : ContinuityGapKind} {firedKeys : List String}
  {isWindowEligible : Option (String → Bool)} {s : GapTable}

/-- The gap was open and is superseded now. -/
def Supersedes (s s' : GapTable) (gapId : String) : Prop :=
  ∃ row, s.get? gapId = some row ∧ row.status ≠ .superseded ∧
    s'.get? gapId = some { row with status := .superseded }

theorem supersedes_reconcileKind_iff {gapId : String} :
    Supersedes s (reconcileKind userId workspaceId projectKey kind firedKeys isWindowEligible s).1 gapId ↔
      ∃ row, (gapId, row) ∈ listActiveGapsForKind userId workspaceId projectKey kind s ∧
        toSupersede firedKeys isWindowEligible (gapId, row) = true := by
  have hget := get?_reconcile_loop firedKeys isWindowEligible
    (listActiveGapsForKind userId workspaceId projectKey kind s) (s, 0) gapId
  have hopen : ∀ row, (gapId, row) ∈ listActiveGapsForKind userId workspaceId projectKey kind s →
      s.get? gapId = some row ∧ row.status ≠ .superseded := by
    intro row hrow
    obtain ⟨hmem, htest⟩ := List.mem_filter.mp hrow
    refine ⟨OrdMap.get?_eq_some.mpr hmem, fun hstatus => ?_⟩
    simp [hstatus] at htest
  constructor
  · rintro ⟨row, hrow, hstatus, hafter⟩
    by_contra hnot
    have hnone : ¬∃ gap ∈ listActiveGapsForKind userId workspaceId projectKey kind s,
        gap.1 = gapId ∧ toSupersede firedKeys isWindowEligible gap = true := by
      rintro ⟨⟨id, row'⟩, hmem, rfl, hto⟩
      exact hnot ⟨row', hmem, hto⟩
    rw [if_neg hnone] at hget
    have hsame := hrow.symm.trans (hget.symm.trans hafter)
    exact hstatus (congrArg ContinuityGapRow.status (Option.some.inj hsame))
  · rintro ⟨row, hmem, hto⟩
    obtain ⟨hrow, hstatus⟩ := hopen row hmem
    rw [if_pos ⟨(gapId, row), hmem, rfl, hto⟩] at hget
    refine ⟨row, hrow, hstatus, hget.trans ?_⟩
    rw [hrow]
    rfl

end

/-! ### The sessions of gaps -/

/-- The session of a gap and its close; a gap of the older form names no close. -/
structure HandoffGap where
  sessionId : String
  closedAt : Option String
  deriving DecidableEq

namespace HandoffGap

def dedupeKey (gap : HandoffGap) : String :=
  match gap.closedAt with
  | none => "missing_handoff:" ++ gap.sessionId
  | some closedAt => missingHandoffDedupeKey gap.sessionId closedAt

/-- Of an evaluated id and the session of a gap, another one, the one goes on behind a colon where
the other ends, and the close of the gap goes on alike. -/
inductive Overruns (evaluated : String) (gap : HandoffGap) : Prop where
  | gapGoesOn (rest : List Char) (h : gap.sessionId.toList = evaluated.toList ++ ':' :: rest)
  | evaluatedGoesOn (closedAt : String) (h : gap.closedAt = some closedAt)
      (hid : evaluated.toList = gap.sessionId.toList ++ ':' :: closedAt.toList)
  | closeGoesOn (closedAt : String) (h : gap.closedAt = some closedAt) (rest rest' : List Char)
      (hid : evaluated.toList = gap.sessionId.toList ++ ':' :: rest)
      (hclose : closedAt.toList = rest ++ ':' :: rest')

end HandoffGap

/-- What stands behind the mark of a key begins with an id and a colon. -/
theorem cons_colon_prefix_iff {e o g : List Char} (hne : e ≠ o) :
    e ++ [':'] <+: o ++ ':' :: g ↔
      (∃ rest, o = e ++ ':' :: rest) ∨ ∃ rest rest', e = o ++ ':' :: rest ∧ g = rest ++ ':' :: rest' := by
  constructor
  · rintro ⟨t, ht⟩
    rw [List.append_assoc, List.singleton_append] at ht
    rcases List.append_eq_append_iff.mp ht with ⟨p, hp, hrest⟩ | ⟨p, hp, hrest⟩
    · match p with
      | [] => exact absurd (hp.trans (List.append_nil e)).symm hne
      | c :: p =>
          rw [List.cons_append, List.cons.injEq] at hrest
          obtain ⟨rfl, -⟩ := hrest
          exact Or.inl ⟨p, hp⟩
    · match p with
      | [] => exact absurd (hp.trans (List.append_nil o)) hne
      | c :: p =>
          rw [List.cons_append, List.cons.injEq] at hrest
          obtain ⟨rfl, hg⟩ := hrest
          exact Or.inr ⟨p, t, hp, hg⟩
  · rintro (⟨rest, rfl⟩ | ⟨rest, rest', rfl, rfl⟩)
    · exact ⟨rest ++ ':' :: g, by simp⟩
    · exact ⟨rest', by simp⟩

theorem toList_legacyKey (sessionId : String) :
    ("missing_handoff:" ++ sessionId).toList = "missing_handoff:".toList ++ sessionId.toList :=
  String.toList_append

theorem toList_missingHandoffDedupeKey (sessionId closedAt : String) :
    (missingHandoffDedupeKey sessionId closedAt).toList =
      "missing_handoff:".toList ++ (sessionId.toList ++ ':' :: closedAt.toList) := by
  have hcolon : ":".toList = [':'] := rfl
  have hfront : ("missing_handoff:" ++ sessionId ++ ":").toList =
      "missing_handoff:".toList ++ (sessionId.toList ++ [':']) := by
    rw [String.toList_append, toList_legacyKey, hcolon, List.append_assoc]
  calc (missingHandoffDedupeKey sessionId closedAt).toList
      = ("missing_handoff:" ++ sessionId ++ ":").toList ++ closedAt.toList := String.toList_append
    _ = "missing_handoff:".toList ++ (sessionId.toList ++ [':'] ++ closedAt.toList) := by
        rw [hfront, List.append_assoc]
    _ = "missing_handoff:".toList ++ (sessionId.toList ++ ':' :: closedAt.toList) := by
        rw [List.append_assoc (sessionId.toList), List.singleton_append]

theorem startsWith_mark_iff {key : String} {tail : List Char} (e : String)
    (hkey : key.toList = "missing_handoff:".toList ++ tail) :
    Text.startsWith key ("missing_handoff:" ++ e ++ ":") = true ↔ e.toList ++ [':'] <+: tail := by
  have hcolon : ":".toList = [':'] := rfl
  rw [Text.startsWith, List.isPrefixOf_iff_prefix, String.toList_append, toList_legacyKey, hkey, hcolon,
    List.append_assoc, List.prefix_append_right_inj]

/-- The key of a gap of another session is eligible through an evaluated id that overruns it. -/
theorem eligible_iff_overruns {evaluatedSessionIds : List String} {gap : HandoffGap}
    (hnot : gap.sessionId ∉ evaluatedSessionIds) :
    buildMissingHandoffEligibility evaluatedSessionIds gap.dedupeKey = true ↔
      ∃ e ∈ evaluatedSessionIds, gap.Overruns e := by
  obtain ⟨o, closedAt⟩ := gap
  rw [buildMissingHandoffEligibility, Bool.or_eq_true, List.any_eq_true, List.any_eq_true, ← exists_or]
  refine exists_congr fun e => ?_
  rw [← and_or_left]
  refine and_congr_right fun he => ?_
  have hne : e ≠ o := fun heq => hnot (heq ▸ he)
  have hne' : e.toList ≠ o.toList := fun heq => hne (String.ext heq)
  rw [beq_iff_eq]
  cases closedAt with
  | none =>
      have hlegacy : "missing_handoff:" ++ e ≠ HandoffGap.dedupeKey ⟨o, none⟩ := by
        intro heq
        have hlist := congrArg String.toList heq
        simp only [HandoffGap.dedupeKey, toList_legacyKey] at hlist
        exact hne' (List.append_cancel_left hlist)
      have hkey : (HandoffGap.dedupeKey ⟨o, none⟩).toList = "missing_handoff:".toList ++ o.toList :=
        toList_legacyKey o
      rw [or_iff_right hlegacy, startsWith_mark_iff e hkey]
      constructor
      · rintro ⟨rest, hrest⟩
        exact .gapGoesOn rest (by rw [← hrest, List.append_assoc]; rfl)
      · intro h
        cases h with
        | gapGoesOn rest h => exact ⟨rest, by rw [h, List.append_assoc]; rfl⟩
        | evaluatedGoesOn g hg => exact nomatch hg
        | closeGoesOn g hg => exact nomatch hg
  | some g =>
      have hkey : (HandoffGap.dedupeKey ⟨o, some g⟩).toList =
          "missing_handoff:".toList ++ (o.toList ++ ':' :: g.toList) := by
        exact toList_missingHandoffDedupeKey o g
      have hlegacy : "missing_handoff:" ++ e = HandoffGap.dedupeKey ⟨o, some g⟩ ↔
          e.toList = o.toList ++ ':' :: g.toList := by
        rw [← String.toList_inj, hkey, toList_legacyKey, List.append_cancel_left_eq]
      rw [hlegacy, startsWith_mark_iff e hkey, cons_colon_prefix_iff hne']
      constructor
      · rintro (hid | ⟨rest, h⟩ | ⟨rest, rest', hid, hclose⟩)
        · exact .evaluatedGoesOn g rfl hid
        · exact .gapGoesOn rest h
        · exact .closeGoesOn g rfl rest rest' hid hclose
      · intro h
        cases h with
        | gapGoesOn rest h => exact Or.inr (Or.inl ⟨rest, h⟩)
        | evaluatedGoesOn g' hg hid =>
            obtain rfl := Option.some.inj hg
            exact Or.inl hid
        | closeGoesOn g' hg rest rest' hid hclose =>
            obtain rfl := Option.some.inj hg
            exact Or.inr (Or.inr ⟨rest, rest', hid, hclose⟩)

/-! ### What a run supersedes -/

/-- The open `missing_handoff` gaps of the project are those of the sessions that `gaps` names. -/
def WrittenFor (userId workspaceId projectKey : String) (s : GapTable) (gaps : String → HandoffGap) : Prop :=
  ∀ id row, (id, row) ∈ listActiveGapsForKind userId workspaceId projectKey .missingHandoff s →
    row.dedupeKey = (gaps id).dedupeKey

/-- **A run supersedes gaps of evaluated sessions that it has not fired again, and no others, exactly
where no evaluated id overruns an open gap of another session that it has not fired again.** -/
theorem reconcile_evaluated_iff (evaluatedSessionIds firedKeys : List String)
    {userId workspaceId projectKey : String} {s : GapTable} {gaps : String → HandoffGap}
    (h : WrittenFor userId workspaceId projectKey s gaps) :
    (∀ id, Supersedes s (reconcileKind userId workspaceId projectKey .missingHandoff firedKeys
          (some (buildMissingHandoffEligibility evaluatedSessionIds)) s).1 id →
        (gaps id).sessionId ∈ evaluatedSessionIds ∧ (gaps id).dedupeKey ∉ firedKeys) ↔
      ∀ id row, (id, row) ∈ listActiveGapsForKind userId workspaceId projectKey .missingHandoff s →
        (gaps id).sessionId ∉ evaluatedSessionIds → (gaps id).dedupeKey ∉ firedKeys →
          ∀ e ∈ evaluatedSessionIds, ¬(gaps id).Overruns e := by
  have hto : ∀ id row, (id, row) ∈ listActiveGapsForKind userId workspaceId projectKey .missingHandoff s →
      (toSupersede firedKeys (some (buildMissingHandoffEligibility evaluatedSessionIds)) (id, row) = true ↔
        (gaps id).dedupeKey ∉ firedKeys ∧
          buildMissingHandoffEligibility evaluatedSessionIds (gaps id).dedupeKey = true) := by
    intro id row hopen
    rw [toSupersede, h id row hopen]
    simp
  constructor
  · intro hsound id row hopen hnot hfired e he hoverruns
    have heligible := (eligible_iff_overruns hnot).mpr ⟨e, he, hoverruns⟩
    exact hnot (hsound id (supersedes_reconcileKind_iff.mpr
      ⟨row, hopen, (hto id row hopen).mpr ⟨hfired, heligible⟩⟩)).1
  · intro hapart id hsupersedes
    obtain ⟨row, hopen, htest⟩ := supersedes_reconcileKind_iff.mp hsupersedes
    obtain ⟨hfired, heligible⟩ := (hto id row hopen).mp htest
    refine ⟨by_contra fun hnot => ?_, hfired⟩
    obtain ⟨e, he, hoverruns⟩ := (eligible_iff_overruns hnot).mp heligible
    exact hapart id row hopen hnot hfired e he hoverruns

/-! ### Two sessions -/

/-- The gap of session `s:1`, closed at noon. -/
def gapOfOther : HandoffGap := ⟨"s:1", some "12:00"⟩

def gapRowOf (gap : HandoffGap) : ContinuityGapRow where
  userId := "u"
  workspaceId := "w"
  projectKey := "p"
  targetProjectId := none
  targetNamespaceId := none
  kind := .missingHandoff
  title := ""
  summary := ""
  recommendation := ""
  relatedWorkItems := []
  candidateTaskPreview := none
  evidence := []
  score := 0
  confidence := .developing
  dedupeKey := gap.dedupeKey
  status := .fresh
  firstSeenAt := ""
  lastSeenAt := ""

def oneOpenGap : GapTable := .ofList [("g", gapRowOf gapOfOther)]

theorem writtenFor_oneOpenGap : WrittenFor "u" "w" "p" oneOpenGap fun _ => gapOfOther := by
  intro id row hopen
  have hall : ∀ e ∈ listActiveGapsForKind "u" "w" "p" .missingHandoff oneOpenGap,
      e.2.dedupeKey = gapOfOther.dedupeKey := by decide +kernel
  exact hall (id, row) hopen

/-- A run that has evaluated `s:1`. -/
theorem reconcile_evaluated_own :
    (∀ id, Supersedes oneOpenGap (reconcileKind "u" "w" "p" .missingHandoff []
          (some (buildMissingHandoffEligibility ["s:1"])) oneOpenGap).1 id →
        gapOfOther.sessionId ∈ ["s:1"] ∧ gapOfOther.dedupeKey ∉ ([] : List String)) ↔
      ∀ id row, (id, row) ∈ listActiveGapsForKind "u" "w" "p" .missingHandoff oneOpenGap →
        gapOfOther.sessionId ∉ ["s:1"] → gapOfOther.dedupeKey ∉ ([] : List String) →
          ∀ e ∈ ["s:1"], ¬gapOfOther.Overruns e :=
  reconcile_evaluated_iff ["s:1"] [] writtenFor_oneOpenGap

/-- A run that has evaluated session `s` only closes the gap of session `s:1`. -/
theorem reconcile_closes_other :
    WrittenFor "u" "w" "p" oneOpenGap (fun _ => gapOfOther) ∧
      Supersedes oneOpenGap (reconcileKind "u" "w" "p" .missingHandoff []
        (some (buildMissingHandoffEligibility ["s"])) oneOpenGap).1 "g" ∧
      gapOfOther.sessionId ∉ ["s"] := by
  refine ⟨writtenFor_oneOpenGap, supersedes_reconcileKind_iff.mpr ⟨gapRowOf gapOfOther, ?_, ?_⟩, ?_⟩
  · decide +kernel
  · decide +kernel
  · decide

end Runir
