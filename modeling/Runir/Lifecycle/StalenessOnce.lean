import Runir.Lifecycle.StalenessPass
import Runir.Store.SupersedeRuns

/-!
# Lifecycle — How often a staleness pass retires a memory

A pass retires only rows its searches have found, and never the memory of the fact itself.  It may
retire a row more than once: neither the loop nor the store asks whether the row is still active.

* `Tracked`: the rows of the log are inactive and point where its last entry for them says; the
  candidates that are not in the log are as active as they were found.
* `NamesActive`: the entry, if it supersedes, names a row that is still active.
* `staleness_once_iff`: a pass retires each row at most once exactly when its entries name active
  rows throughout.
-/

namespace Runir

variable {host : Host} {opts : StalenessOpts} {candidates : List StalenessCandidate}

/-! ### What a search finds -/

/-- A candidate is a row of the table that the query's clauses admit. -/
def FoundIn (opts : StalenessOpts) (rows : Rows) (c : StalenessCandidate) : Prop :=
  ∃ row, rows.get? c.id = some row ∧ sweepable opts.userId opts.scope row = true

variable {rows : Rows}

theorem foundIn_of_mem_searchRows {ids : List String} {c : StalenessCandidate}
    (h : c ∈ searchRows opts rows ids) : FoundIn opts rows c := by
  obtain ⟨id, -, hid⟩ := List.mem_filterMap.mp (List.mem_of_mem_take h)
  split at hid
  · cases hid
  · next row hrow =>
      split at hid
      · next hclauses =>
          obtain rfl := Option.some.inj hid
          exact ⟨row, hrow, hclauses.1⟩
      · cases hid

variable {world : StalenessWorld}

theorem foundIn_of_searchFact {fact : StalenessFact}
    {found : List StalenessCandidate} (h : searchFact world opts rows fact = some found) :
    ∀ c ∈ found, FoundIn opts rows c := by
  intro c hc
  unfold searchFact at h
  split at h
  · cases h
  · obtain ⟨ids, -, rfl⟩ := Option.map_eq_some_iff.mp h
    exact foundIn_of_mem_searchRows hc
  · next bm25Results hbm25 =>
      obtain rfl := Option.some.inj h
      obtain ⟨ids, -, rfl⟩ := Option.map_eq_some_iff.mp hbm25
      exact foundIn_of_mem_searchRows hc

theorem foundIn_of_collectCandidates
    {all : OrdMap String StalenessCandidate} (h : collectCandidates world opts rows = some all) :
    ∀ id c, all.get? id = some c → FoundIn opts rows c := by
  have hfold : ∀ (facts : List StalenessFact) (all₀ : OrdMap String StalenessCandidate),
      (∀ id c, all₀.get? id = some c → FoundIn opts rows c) →
      facts.foldlM (fun all fact => (searchFact world opts rows fact).map fun found =>
        found.foldl (fun all c => all.set c.id c) all) all₀ = some all →
      ∀ id c, all.get? id = some c → FoundIn opts rows c := by
    intro facts
    induction facts with
    | nil =>
        intro all₀ h₀ h
        obtain rfl := Option.some.inj h
        exact h₀
    | cons fact facts ih =>
        intro all₀ h₀ h
        rw [List.foldlM_cons] at h
        obtain ⟨all₁, h₁, hrest⟩ := Option.bind_eq_some_iff.mp h
        obtain ⟨found, hfound, rfl⟩ := Option.map_eq_some_iff.mp h₁
        refine ih _ ?_ hrest
        have hmem := foundIn_of_searchFact hfound
        clear hfound h hrest h₁
        induction found generalizing all₀ with
        | nil => exact h₀
        | cons c₀ found ihfound =>
            refine ihfound (all₀.set c₀.id c₀) ?_ fun c hc => hmem c (List.mem_cons_of_mem _ hc)
            intro id c hget
            rw [OrdMap.get?_set] at hget
            split at hget
            · obtain rfl := Option.some.inj hget
              exact hmem _ List.mem_cons_self
            · exact h₀ id c hget
  refine hfold opts.facts .empty ?_ h
  intro id c hget
  cases hget

theorem foundIn_of_stalenessCandidates (h : stalenessCandidates world opts rows = some candidates) :
    ∀ c ∈ candidates, FoundIn opts rows c := by
  intro c hc
  unfold stalenessCandidates at h
  split at h
  · obtain rfl := Option.some.inj h
    cases hc
  · obtain ⟨all, hall, rfl⟩ := Option.map_eq_some_iff.mp h
    obtain ⟨id, hid⟩ := OrdMap.mem_values.mp hc
    exact foundIn_of_collectCandidates hall id c hid

/-! ### One entry -/

/-- What an entry that supersedes has checked, and the plan it has carried out. -/
structure EntryChecked (host : Host) (opts : StalenessOpts)
    (candidates : List StalenessCandidate) (world : EntryWorld) (rows rows' : Rows)
    (r : Retirement) : Prop where
  named : ∃ c ∈ candidates, c.id = r.previousId
  replacement : r.replacementId = replacementIdOf r.fact world.uuid
  ne : r.previousId ≠ r.replacementId
  plan : ∃ input p, Prepared world.prepareFailed rows input p ∧ rows' = planRows host world.now p rows ∧
    p.previousId = r.previousId ∧ p.replacement.id = r.replacementId

theorem candidate_of_entryTarget {entry : Value} {fact : StalenessFact} {c : StalenessCandidate}
    (h : entryTarget opts candidates entry = some (fact, c)) : c ∈ candidates := by
  unfold entryTarget at h
  simp only [bind, Option.bind_eq_some_iff] at h
  obtain ⟨idx, -, existingId, -, fact', -, c', hc', heq⟩ := h
  obtain ⟨-, rfl⟩ := Prod.mk.inj (Option.some.inj heq)
  exact List.mem_of_find?_eq_some hc'

/-- **An entry that supersedes** has passed every check of the loop and of the store. -/
theorem checked_of_entryEffect {world : EntryWorld} {rows rows' : Rows} {entry : Value}
    {r : Retirement} {answered : Bool}
    (h : entryEffect host opts candidates world rows entry = .retired r rows' answered) :
    EntryChecked host opts candidates world rows rows' r := by
  unfold entryEffect at h
  split at h
  · cases h
  · next fact c htarget =>
      have hc := candidate_of_entryTarget htarget
      simp only at h
      split at h
      · cases h
      · next hne =>
          split at h
          · cases h
          · split at h
            · cases h
            · next embedding _ =>
                have hplan : ∀ {rows'}, supersedeMemory host world.now world.prepareFailed
                    (stalenessSupersede opts world fact c embedding) rows = .ok rows' →
                    EntryChecked host opts candidates world rows rows'
                      ⟨c.id, replacementIdOf fact world.uuid, fact⟩ := by
                  intro rows' hok
                  obtain ⟨p, hp, hrows⟩ := supersedeMemory_ok hok
                  refine ⟨⟨c, hc, rfl⟩, rfl, hne, _, p, hp, hrows, hp.previousId_eq, ?_⟩
                  rw [hp.replacement_eq]
                  rfl
                split at h
                · cases h
                · cases h
                · next rows₁ _ hok =>
                    obtain ⟨rfl, rfl, -⟩ := EntryEffect.retired.inj h
                    exact hplan hok
                · next rows₁ _ hok =>
                    obtain ⟨rfl, rfl, -⟩ := EntryEffect.retired.inj h
                    exact hplan hok

/-- A plan leaves a row other than its previous one as active as it was, pointing where it did. -/
theorem get?_planRows_of_ne {now : Int} {failed : Option String} {input : SupersedeInput}
    {p : PreparedSupersede} (hp : Prepared failed rows input p) {id : String}
    {row : MemoryRow} (hne : id ≠ p.previousId) (hrow : rows.get? id = some row) :
    ∃ row', (planRows host now p rows).get? id = some row' ∧ row'.active = row.active ∧
      row'.supersededBy = row.supersededBy := by
  rw [get?_planRows, if_neg hne]
  split
  · next hid =>
      have hreplacement : p.replacementRow = some row := by
        rw [hp.replacementRow_eq, ← hp.replacement_eq, ← hid, hrow]
      refine ⟨_, rfl, ?_, ?_⟩
      · rw [targetRow, hreplacement]
        rfl
      · rw [targetRow_supersededBy, hreplacement]
        rfl
  · exact ⟨row, hrow, rfl, rfl⟩

/-! ### The log and the table -/

/-- The ids of the log. -/
def StalenessState.retiredIds (st : StalenessState) : List String := st.log.map (·.previousId)

/-- What the table says of the rows of the log, and of the candidates that are not in it. -/
structure Tracked (candidates : List StalenessCandidate) (st : StalenessState) : Prop where
  named : ∀ r ∈ st.log, ∃ c ∈ candidates, c.id = r.previousId
  notOwn : ∀ r ∈ st.log, r.previousId ≠ r.replacementId ∧
    (r.fact.replacementMemoryId ≠ "" →
      r.replacementId = normalizeCandidateId r.fact.replacementMemoryId)
  inactive : ∀ id ∈ st.retiredIds, ∃ row, st.rows.get? id = some row ∧ row.active = some false
  current : ∀ c ∈ candidates, c.id ∉ st.retiredIds →
    ∃ row, st.rows.get? c.id = some row ∧ row.isCurrent = true
  /-- A pointer is the last one the log has for the row. -/
  pointer : ∀ pre r post, st.log = pre ++ r :: post → r.previousId ∉ post.map (·.previousId) →
    supersededByOf st.rows r.previousId = some r.replacementId

theorem tracked_start (hfound : ∀ c ∈ candidates, FoundIn opts rows c) :
    Tracked candidates { rows := rows } where
  named := fun _ h => nomatch h
  notOwn := fun _ h => nomatch h
  inactive := fun _ h => nomatch h
  current := by
    intro c hc _
    obtain ⟨row, hrow, hsweep⟩ := hfound c hc
    refine ⟨row, hrow, ?_⟩
    unfold sweepable at hsweep
    simp only [Bool.and_eq_true] at hsweep
    exact hsweep.2
  pointer := by
    intro pre r post h
    cases pre <;> cases h

variable {st : StalenessState}

/-- **One supersede** keeps the table and the log in step, whether the row was in the log or not. -/
theorem Tracked.retire {world : EntryWorld} {rows' : Rows} {r : Retirement}
    (h : Tracked candidates st)
    (hr : EntryChecked host opts candidates world st.rows rows' r) (superseded : Nat) :
    Tracked candidates ⟨rows', superseded, st.log ++ [r], false⟩ := by
  obtain ⟨input, p, hp, rfl, hprevious, hreplacement⟩ := hr.plan
  have hids : (⟨planRows host world.now p st.rows, superseded, st.log ++ [r], false⟩ :
      StalenessState).retiredIds = st.retiredIds ++ [r.previousId] := by
    simp [StalenessState.retiredIds]
  have hself : (planRows host world.now p st.rows).get? r.previousId =
      some (setPrevious host world.now p p.previousRow) := by
    rw [get?_planRows, if_pos hprevious.symm]
  have hother : ∀ {id row}, id ≠ r.previousId → st.rows.get? id = some row →
      ∃ row', (planRows host world.now p st.rows).get? id = some row' ∧ row'.active = row.active ∧
        row'.supersededBy = row.supersededBy := by
    intro id row hne hrow
    exact get?_planRows_of_ne hp (hprevious ▸ hne) hrow
  constructor
  · intro r' hr'
    rcases List.mem_append.mp hr' with hr' | hr'
    · exact h.named r' hr'
    · rw [List.mem_singleton.mp hr']
      exact hr.named
  · intro r' hr'
    rcases List.mem_append.mp hr' with hr' | hr'
    · exact h.notOwn r' hr'
    · rw [List.mem_singleton.mp hr']
      refine ⟨hr.ne, fun hne => ?_⟩
      rw [hr.replacement, replacementIdOf, if_neg hne]
  · intro id hid
    by_cases heq : id = r.previousId
    · rw [heq]
      exact ⟨_, hself, rfl⟩
    · rw [hids] at hid
      have hold : id ∈ st.retiredIds := by simpa [heq] using hid
      obtain ⟨row, hrow, hactive⟩ := h.inactive id hold
      obtain ⟨row', hrow', hactive', -⟩ := hother heq hrow
      exact ⟨row', hrow', hactive'.trans hactive⟩
  · intro c hc hnot
    rw [hids] at hnot
    simp only [List.mem_append, List.mem_singleton, not_or] at hnot
    obtain ⟨row, hrow, hcurrent⟩ := h.current c hc hnot.1
    obtain ⟨row', hrow', hactive, -⟩ := hother hnot.2 hrow
    refine ⟨row', hrow', ?_⟩
    rw [MemoryRow.isCurrent, hactive]
    exact hcurrent
  · intro pre r' post hlog hlast
    rcases List.eq_nil_or_concat post with rfl | ⟨post', last, rfl⟩
    · -- the new entry
      obtain ⟨-, hone⟩ := List.append_inj' hlog rfl
      obtain ⟨rfl, -⟩ := List.cons.inj hone
      rw [supersededByOf, hself, ← hreplacement]
      rfl
    · have hlog' : st.log ++ [r] = (pre ++ r' :: post') ++ [last] := by simpa using hlog
      obtain ⟨hold, hlast'⟩ := List.append_inj' hlog' rfl
      obtain ⟨rfl, -⟩ := List.cons.inj hlast'
      simp only [List.concat_eq_append, List.map_append, List.map_cons, List.map_nil,
        List.mem_append, List.mem_singleton, not_or] at hlast
      have hpointer := h.pointer pre r' post' hold hlast.1
      have hmem : r'.previousId ∈ st.retiredIds := by
        rw [StalenessState.retiredIds, hold]
        simp
      obtain ⟨row, hrow, -⟩ := h.inactive _ hmem
      obtain ⟨row', hrow', -, hby⟩ := hother hlast.2 hrow
      rw [supersededByOf, hrow] at hpointer
      rw [supersededByOf, hrow', Option.bind_some, hby]
      exact hpointer

/-! ### A whole pass -/

/-- What the claim of at most one retirement asks of the state a pass leaves. -/
structure RetiresOnce (opts : StalenessOpts) (world : StalenessWorld) (rows : Rows)
    (final : StalenessState) : Prop where
  /-- It retires rows that its searches found, in the user's scope and active. -/
  found : ∀ r ∈ final.log, ∃ candidates c row, stalenessCandidates world opts rows = some candidates ∧
    c ∈ candidates ∧ c.id = r.previousId ∧ rows.get? r.previousId = some row ∧
    sweepable opts.userId opts.scope row = true
  /-- It does not retire the memory of the fact. -/
  notOwn : ∀ r ∈ final.log, r.previousId ≠ r.replacementId ∧
    (r.fact.replacementMemoryId ≠ "" →
      r.replacementId = normalizeCandidateId r.fact.replacementMemoryId)
  /-- It retires no row twice. -/
  once : final.retiredIds.Nodup
  /-- The first pointer of a row is the one it keeps. -/
  kept : ∀ r ∈ final.log, supersededByOf final.rows r.previousId = some r.replacementId

/-- The entry, if it supersedes, names a row that is still active. -/
def NamesActive (host : Host) (opts : StalenessOpts) (candidates : List StalenessCandidate)
    (world : Nat → EntryWorld) (st : StalenessState) (entry : Value × Nat) : Prop :=
  ∀ r rows' answered, st.thrown = false →
    entryEffect host opts candidates (world entry.2) st.rows entry.1 = .retired r rows' answered →
      ∃ row, st.rows.get? r.previousId = some row ∧ row.isCurrent = true

/-- Every entry of the reply does, in the state it is processed in. -/
def NamesActiveThroughout (host : Host) (world : StalenessWorld) (opts : StalenessOpts)
    (rows : Rows) : Prop :=
  ∀ candidates entries, stalenessCandidates world opts rows = some candidates →
    world.staleEntries = some entries →
      Runs.Along (fun st e => some (processEntry host opts candidates world.entry st e))
        (NamesActive host opts candidates world.entry) { rows := rows } entries.zipIdx

section
variable {world : Nat → EntryWorld}

/-- An entry leaves the state as it is, but for the flag, or appends what it retires. -/
theorem processEntry_cases (host : Host) (opts : StalenessOpts)
    (candidates : List StalenessCandidate) (world : Nat → EntryWorld) (st : StalenessState)
    (entry : Value × Nat) :
    ((processEntry host opts candidates world st entry).rows = st.rows ∧
        (processEntry host opts candidates world st entry).log = st.log ∧
        NamesActive host opts candidates world st entry) ∨
      ∃ r rows' answered superseded, st.thrown = false ∧
        entryEffect host opts candidates (world entry.2) st.rows entry.1 =
          .retired r rows' answered ∧
        processEntry host opts candidates world st entry =
          ⟨rows', superseded, st.log ++ [r], false⟩ := by
  unfold processEntry NamesActive
  cases hthrown : st.thrown with
  | true => exact Or.inl ⟨rfl, rfl, fun _ _ _ h => nomatch h⟩
  | false =>
      cases heffect : entryEffect host opts candidates (world entry.2) st.rows entry.1 with
      | skipped => exact Or.inl ⟨rfl, rfl, fun _ _ _ _ h => nomatch h⟩
      | threw => exact Or.inl ⟨rfl, rfl, fun _ _ _ _ h => nomatch h⟩
      | retired r rows' answered => exact Or.inr ⟨r, rows', answered, _, rfl, rfl, rfl⟩

theorem Tracked.of_eq {st st' : StalenessState} (h : Tracked candidates st)
    (hrows : st'.rows = st.rows) (hlog : st'.log = st.log) : Tracked candidates st' := by
  obtain ⟨rows, superseded, log, thrown⟩ := st
  obtain ⟨rows', superseded', log', thrown'⟩ := st'
  cases hrows
  cases hlog
  exact ⟨h.named, h.notOwn, h.inactive, h.current, h.pointer⟩

theorem Tracked.processEntry (h : Tracked candidates st)
    (entry : Value × Nat) : Tracked candidates (processEntry host opts candidates world st entry) := by
  rcases processEntry_cases host opts candidates world st entry with
    ⟨hrows, hlog, -⟩ | ⟨r, rows', answered, superseded, -, heffect, hst⟩
  · exact h.of_eq hrows hlog
  · rw [hst]
    exact h.retire (checked_of_entryEffect heffect) superseded

theorem Tracked.foldl (h : Tracked candidates st) (entries : List (Value × Nat)) :
    Tracked candidates (entries.foldl (Runir.processEntry host opts candidates world) st) := by
  induction entries generalizing st with
  | nil => exact h
  | cons entry entries ih => exact ih (h.processEntry entry)

/-- The log only grows. -/
theorem log_foldl (st : StalenessState) (entries : List (Value × Nat)) :
    st.log <+: (entries.foldl (Runir.processEntry host opts candidates world) st).log := by
  induction entries generalizing st with
  | nil => exact List.prefix_rfl
  | cons entry entries ih =>
      refine List.IsPrefix.trans ?_ (ih _)
      rcases processEntry_cases host opts candidates world st entry with
        ⟨-, hlog, -⟩ | ⟨r, rows', answered, superseded, -, -, hst⟩
      · exact ⟨[], by rw [List.append_nil, hlog]⟩
      · rw [hst]
        exact List.prefix_append _ _

/-- **The exact guard.**  A row of the log is inactive and any other candidate is not, so that an
entry retires a row for the first time exactly when the row is active. -/
theorem nodup_retiredIds_iff (h : Tracked candidates st)
    (hnodup : st.retiredIds.Nodup) (entries : List (Value × Nat)) :
    (entries.foldl (Runir.processEntry host opts candidates world) st).retiredIds.Nodup ↔
      Runs.Along (fun st e => some (Runir.processEntry host opts candidates world st e))
        (NamesActive host opts candidates world) st entries := by
  induction entries generalizing st with
  | nil => exact iff_of_true hnodup trivial
  | cons entry entries ih =>
      rw [List.foldl_cons, Runs.Along]
      rcases processEntry_cases host opts candidates world st entry with
        ⟨hrows, hlog, hnames⟩ | ⟨r, rows', answered, superseded, hthrown, heffect, hst⟩
      · have hids : (Runir.processEntry host opts candidates world st entry).retiredIds =
            st.retiredIds := congrArg (List.map _) hlog
        rw [ih (h.of_eq hrows hlog) (hids ▸ hnodup)]
        exact (and_iff_right hnames).symm
      · have hids : (Runir.processEntry host opts candidates world st entry).retiredIds =
            st.retiredIds ++ [r.previousId] := by
          rw [hst]
          simp [StalenessState.retiredIds]
        by_cases hmem : r.previousId ∈ st.retiredIds
        · -- the row has been retired before
          refine iff_of_false (fun hfinal => ?_) fun hguard => ?_
          · have hshort : (st.retiredIds ++ [r.previousId]).Nodup :=
              hfinal.sublist (hids ▸ ((log_foldl _ entries).map _).sublist)
            exact (List.nodup_append.mp hshort).2.2 _ hmem _ (List.mem_singleton_self _) rfl
          · obtain ⟨row, hrow, hcurrent⟩ := hguard.1 r rows' answered hthrown heffect
            obtain ⟨row', hrow', hinactive⟩ := h.inactive _ hmem
            obtain rfl := Option.some.inj (hrow.symm.trans hrow')
            simp [MemoryRow.isCurrent, hinactive] at hcurrent
        · have hnames : NamesActive host opts candidates world st entry := by
            intro r₁ rows₁ answered₁ _ heffect₁
            obtain ⟨rfl, -, -⟩ := EntryEffect.retired.inj (heffect.symm.trans heffect₁)
            obtain ⟨c, hc, hid⟩ := (checked_of_entryEffect heffect).named
            rw [← hid] at hmem ⊢
            exact h.current c hc hmem
          have hnodup' : (Runir.processEntry host opts candidates world st entry).retiredIds.Nodup := by
            rw [hids]
            refine List.nodup_append.mpr ⟨hnodup, List.nodup_singleton _, ?_⟩
            rintro a ha b hb rfl
            rw [List.mem_singleton.mp hb] at ha
            exact hmem ha
          rw [ih (h.processEntry entry) hnodup']
          exact (and_iff_right hnames).symm

end

/-- The state a pass leaves: it has processed the reply about its candidates, or nothing. -/
theorem runStaleness_cases (host : Host) (world : StalenessWorld) (opts : StalenessOpts)
    (rows : Rows) :
    (∃ candidates entries, stalenessCandidates world opts rows = some candidates ∧
        world.staleEntries = some entries ∧
        (runStalenessCoreNoLock host world opts rows).1 =
          entries.zipIdx.foldl (processEntry host opts candidates world.entry) { rows := rows }) ∨
      ((runStalenessCoreNoLock host world opts rows).1.log = [] ∧
        NamesActiveThroughout host world opts rows) := by
  unfold runStalenessCoreNoLock
  split
  · next hnone =>
      refine Or.inr ⟨rfl, fun candidates _ h _ => ?_⟩
      rw [hnone] at h
      cases h
  · next hnil =>
      refine Or.inr ⟨rfl, fun candidates entries h _ => Runs.Along.of_forall fun st entry _ => ?_⟩
      rw [hnil] at h
      obtain rfl := Option.some.inj h
      intro r rows' answered _ heffect
      obtain ⟨c, hc, -⟩ := (checked_of_entryEffect heffect).named
      cases hc
  · next candidates _ hcandidates =>
      split
      · next hnone =>
          refine Or.inr ⟨rfl, fun _ entries _ h => ?_⟩
          rw [hnone] at h
          cases h
      · next entries hentries => exact Or.inl ⟨candidates, entries, hcandidates, hentries, rfl⟩

/-- **When a pass retires each memory at most once**: exactly when every entry of the reply that
supersedes names a row that is still active. -/
theorem staleness_once_iff (host : Host) (world : StalenessWorld) (opts : StalenessOpts)
    (rows : Rows) :
    RetiresOnce opts world rows (runStalenessCoreNoLock host world opts rows).1 ↔
      NamesActiveThroughout host world opts rows := by
  rcases runStaleness_cases host world opts rows with
    ⟨candidates, entries, hcandidates, hentries, hfinal⟩ | ⟨hlog, hnames⟩
  · have hfound := foundIn_of_stalenessCandidates hcandidates
    have hstart : Tracked candidates { rows := rows } := tracked_start hfound
    have hiff : (entries.zipIdx.foldl (processEntry host opts candidates world.entry)
        { rows := rows }).retiredIds.Nodup ↔ _ :=
      nodup_retiredIds_iff hstart List.nodup_nil entries.zipIdx
    have hthroughout : NamesActiveThroughout host world opts rows ↔
        Runs.Along (fun st e => some (processEntry host opts candidates world.entry st e))
          (NamesActive host opts candidates world.entry) { rows := rows } entries.zipIdx := by
      refine ⟨fun h => h candidates entries hcandidates hentries, fun h candidates' entries' hc he => ?_⟩
      obtain rfl := Option.some.inj (hcandidates.symm.trans hc)
      obtain rfl := Option.some.inj (hentries.symm.trans he)
      exact h
    rw [hthroughout, ← hiff, hfinal]
    refine ⟨fun h => h.once, fun hnodup => ?_⟩
    have htracked : Tracked candidates
        (entries.zipIdx.foldl (processEntry host opts candidates world.entry) { rows := rows }) :=
      hstart.foldl entries.zipIdx
    refine ⟨fun r hr => ?_, htracked.notOwn, hnodup, fun r hr => ?_⟩
    · obtain ⟨c, hc, hid⟩ := htracked.named r hr
      obtain ⟨row, hrow, hsweep⟩ := hfound c hc
      exact ⟨candidates, c, row, hcandidates, hc, hid, hid ▸ hrow, hsweep⟩
    · -- without repetitions every entry is the last one for its row
      obtain ⟨pre, post, hlog⟩ := List.append_of_mem hr
      refine htracked.pointer pre r post hlog fun hmem => ?_
      rw [StalenessState.retiredIds, hlog, List.map_append, List.map_cons] at hnodup
      exact (List.nodup_cons.mp (List.nodup_append.mp hnodup).2.1).1 hmem
  · refine iff_of_true ⟨?_, ?_, ?_, ?_⟩ hnames
    · rw [hlog]
      exact fun _ h => nomatch h
    · rw [hlog]
      exact fun _ h => nomatch h
    · rw [StalenessState.retiredIds, hlog]
      exact List.nodup_nil
    · rw [hlog]
      exact fun _ h => nomatch h

/-! ### A reply that repeats itself -/

/-- Two new facts, with their memories `B` and `C`. -/
def staleOpts : StalenessOpts where
  userId := "u"
  scope := .user
  facts := [⟨"the port is 8", "B"⟩, ⟨"the port is 9", "C"⟩]

/-- An entry that calls `A` stale beside a fact. -/
def staleEntry (index : ℚ) : Value :=
  .obj (.cons "existingId" (.str "A") (.cons "reason" (.str "changed")
    (.cons "supersededByNewFactIndex" (.num index) .nil)))

/-- The searches find `A`, and the model finds it stale twice. -/
def repeatingWorld : StalenessWorld where
  matched := fun _ => some ["A"]
  near := fun _ => some []
  staleEntries := some [staleEntry 0, staleEntry 1]
  entry := fun i => { now := 20 + i, uuid := "fresh", staleSince := "2026-01-01T00:00:00.000Z" }

/-- **A memory retired twice.**  `A` is superseded by `B`, and then by `C`. -/
theorem staleness_repeats :
    ¬RetiresOnce staleOpts repeatingWorld loneRows
      (runStalenessCoreNoLock .ascii repeatingWorld staleOpts loneRows).1 := by
  intro h
  have hids : (runStalenessCoreNoLock .ascii repeatingWorld staleOpts loneRows).1.retiredIds =
      ["A", "A"] := by decide +kernel
  have honce := h.once
  rw [hids] at honce
  exact absurd honce (by decide)

end Runir
