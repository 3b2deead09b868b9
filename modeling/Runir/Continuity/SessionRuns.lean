import Runir.Continuity.SessionStore

/-!
# Continuity — Session rows, in flight

Calls of `resolveRunirSession` and steps of the idle janitor on one table, whose queries may fail
before or after they have taken effect.

* `RunirSessionRow.Kept`: what of a row has to stay.
* `sessionDiscipline`: every row is kept, and the two steps that go wrong: an upsert over a row, and
  an update of a row with aliases its call has not read.
* `sessions_kept`: in a run without such steps every row is kept by every step, and a call that has
  returned finds its native session id among the aliases from then on.
-/

namespace Runir
open Shared

/-! ### Rows -/

namespace RunirSessionRow

/-- The row opened when it did, its last close has not gone back, and its aliases are there. -/
structure Kept (row row' : RunirSessionRow) : Prop where
  opened : row'.openedAt = row.openedAt
  closed : ∀ t, row.lastClosedAt = some t → ∃ t', row'.lastClosedAt = some t' ∧ t ≤ t'
  aliases : ∀ a ∈ row.nativeSessionAliases, a ∈ row'.nativeSessionAliases

theorem Kept.refl (row : RunirSessionRow) : row.Kept row :=
  ⟨rfl, fun t h => ⟨t, h, le_rfl⟩, fun _ h => h⟩

end RunirSessionRow

/-- Where a close goes on from, it does not go back. -/
theorem le_advanceClose {last : Int} (t : Int) :
    ∃ t', advanceClose (some last) t = some t' ∧ last ≤ t' := by
  unfold advanceClose
  dsimp only
  split
  · exact ⟨t, rfl, by omega⟩
  · exact ⟨last, rfl, le_rfl⟩

theorem kept_apply {row : RunirSessionRow} {u : SessionUpdate}
    (haliases : ∀ a ∈ row.nativeSessionAliases, a ∈ u.nativeSessionAliases) :
    row.Kept (u.apply row) := by
  refine ⟨rfl, fun t ht => ?_, haliases⟩
  unfold SessionUpdate.apply
  dsimp only
  rw [ht]
  cases u.lastClosedAt with
  | none => exact ⟨t, rfl, le_rfl⟩
  | some t' => exact le_advanceClose t'

theorem kept_closeIdle (row : RunirSessionRow) : row.Kept row.closeIdle := by
  refine ⟨rfl, fun t ht => ?_, fun _ h => h⟩
  unfold RunirSessionRow.closeIdle
  dsimp only
  rw [ht]
  exact le_advanceClose row.lastSeenAt

namespace SessionTable
variable {s s' : SessionTable}

def KeepsRows (s s' : SessionTable) : Prop :=
  ∀ id row, s.get? id = some row → ∃ row', s'.get? id = some row' ∧ row.Kept row'

theorem keepsRows_refl (s : SessionTable) : KeepsRows s s := fun _ row hrow => ⟨row, hrow, .refl row⟩

theorem keepsRows_set {id : String} {row : RunirSessionRow}
    (h : ∀ old, s.get? id = some old → old.Kept row) : KeepsRows s (s.set id row) := by
  intro id' old hold
  by_cases hid : id' = id
  · subst hid
    exact ⟨row, OrdMap.get?_set_self s id' row, h old hold⟩
  · exact ⟨old, (OrdMap.get?_set_ne s row hid).trans hold, .refl old⟩

theorem keepsRows_closeIdle (p : RunirSessionRow → Bool) :
    KeepsRows s (s.mapValues fun row => if p row then row.closeIdle else row) := by
  intro id row hrow
  refine ⟨_, by rw [OrdMap.get?_mapValues, hrow]; rfl, ?_⟩
  dsimp only
  split
  · exact kept_closeIdle row
  · exact .refl row

end SessionTable

/-! ### The discipline -/

/-- The row a call has last read. -/
def lastRow : Heard SessionQuery SessionQuery.Reply → Option RunirSessionRow
  | [] => none
  | ⟨.find _, some row⟩ :: _ => row
  | _ :: h => lastRow h

section
variable (fingerprint : String → String)

/-- The row a call is about, and its native session id. -/
def SessionCall.native? : SessionCall → Option (String × String)
  | .resolve input =>
      (input.tokens fingerprint).nativeSessionId.map fun n => (input.recordId fingerprint, n)
  | .janitor _ _ _ _ => none

/-- An upsert finds no row; an update finds no alias but those its call has read, and its own. -/
def resolvesFresh (calls : Nat → SessionCall) (i : Nat) (h : Heard SessionQuery SessionQuery.Reply)
    (q : SessionQuery) (fate : Fate) (s : SessionTable) : Prop :=
  match q with
  | .upsert id _ => fate ≠ .failed → s.get? id = none
  | .update id _ => fate ≠ .failed → ∀ row, s.get? id = some row → ∀ a ∈ row.nativeSessionAliases,
      (∃ read, lastRow h = some read ∧ a ∈ read.nativeSessionAliases) ∨
        ((calls i).native? fingerprint).map (·.2) = some a
  | .find _ => True
  | .countIdle _ _ _ => True
  | .closeIdle _ _ => True

def sessionDiscipline (calls : Nat → SessionCall) :
    Discipline Nat SessionTable SessionQuery SessionQuery.Reply where
  perform := SessionTable.perform
  inv _ := True
  may _ := SessionTable.KeepsRows
  guard := resolvesFresh fingerprint calls

/-- A row has an alias. -/
def HasAlias (id a : String) (s : SessionTable) : Prop :=
  ∃ row, s.get? id = some row ∧ a ∈ row.nativeSessionAliases

/-- A call finds its native session id. -/
def SessionNamed (calls : Nat → SessionCall) (i : Nat) (s : SessionTable) : Prop :=
  ∀ id a, (calls i).native? fingerprint = some (id, a) → HasAlias id a s

variable {fingerprint} {calls : Nat → SessionCall} {i : Nat}
  {h : Heard SessionQuery SessionQuery.Reply}

theorem stable_hasRow (id : String) :
    (sessionDiscipline fingerprint calls).Stable i fun s => ∃ row, s.get? id = some row := by
  rintro j _ s s' _ ⟨row, hrow⟩ hmay
  obtain ⟨row', hrow', _⟩ := hmay id row hrow
  exact ⟨row', hrow'⟩

theorem stable_named : (sessionDiscipline fingerprint calls).Stable i
    (SessionNamed fingerprint calls i) := by
  intro j _ s s' _ hnamed hmay id a hnative
  obtain ⟨row, hrow, ha⟩ := hnamed id a hnative
  obtain ⟨row', hrow', hkept⟩ := hmay id row hrow
  exact ⟨row', hrow', hkept.aliases a ha⟩

theorem mem_extendAliases {a : String} {aliases : List String} {n : Option String} :
    a ∈ extendAliases aliases n ↔ a ∈ aliases ∨ n = some a := by
  unfold extendAliases
  rw [mem_distinct, List.mem_append, Option.mem_toList]

variable {input : ResolveRunirSessionInput}

theorem native?_resolve (hcall : calls i = .resolve input) {id a : String} :
    (calls i).native? fingerprint = some (id, a) ↔
      id = input.recordId fingerprint ∧ (input.tokens fingerprint).nativeSessionId = some a := by
  rw [hcall, SessionCall.native?, Option.map_eq_some_iff]
  constructor
  · rintro ⟨n, hn, ⟨⟩⟩
    exact ⟨rfl, hn⟩
  · rintro ⟨rfl, hn⟩
    exact ⟨a, hn, rfl⟩

/-- The update of a call that has read the row. -/
theorem keeps_update (hcall : calls i = .resolve input)
    {existing : RunirSessionRow} (hread : lastRow h = some existing) :
    (sessionDiscipline fingerprint calls).Keeps i
      (.update (input.recordId fingerprint) (input.update fingerprint existing)) h
      (fun s => ∃ row, s.get? (input.recordId fingerprint) = some row)
      (fun r s => r.isSome = true → SessionNamed fingerprint calls i s) := by
  refine Discipline.keeps_of_perform (fun s => SessionTable.keepsRows_refl s)
    (fun fate s hfate _ hP hguard => ?_) fun _ _ _ hr => nomatch hr
  obtain ⟨row, hrow⟩ := hP
  have hperform : (SessionTable.perform i
      (.update (input.recordId fingerprint) (input.update fingerprint existing)) s).1 =
      s.set (input.recordId fingerprint) ((input.update fingerprint existing).apply row) := by
    simp only [SessionTable.perform, hrow]
  have haliases : ∀ a ∈ row.nativeSessionAliases,
      a ∈ (input.update fingerprint existing).nativeSessionAliases := by
    intro a ha
    refine mem_extendAliases.mpr ?_
    rcases hguard hfate row hrow a ha with ⟨read, hread', hmem⟩ | hown
    · rw [hread] at hread'
      obtain rfl := Option.some.inj hread'
      exact .inl hmem
    · obtain ⟨⟨id, a'⟩, hnative, rfl⟩ := Option.map_eq_some_iff.mp hown
      exact .inr ((native?_resolve hcall).mp hnative).2
  refine ⟨trivial, ?_, fun _ _ => ?_, fun hr => nomatch hr⟩
  · change SessionTable.KeepsRows s (SessionTable.perform i _ s).1
    rw [hperform]
    refine SessionTable.keepsRows_set fun old hold => ?_
    rw [hrow] at hold
    obtain rfl := Option.some.inj hold
    exact kept_apply haliases
  · change SessionNamed fingerprint calls i (SessionTable.perform i _ s).1
    rw [hperform]
    intro id a hnative
    obtain ⟨rfl, hn⟩ := (native?_resolve hcall).mp hnative
    exact ⟨_, OrdMap.get?_set_self s _ _, mem_extendAliases.mpr (.inr hn)⟩

/-- The upsert of a call that has found no row. -/
theorem keeps_upsert (hcall : calls i = .resolve input) :
    (sessionDiscipline fingerprint calls).Keeps i
      (.upsert (input.recordId fingerprint) (input.newRow fingerprint)) h (fun _ => True)
      (fun r s => r.isSome = true → SessionNamed fingerprint calls i s) := by
  refine Discipline.keeps_of_perform (fun s => SessionTable.keepsRows_refl s)
    (fun fate s hfate _ _ hguard => ?_) fun _ _ _ hr => nomatch hr
  refine ⟨trivial, SessionTable.keepsRows_set fun old hold => ?_, fun _ _ => ?_, fun hr => nomatch hr⟩
  · rw [hguard hfate] at hold
    exact nomatch hold
  · intro id a hnative
    obtain ⟨rfl, hn⟩ := (native?_resolve hcall).mp hnative
    exact ⟨_, OrdMap.get?_set_self s _ _, Option.mem_toList.mpr hn⟩

theorem safe_resolve (hcall : calls i = .resolve input) :
    (sessionDiscipline fingerprint calls).Safe (fun i _ => SessionNamed fingerprint calls i) i
      (resolveRunirSession fingerprint input) h fun _ => True := by
  -- what the read tells: a row that was found is there
  refine Discipline.Safe.query (fun r s => ∀ existing, r = some (some existing) →
    ∃ row, s.get? (input.recordId fingerprint) = some row) ?_ ?_ fun found => ?_
  · intro r j hj s s' hinv hP hmay existing hr
    exact stable_hasRow _ j hj s s' hinv (hP existing hr) hmay
  · refine Discipline.keeps_of_perform (fun s => SessionTable.keepsRows_refl s)
      (fun fate s _ _ _ _ => ⟨trivial, SessionTable.keepsRows_refl s, fun _ existing hr => ?_,
        fun _ hr => nomatch hr⟩) fun _ _ _ _ hr => nomatch hr
    exact ⟨existing, Option.some.inj hr⟩
  · match found with
    | some existing =>
        refine (Discipline.Safe.query _ (fun _ => .imp fun _ => stable_named) (keeps_update hcall rfl)
          fun updated => ?_).mono fun s hP => hP existing rfl
        exact fun s _ hP => hP rfl
    | none =>
        refine (Discipline.Safe.query _ (fun _ => .imp fun _ => stable_named) (keeps_upsert hcall)
          fun _ => ?_).mono fun _ _ => trivial
        exact fun s _ hP => hP rfl

/-- A query that keeps every row. -/
theorem keeps_kept {q : SessionQuery}
    (hq : ∀ s, SessionTable.KeepsRows s (SessionTable.perform i q s).1) :
    (sessionDiscipline fingerprint calls).Keeps i q h (fun _ => True) fun _ _ => True :=
  Discipline.keeps_of_perform (fun s => SessionTable.keepsRows_refl s)
    (fun _ s _ _ _ _ => ⟨trivial, hq s, fun _ => trivial, trivial⟩) fun _ _ _ => trivial

theorem safe_janitor (now : Int) (idleH gapLookbackH : ℚ) (userId : String) :
    (sessionDiscipline fingerprint calls).Safe (fun _ _ _ => True) i
      (runSessionIdleJanitorStep now idleH gapLookbackH userId) h fun _ => True := by
  unfold runSessionIdleJanitorStep
  split
  · exact fun _ _ _ => trivial
  · refine Discipline.Safe.query _ (fun _ => Discipline.stable_true) (keeps_kept fun s => SessionTable.keepsRows_refl s)
      fun preflight => ?_
    split
    · exact fun _ _ _ => trivial
    · refine Discipline.Safe.query _ (fun _ => Discipline.stable_true) (keeps_kept fun s => ?_) fun _ _ _ _ => trivial
      exact SessionTable.keepsRows_closeIdle _

theorem safe_routine (calls : Nat → SessionCall) (i : Nat) :
    (sessionDiscipline fingerprint calls).Safe (fun i _ => SessionNamed fingerprint calls i) i
      ((calls i).routine fingerprint) h fun _ => True := by
  cases hcall : calls i with
  | resolve input => exact (safe_resolve hcall).bind fun _ _ _ _ hnamed => hnamed
  | janitor now idleH gapLookbackH userId =>
      refine (safe_janitor now idleH gapLookbackH userId).bind fun _ _ _ _ _ id a hnative => ?_
      rw [hcall] at hnative
      exact nomatch hnative

end

/-! ### Runs -/

/-- **Session rows are kept** in a run whose upserts find no row and whose updates find no alias
their call has not read: every step keeps when a row was opened, its last close and its aliases, and
the native session id of every call that has returned is an alias of its row. -/
theorem sessions_kept (fingerprint : String → String) (calls : Nat → SessionCall) (s : SessionTable)
    (as : List (Nat × Fate))
    (w : World Nat SessionTable SessionQuery SessionQuery.Reply (Option RunirSessionRecord))
    (hfair : Runs.Along (step SessionTable.perform) (sessionDiscipline fingerprint calls).Guarded
      (start s fun i => (calls i).routine fingerprint) as)
    (hrun : Runs.exec (step SessionTable.perform)
      (start s fun i => (calls i).routine fingerprint) as = some w) :
    Runs.Along (step SessionTable.perform)
      (fun w a => ∀ w', step SessionTable.perform w a = some w' → w.store.KeepsRows w'.store)
      (start s fun i => (calls i).routine fingerprint) as ∧
    ∀ i record, w.routine i = .ret record → SessionNamed fingerprint calls i w.store := by
  have hstart : (sessionDiscipline fingerprint calls).Sound
      (fun i (_ : Option RunirSessionRecord) => SessionNamed fingerprint calls i)
      (start s fun i => (calls i).routine fingerprint) :=
    Discipline.sound_start trivial fun i =>
      ⟨fun _ => True, Discipline.stable_true, trivial, safe_routine calls i⟩
  exact ⟨hstart.along hfair, fun i record hret => (hstart.exec hfair hrun).ret hret⟩

/-! ### Two first resolves -/

/-- A call that opens a session, and one that closes it. -/
def oneSession : Nat → SessionCall
  | 0 => .resolve { userId := "ann", projectKey := some "k", nativeSessionId := some "a", now := 3 }
  | _ => .resolve
      { userId := "ann", projectKey := some "k", nativeSessionId := some "b", status := some .closed
        now := 2 }

/-- The row of both. -/
def oneSessionId : String := "runir_session_ann::k::-::-::-::-"

theorem sessions_kept_one :
    ∃ w, Runs.exec (step SessionTable.perform)
        (start OrdMap.empty fun i => (oneSession i).routine fun v => v)
        [(0, .done), (0, .done), (1, .done)] = some w ∧
      Runs.Along (step SessionTable.perform)
        (fun w a => ∀ w', step SessionTable.perform w a = some w' → w.store.KeepsRows w'.store)
        (start OrdMap.empty fun i => (oneSession i).routine fun v => v)
        [(0, .done), (0, .done), (1, .done)] ∧
      ∀ i record, w.routine i = .ret record →
        SessionNamed (fun v => v) oneSession i w.store :=
  ⟨_, rfl, sessions_kept (fun v => v) oneSession OrdMap.empty [(0, .done), (0, .done), (1, .done)] _
    ⟨trivial, fun _ => rfl, trivial, trivial⟩ rfl⟩

/-- Both calls find no row; the one closes the session, and the other writes over it. -/
theorem session_overwritten :
    ∃ w w' : World Nat SessionTable SessionQuery SessionQuery.Reply (Option RunirSessionRecord),
      Runs.exec (step SessionTable.perform)
        (start OrdMap.empty fun i => (oneSession i).routine fun v => v)
        [(0, .done), (1, .done), (1, .done)] = some w ∧
      step SessionTable.perform w (0, .done) = some w' ∧
      (∃ record, w.routine 1 = .ret (some record)) ∧
      (w.store.get? oneSessionId).map (fun row =>
        (row.openedAt, row.lastClosedAt, row.nativeSessionAliases)) = some (2, some 2, ["b"]) ∧
      (w'.store.get? oneSessionId).map (fun row =>
        (row.openedAt, row.lastClosedAt, row.nativeSessionAliases)) = some (3, none, ["a"]) :=
  ⟨_, _, rfl, rfl, ⟨_, rfl⟩, by decide +kernel, by decide +kernel⟩

end Runir
