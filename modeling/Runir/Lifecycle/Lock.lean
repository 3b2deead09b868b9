import Mathlib.Data.List.Nodup
import Mathlib.Data.Rat.Floor
import Runir.Lib.Runs

/-!
# Lifecycle — The consolidation lock

`acquireLock`, `extendLock` and `releaseLock` of `src/lifecycle/semion/lock.ts`, statement by
statement, under a clock of the database that other calls let run on.

* `LockRow`, `createLock`: the table and its unique index on the key.
* `Locks.step`: one statement of one call.
* `lease_exclusion`: one holder at a time; a late heartbeat or release touches no other's row.

A holder is a random UUID, drawn once for each call of `acquireLock`.
-/

namespace Runir

/-! ### The table -/

structure LockRow where
  lockKey : String
  holder : String
  expiresAt : Int
  acquiredAt : Int
  deriving DecidableEq

def LockRow.unexpired (now : Int) (row : LockRow) : Prop := now < row.expiresAt

/-- `DELETE … WHERE lock_key = $key AND expires_at <= time::now()`. -/
def deleteExpiredLocks (now : Int) (key : String) (rows : List LockRow) : List LockRow :=
  rows.filter fun row => !(row.lockKey = key && row.expiresAt ≤ now)

/-- `CREATE`, which the index `idx_cl_key` refuses where the key is taken. -/
def createLock (row : LockRow) (rows : List LockRow) : Option (List LockRow) :=
  if row.lockKey ∈ rows.map (·.lockKey) then none else some (row :: rows)

/-- `UPDATE … SET expires_at = … WHERE lock_key = $key AND holder = $holder`. -/
def extendLock (expiresAt : Int) (key holder : String) (rows : List LockRow) : List LockRow :=
  rows.map fun row =>
    if row.lockKey = key ∧ row.holder = holder then { row with expiresAt := expiresAt } else row

/-- `DELETE … WHERE lock_key = $key AND holder = $holder`. -/
def releaseLock (key holder : String) (rows : List LockRow) : List LockRow :=
  rows.filter fun row => !(row.lockKey = key && row.holder = holder)

/-- The lease of `ttlSeconds`, in milliseconds: at least a second, and whole seconds. -/
def leaseMs (ttlSeconds : ℚ) : Int := max 1 ⌊ttlSeconds⌋ * 1000

/-! ### Calls -/

/-- A call of `acquireLock`, and the holder it draws. -/
structure LockCall where
  key : String
  ttlSeconds : ℚ
  holder : String

/-- How far a call has come.  `held` hands out the holder, with which its caller extends and
releases, late or not. -/
inductive LockPhase where
  | idle
  | cleared (deleted : Bool)
  | held
  | refused
  | thrown
  deriving DecidableEq

structure Locks where
  now : Int
  rows : List LockRow
  phase : Nat → LockPhase

/-- A statement may fail, and then does nothing. -/
inductive LockStep where
  | tick (ms : Nat)
  | delete (i : Nat) (performed : Bool)
  | create (i : Nat) (performed : Bool)
  | extend (i : Nat) (ttlSeconds : ℚ)
  | release (i : Nat)

namespace Locks

def setPhase (i : Nat) (phase : LockPhase) (s : Locks) : Locks :=
  { s with phase := Function.update s.phase i phase }

/-- The second statement of `acquireLock`.  What it throws is the error of the first statement
that failed, and only a taken key reads as contention. -/
def createStep (call : LockCall) (i : Nat) (deleted performed : Bool) (s : Locks) : Locks :=
  if !performed then s.setPhase i .thrown
  else
    match createLock ⟨call.key, call.holder, s.now + leaseMs call.ttlSeconds, s.now⟩ s.rows with
    | none => s.setPhase i (if deleted then .refused else .thrown)
    | some rows => { s with rows := rows }.setPhase i (if deleted then .held else .thrown)

def step (calls : Nat → LockCall) (s : Locks) : LockStep → Option Locks
  | .tick ms => some { s with now := s.now + ms }
  | .delete i performed =>
      match s.phase i with
      | .idle =>
          let rows := if performed then deleteExpiredLocks s.now (calls i).key s.rows else s.rows
          some ({ s with rows := rows }.setPhase i (.cleared performed))
      | _ => none
  | .create i performed =>
      match s.phase i with
      | .cleared deleted => some (s.createStep (calls i) i deleted performed)
      | _ => none
  | .extend i ttlSeconds =>
      if s.phase i = .held then
        some { s with
          rows := Runir.extendLock (s.now + leaseMs ttlSeconds) (calls i).key (calls i).holder s.rows }
      else none
  | .release i =>
      if s.phase i = .held then
        some { s with rows := Runir.releaseLock (calls i).key (calls i).holder s.rows }
      else none

/-! ### The index -/

/-- No two rows have the same key. -/
def Indexed (s : Locks) : Prop := (s.rows.map (·.lockKey)).Nodup

theorem indexed_filter {s : Locks} (h : s.Indexed) (p : LockRow → Bool) :
    ((s.rows.filter p).map (·.lockKey)).Nodup :=
  h.sublist (List.filter_sublist.map _)

/-- Extending keeps the key and the holder of every row. -/
theorem map_extendLock {α : Type*} (f : LockRow → α) (hf : ∀ row at', f { row with expiresAt := at' } = f row)
    (expiresAt : Int) (key holder : String) (rows : List LockRow) :
    (Runir.extendLock expiresAt key holder rows).map f = rows.map f := by
  unfold Runir.extendLock
  rw [List.map_map]
  refine List.map_congr_left fun row _ => ?_
  simp only [Function.comp]
  split
  · exact hf row expiresAt
  · rfl

variable {calls : Nat → LockCall} {s s' : Locks} {a : LockStep}

theorem indexed_step (h : s.Indexed) (hstep : step calls s a = some s') : s'.Indexed := by
  cases a with
  | tick ms =>
      obtain rfl := Option.some.inj hstep
      exact h
  | delete i performed =>
      simp only [step] at hstep
      split at hstep
      · obtain rfl := Option.some.inj hstep
        cases performed with
        | true => exact indexed_filter h _
        | false => exact h
      · cases hstep
  | create i performed =>
      simp only [step] at hstep
      split at hstep
      · obtain rfl := Option.some.inj hstep
        unfold createStep
        split
        · exact h
        · split
          · exact h
          · next rows hrows =>
              unfold createLock at hrows
              split at hrows
              · cases hrows
              · next hfree =>
                  obtain rfl := Option.some.inj hrows
                  exact List.nodup_cons.mpr ⟨hfree, h⟩
      · cases hstep
  | extend i ttlSeconds =>
      simp only [step] at hstep
      split at hstep
      · obtain rfl := Option.some.inj hstep
        unfold Indexed
        rw [map_extendLock (·.lockKey) fun _ _ => rfl]
        exact h
      · cases hstep
  | release i =>
      simp only [step] at hstep
      split at hstep
      · obtain rfl := Option.some.inj hstep
        exact indexed_filter h _
      · cases hstep

variable {as : List LockStep}

theorem indexed_run (h : s.Indexed) (hrun : Runs.exec (step calls) s as = some s') : s'.Indexed :=
  Runs.exec_preserves (fun _ _ _ => indexed_step) h hrun

/-- At most one row under a key. -/
theorem Indexed.eq {s : Locks} (h : s.Indexed) {r₁ r₂ : LockRow} (h₁ : r₁ ∈ s.rows)
    (h₂ : r₂ ∈ s.rows) (hkey : r₁.lockKey = r₂.lockKey) : r₁ = r₂ :=
  List.inj_on_of_nodup_map h h₁ h₂ hkey

/-! ### Rows of other holders -/

variable {row : LockRow}

theorem mem_extendLock {holder : String} (h : row.holder ≠ holder) (expiresAt : Int)
    (key : String) (rows : List LockRow) :
    row ∈ Runir.extendLock expiresAt key holder rows ↔ row ∈ rows := by
  unfold Runir.extendLock
  rw [List.mem_map]
  constructor
  · rintro ⟨row', hmem, heq⟩
    split at heq
    · next hpos =>
        -- a row that was extended keeps its holder
        have hholder : row.holder = holder := by rw [← heq]; exact hpos.2
        exact absurd hholder h
    · rwa [← heq]
  · intro hmem
    exact ⟨row, hmem, if_neg fun hpos => h hpos.2⟩

theorem mem_releaseLock {holder : String} (h : row.holder ≠ holder) (key : String)
    (rows : List LockRow) : row ∈ Runir.releaseLock key holder rows ↔ row ∈ rows := by
  unfold Runir.releaseLock
  rw [List.mem_filter]
  constructor
  · exact And.left
  · intro hmem
    refine ⟨hmem, ?_⟩
    simp [h]

/-- An extension or a release leaves the rows of every other holder as they were. -/
theorem others_kept {i : Nat} (ha : (∃ ttlSeconds, a = .extend i ttlSeconds) ∨ a = .release i)
    (hstep : step calls s a = some s') (hrow : row.holder ≠ (calls i).holder) :
    row ∈ s'.rows ↔ row ∈ s.rows := by
  rcases ha with ⟨ttlSeconds, rfl⟩ | rfl
  · simp only [step] at hstep
    split at hstep
    · obtain rfl := Option.some.inj hstep
      exact mem_extendLock hrow _ _ _
    · cases hstep
  · simp only [step] at hstep
    split at hstep
    · obtain rfl := Option.some.inj hstep
      exact mem_releaseLock hrow _ _
    · cases hstep

/-- **One holder at a time.**  In every store reached from an empty table, whatever the order of
the statements and however the clock runs on, the unexpired rows of a key have one holder; and
extending or releasing as the holder of one call leaves the row of every other call's as it is. -/
theorem lease_exclusion {calls : Nat → LockCall}
    (hholder : Function.Injective fun i => (calls i).holder) {s s' : Locks} {as : List LockStep}
    (h₀ : s.rows = []) (hrun : Runs.exec (step calls) s as = some s') :
    (∀ r₁ ∈ s'.rows, ∀ r₂ ∈ s'.rows, r₁.lockKey = r₂.lockKey → r₁.unexpired s'.now →
        r₂.unexpired s'.now → r₁.holder = r₂.holder) ∧
      ∀ i a s'', (∃ ttlSeconds, a = .extend i ttlSeconds) ∨ a = .release i →
        step calls s' a = some s'' → ∀ j, j ≠ i → ∀ row : LockRow, row.holder = (calls j).holder →
          (row ∈ s''.rows ↔ row ∈ s'.rows) := by
  have hindexed : s'.Indexed := by
    refine indexed_run ?_ hrun
    unfold Indexed
    rw [h₀]
    exact List.nodup_nil
  constructor
  · intro r₁ h₁ r₂ h₂ hkey _ _
    rw [hindexed.eq h₁ h₂ hkey]
  · intro i a s'' ha hstep j hji row hrow
    refine others_kept ha hstep fun heq => hji ?_
    exact hholder (hrow.symm.trans heq)

/-- Calls for one key, each with a holder of its own. -/
def callsOnKey : Nat → LockCall := fun i => ⟨"user::user", 300, String.ofList (.replicate i 'h')⟩

theorem callsOnKey_injective : Function.Injective fun i => (callsOnKey i).holder := by
  intro i j h
  have hlists : List.replicate i 'h' = List.replicate j 'h' := by
    simpa [callsOnKey] using congrArg String.toList h
  simpa using congrArg List.length hlists

def noLocks : Locks := ⟨0, [], fun _ => .idle⟩

/-- The first lease runs out, the second call takes over, and the first extends and releases. -/
def takeover : List LockStep :=
  [.delete 0 true, .create 0 true, .tick 300000, .delete 1 true, .create 1 true, .extend 0 300,
    .release 0]

theorem lease_exclusion_takeover :
    ∃ s, Runs.exec (step callsOnKey) noLocks takeover = some s ∧
      ∀ r₁ ∈ s.rows, ∀ r₂ ∈ s.rows, r₁.lockKey = r₂.lockKey → r₁.unexpired s.now →
        r₂.unexpired s.now → r₁.holder = r₂.holder := by
  have hrun : Runs.exec (step callsOnKey) noLocks takeover =
      some ((Runs.exec (step callsOnKey) noLocks takeover).getD noLocks) :=
    Runs.eq_some_getD noLocks (by decide +kernel)
  exact ⟨_, hrun, (lease_exclusion callsOnKey_injective rfl hrun).1⟩

/-! ### The lease -/

/-- Clearing a key leaves an unexpired row. -/
theorem mem_deleteExpiredLocks {now : Int} (h : row.unexpired now) (key : String)
    (rows : List LockRow) : row ∈ deleteExpiredLocks now key rows ↔ row ∈ rows := by
  unfold deleteExpiredLocks
  rw [List.mem_filter]
  unfold LockRow.unexpired at h
  constructor
  · exact And.left
  · intro hmem
    refine ⟨hmem, ?_⟩
    simp [not_le.mpr h]

/-- A `CREATE` keeps the rows there are, and succeeds only where its key has none. -/
theorem createStep_spec (call : LockCall) (j : Nat) (deleted performed : Bool) (s : Locks) :
    ∃ rows phase, s.createStep call j deleted performed = { s with rows := rows }.setPhase j phase ∧
      s.rows ⊆ rows ∧ (phase = .held → ∀ row ∈ s.rows, row.lockKey ≠ call.key) := by
  unfold createStep createLock
  split
  · exact ⟨s.rows, .thrown, rfl, List.Subset.refl _, nofun⟩
  · by_cases htaken : call.key ∈ s.rows.map (·.lockKey)
    · rw [if_pos htaken]
      exact ⟨s.rows, _, rfl, List.Subset.refl _, by cases deleted <;> nofun⟩
    · rw [if_neg htaken]
      exact ⟨_, _, rfl, List.subset_cons_self _ _, fun _ row hrow hkey =>
        htaken (List.mem_map.mpr ⟨row, hrow, hkey⟩)⟩

/-- The row of a call's holder is there, and has not expired. -/
def Leased (calls : Nat → LockCall) (i : Nat) (s : Locks) : Prop :=
  ∃ row ∈ s.rows, row.lockKey = (calls i).key ∧ row.holder = (calls i).holder ∧
    row.unexpired s.now

/-- The holder does not give its row up, and the clock does not pass the end of it. -/
def Renewed (calls : Nat → LockCall) (i : Nat) (s : Locks) : LockStep → Prop
  | .tick ms => ∀ row ∈ s.rows, row.holder = (calls i).holder → row.unexpired (s.now + ms)
  | .release j => j ≠ i
  | _ => True

theorem leaseMs_pos (ttlSeconds : ℚ) : 0 < leaseMs ttlSeconds := by
  unfold leaseMs
  have hone : 1 ≤ max 1 ⌊ttlSeconds⌋ := le_max_left 1 _
  omega

/-- While a call's lease is renewed, it lasts. -/
theorem leased_step (hholder : Function.Injective fun i => (calls i).holder) {i : Nat}
    (h : Leased calls i s) (hrenewed : Renewed calls i s a) (hstep : step calls s a = some s') :
    Leased calls i s' := by
  obtain ⟨row, hrow, hkey, hheld, hunexpired⟩ := h
  cases a with
  | tick ms =>
      obtain rfl := Option.some.inj hstep
      exact ⟨row, hrow, hkey, hheld, hrenewed row hrow hheld⟩
  | delete j performed =>
      simp only [step] at hstep
      split at hstep
      · obtain rfl := Option.some.inj hstep
        refine ⟨row, ?_, hkey, hheld, hunexpired⟩
        cases performed with
        | true => exact (mem_deleteExpiredLocks hunexpired _ _).mpr hrow
        | false => exact hrow
      · cases hstep
  | create j performed =>
      simp only [step] at hstep
      split at hstep
      · next deleted _ =>
          obtain rfl := Option.some.inj hstep
          obtain ⟨rows, phase, heq, hrows, -⟩ := createStep_spec (calls j) j deleted performed s
          rw [heq]
          exact ⟨row, hrows hrow, hkey, hheld, hunexpired⟩
      · cases hstep
  | extend j ttlSeconds =>
      by_cases hji : j = i
      · subst hji
        simp only [step] at hstep
        split at hstep
        · obtain rfl := Option.some.inj hstep
          refine ⟨_, List.mem_map.mpr ⟨row, hrow, if_pos ⟨hkey, hheld⟩⟩, hkey, hheld, ?_⟩
          have hpos := leaseMs_pos ttlSeconds
          unfold LockRow.unexpired
          simp only
          omega
        · cases hstep
      · have hother : row.holder ≠ (calls j).holder := fun heq =>
          hji (hholder (heq.symm.trans hheld))
        have hnow : s'.now = s.now := by
          simp only [step] at hstep
          split at hstep
          · obtain rfl := Option.some.inj hstep
            rfl
          · cases hstep
        refine ⟨row, (others_kept (Or.inl ⟨ttlSeconds, rfl⟩) hstep hother).mpr hrow, hkey, hheld, ?_⟩
        rwa [hnow]
  | release j =>
      have hother : row.holder ≠ (calls j).holder := fun heq =>
        hrenewed (hholder (heq.symm.trans hheld))
      have hnow : s'.now = s.now := by
        simp only [step] at hstep
        split at hstep
        · obtain rfl := Option.some.inj hstep
          rfl
        · cases hstep
      refine ⟨row, (others_kept (Or.inr rfl) hstep hother).mpr hrow, hkey, hheld, ?_⟩
      rwa [hnow]

/-- Under a lease no other call of the key comes to hold it. -/
theorem held_step {i j : Nat} (h : Leased calls i s) (hkey : (calls j).key = (calls i).key)
    (hstep : step calls s a = some s') (hheld : s'.phase j = .held) : s.phase j = .held := by
  obtain ⟨row, hrow, hrowkey, -, -⟩ := h
  cases a with
  | tick ms =>
      obtain rfl := Option.some.inj hstep
      exact hheld
  | delete k performed =>
      simp only [step] at hstep
      split at hstep
      · obtain rfl := Option.some.inj hstep
        by_cases hjk : j = k
        · subst hjk
          simp [setPhase] at hheld
        · simpa [setPhase, hjk] using hheld
      · cases hstep
  | create k performed =>
      simp only [step] at hstep
      split at hstep
      · next deleted _ =>
          obtain rfl := Option.some.inj hstep
          obtain ⟨rows, phase, heq, -, hfree⟩ := createStep_spec (calls k) k deleted performed s
          rw [heq] at hheld
          by_cases hjk : j = k
          · subst hjk
            have hphase : phase = .held := by simpa [setPhase] using hheld
            exact absurd (hrowkey.trans hkey.symm) (hfree hphase row hrow)
          · simpa [setPhase, hjk] using hheld
      · cases hstep
  | extend k _ | release k =>
      simp only [step] at hstep
      split at hstep
      · obtain rfl := Option.some.inj hstep
        exact hheld
      · cases hstep

/-- **A lease that is renewed excludes.**  As long as its holder neither gives it up nor lets it
run out, no other call of the key comes to hold it. -/
theorem renewed_excludes (hholder : Function.Injective fun i => (calls i).holder)
    {i j : Nat} (h : Leased calls i s) (hkey : (calls j).key = (calls i).key)
    (hfree : s.phase j ≠ .held) (hrenewed : Runs.Along (step calls) (Renewed calls i) s as)
    (hrun : Runs.exec (step calls) s as = some s') : Leased calls i s' ∧ s'.phase j ≠ .held := by
  refine Runs.exec_invariant (I := fun s => Leased calls i s ∧ s.phase j ≠ .held)
    (fun s a s' hs ha hstep => ?_) ⟨h, hfree⟩ hrenewed hrun
  refine ⟨leased_step hholder hs.1 ha hstep, fun hheld => hs.2 ?_⟩
  exact held_step hs.1 hkey hstep hheld

def heldLock : Locks :=
  (Runs.exec (step callsOnKey) noLocks [.delete 0 true, .create 0 true]).getD noLocks

/-- A second call that comes while the lease is extended is refused. -/
theorem renewed_excludes_heldLock :
    ∃ s, Runs.exec (step callsOnKey) heldLock [.extend 0 300, .delete 1 true, .create 1 true] =
      some s ∧ Leased callsOnKey 0 s ∧ s.phase 1 ≠ .held := by
  have hrun := Runs.eq_some_getD (o := Runs.exec (step callsOnKey) heldLock
    [.extend 0 300, .delete 1 true, .create 1 true]) noLocks (by decide +kernel)
  refine ⟨_, hrun, renewed_excludes callsOnKey_injective ?_ rfl (by decide) ?_ hrun⟩
  · unfold Leased LockRow.unexpired
    decide +kernel
  · refine Runs.Along.of_forall fun s a ha => ?_
    simp only [List.mem_cons, List.not_mem_nil, or_false] at ha
    rcases ha with rfl | rfl | rfl <;> trivial

end Locks

end Runir
