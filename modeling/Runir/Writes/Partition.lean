import Runir.Writes.Arbitrate

/-!
# Writes — Partitions

The recent-write cache is one map for all callers, its keys strings joined from the user, the
scope and the session.

* `joined_eq_iff`: when two joined keys are the same.
* `Isolated`: what one context remembers, another does not see.
* `isolated_iff`: two contexts are isolated unless they share a partition, or one's user id goes
  on where the other's key does.
-/

namespace Runir

/-! ### Joined keys -/

section
variable {α : Type*} {sep : α} {u u' a a' t t' : List α}

/-- A field ends at the first separator. -/
theorem field_eq (ha : sep ∉ a) (ha' : sep ∉ a') (h : a ++ sep :: t = a' ++ sep :: t') :
    a = a' ∧ t = t' := by
  induction a generalizing a' with
  | nil =>
      cases a' with
      | nil => exact ⟨rfl, (List.cons.inj h).2⟩
      | cons x a' =>
          obtain ⟨rfl, -⟩ := List.cons.inj h
          exact absurd List.mem_cons_self ha'
  | cons x a ih =>
      cases a' with
      | nil =>
          obtain ⟨rfl, -⟩ := List.cons.inj h
          exact absurd List.mem_cons_self ha
      | cons x' a' =>
          obtain ⟨rfl, hrest⟩ := List.cons.inj h
          obtain ⟨rfl, ht⟩ := ih (fun hx => ha (List.mem_cons_of_mem _ hx))
            (fun hx => ha' (List.mem_cons_of_mem _ hx)) hrest
          exact ⟨rfl, ht⟩

/-- A key that runs past the end of a shorter user id, at least through the field after it. -/
theorem join_overrun (ha : sep ∉ a) (hne : a ≠ []) {w : List α} (hw : w ≠ [])
    (h : sep :: sep :: (a ++ sep :: sep :: t) = w ++ sep :: sep :: (a' ++ sep :: sep :: t')) :
    ∃ p, w = sep :: sep :: a ++ p ∧ sep :: sep :: t = p ++ sep :: sep :: (a' ++ sep :: sep :: t') := by
  have hsplit : (sep :: sep :: a) ++ sep :: sep :: t =
      w ++ sep :: sep :: (a' ++ sep :: sep :: t') := h
  rcases List.append_eq_append_iff.mp hsplit with ⟨p, hp, ht⟩ | ⟨q, hq, hrest⟩
  · exact ⟨p, hp, ht⟩
  · -- `w` ends inside the first field, so that the second key starts with a part of it
    cases q with
    | nil => exact ⟨[], by simpa using hq.symm, by simpa using hrest.symm⟩
    | cons x q =>
        exfalso
        obtain ⟨y, w, rfl⟩ := List.exists_cons_of_ne_nil hw
        obtain ⟨rfl, hrest'⟩ := List.cons.inj hrest
        obtain ⟨-, hq'⟩ := List.cons.inj hq
        cases w with
        | nil =>
            obtain ⟨-, rfl⟩ := List.cons.inj hq'
            obtain ⟨z, a, rfl⟩ := List.exists_cons_of_ne_nil hne
            obtain ⟨rfl, -⟩ := List.cons.inj hrest'
            exact ha List.mem_cons_self
        | cons z w =>
            obtain ⟨-, rfl⟩ := List.cons.inj hq'
            exact ha (List.mem_append_right _ List.mem_cons_self)

/-- **Two joined keys are the same** when their parts are, or when one's first part goes on
through the other's second part. -/
theorem joined_eq_iff (ha : sep ∉ a) (hne : a ≠ []) (ha' : sep ∉ a') (hne' : a' ≠ []) :
    u ++ sep :: sep :: (a ++ sep :: sep :: t) = u' ++ sep :: sep :: (a' ++ sep :: sep :: t') ↔
      (u = u' ∧ a = a' ∧ t = t') ∨
      (∃ p, u' = u ++ (sep :: sep :: a ++ p) ∧
        sep :: sep :: t = p ++ sep :: sep :: (a' ++ sep :: sep :: t')) ∨
      ∃ p, u = u' ++ (sep :: sep :: a' ++ p) ∧
        sep :: sep :: t' = p ++ sep :: sep :: (a ++ sep :: sep :: t) := by
  constructor
  · intro h
    have hsame : ∀ {x x' y y' : List α}, sep ∉ x → sep ∉ x' →
        sep :: sep :: (x ++ sep :: sep :: y) = sep :: sep :: (x' ++ sep :: sep :: y') →
        x = x' ∧ y = y' := by
      intro x x' y y' hx hx' heq
      obtain ⟨hxx', hyy'⟩ := field_eq hx hx' (List.cons.inj (List.cons.inj heq).2).2
      exact ⟨hxx', (List.cons.inj hyy').2⟩
    rcases List.append_eq_append_iff.mp h with ⟨w, hu, hrest⟩ | ⟨w, hu, hrest⟩
    · by_cases hw : w = []
      · subst hw
        obtain ⟨rfl, rfl⟩ := hsame ha ha' hrest
        exact Or.inl ⟨by simpa using hu.symm, rfl, rfl⟩
      · obtain ⟨p, rfl, ht⟩ := join_overrun ha hne hw hrest
        exact Or.inr (Or.inl ⟨p, hu, ht⟩)
    · by_cases hw : w = []
      · subst hw
        obtain ⟨rfl, rfl⟩ := hsame ha' ha hrest
        exact Or.inl ⟨by simpa using hu, rfl, rfl⟩
      · obtain ⟨p, rfl, ht⟩ := join_overrun ha' hne' hw hrest
        exact Or.inr (Or.inr ⟨p, hu, ht⟩)
  · rintro (⟨rfl, rfl, rfl⟩ | ⟨p, rfl, ht⟩ | ⟨p, rfl, ht⟩)
    · rfl
    · simp [ht]
    · simp [ht]

end

/-! ### Contexts -/

/-- The context of a write. -/
structure WriteContext where
  userId : String
  scope : MemoryScope
  sessionId : Option String := none
  deriving DecidableEq

namespace WriteContext

def key (c : WriteContext) : String := getRecentWriteKey c.userId c.scope c.sessionId

/-- Neither id has whitespace around it. -/
def Trimmed (c : WriteContext) : Prop :=
  Text.trim c.userId = c.userId ∧ ∀ s ∈ c.sessionId, Text.trim s = s

instance (c : WriteContext) : Decidable c.Trimmed := inferInstanceAs (Decidable (_ ∧ _))

/-- What a key carries for the session: a dash where there is none, or an empty one. -/
def token (c : WriteContext) : String := (c.sessionId.filter Text.truthy).getD "-"

theorem scope_text (scope : MemoryScope) : ':' ∉ scope.text.toList ∧ scope.text.toList ≠ [] := by
  cases scope with
  | session => decide
  | user => decide
  | team => decide
  | global => decide

theorem key_of_trimmed {c : WriteContext} (h : c.Trimmed) :
    c.key = c.userId ++ "::" ++ c.scope.text ++ "::" ++ c.token := by
  have huser : (normalizeToken (some c.userId)).getD c.userId = c.userId := by
    unfold normalizeToken
    rw [Option.map_some, h.1]
    cases ht : Text.truthy c.userId with
    | true => simp [Option.filter, ht]
    | false => simp [Option.filter, ht]
  have hsession : normalizeToken c.sessionId = c.sessionId.filter Text.truthy := by
    unfold normalizeToken
    cases hs : c.sessionId with
    | none => rfl
    | some s => rw [Option.map_some, h.2 s hs]
  unfold key getRecentWriteKey token
  rw [huser, hsession]

/-- The same user and scope, and sessions the key cannot tell apart: none, an empty one, one
called `-`. -/
def SamePartition (c₁ c₂ : WriteContext) : Prop :=
  c₁.userId = c₂.userId ∧ c₁.scope = c₂.scope ∧ c₁.token = c₂.token

/-- The second user id goes on where the first key does: it is the first with that context's
scope and a part of its session behind, and the rest of that session spells out the second
context. -/
def Overruns (c₁ c₂ : WriteContext) : Prop :=
  ∃ p, c₂.userId = c₁.userId ++ "::" ++ c₁.scope.text ++ p ∧
    "::" ++ c₁.token = p ++ "::" ++ c₂.scope.text ++ "::" ++ c₂.token

theorem exists_toList (P : List Char → Prop) : (∃ p : String, P p.toList) ↔ ∃ p, P p :=
  ⟨fun ⟨p, h⟩ => ⟨p.toList, h⟩, fun ⟨p, h⟩ => ⟨String.ofList p, by rwa [String.toList_ofList]⟩⟩

variable {c₁ c₂ : WriteContext}

/-- **When two contexts share a key.** -/
theorem key_eq_iff (h₁ : c₁.Trimmed) (h₂ : c₂.Trimmed) :
    c₁.key = c₂.key ↔ SamePartition c₁ c₂ ∨ Overruns c₁ c₂ ∨ Overruns c₂ c₁ := by
  obtain ⟨ha, hne⟩ := scope_text c₁.scope
  obtain ⟨ha', hne'⟩ := scope_text c₂.scope
  have hscope : c₁.scope.text.toList = c₂.scope.text.toList ↔ c₁.scope = c₂.scope := by
    rw [String.toList_inj]
    cases c₁.scope <;> cases c₂.scope <;> decide
  have hcolons : ("::" : String).toList = [':', ':'] := rfl
  rw [key_of_trimmed h₁, key_of_trimmed h₂, ← String.toList_inj]
  simp only [String.toList_append, hcolons, List.append_assoc, List.cons_append, List.nil_append]
  rw [joined_eq_iff ha hne ha' hne']
  unfold SamePartition Overruns
  simp only [← hscope, ← String.toList_inj, String.toList_append, hcolons, List.append_assoc,
    List.cons_append, List.nil_append]
  exact or_congr Iff.rfl (or_congr (exists_toList _).symm (exists_toList _).symm)

/-! ### Isolation -/

/-- A write as the cache remembers it. -/
structure Remembered where
  text : String
  embedding : List ℚ
  source : WriteSource
  nowMs : Int

def remember (host : Host) (c : WriteContext) (recentWrites : RecentWrites) (w : Remembered) :
    RecentWrites :=
  rememberWrite host w.text w.embedding c.userId c.scope c.sessionId w.source w.nowMs recentWrites

/-- The cache after a number of writes in a context. -/
def rememberAll (host : Host) (c : WriteContext) (ws : List Remembered)
    (recentWrites : RecentWrites) : RecentWrites :=
  ws.foldl (remember host c) recentWrites

/-- The context a call writes in. -/
def of (input : WriteArbitrationInput) : WriteContext :=
  ⟨input.userId, input.scope, input.sessionId⟩

def afterWrites (host : Host) (c : WriteContext) (ws : List Remembered) (s : Applied) :
    Applied :=
  { s with recentWrites := rememberAll host c ws s.recentWrites }

/-- Whatever the first context writes, the second sees the recent candidates it saw before. -/
def Isolated (c₁ c₂ : WriteContext) : Prop :=
  ∀ (env : ArbitrateEnv) (input : WriteArbitrationInput) (s : Applied) (ws : List Remembered),
    of input = c₂ →
      recentCandidates env input (afterWrites env.host c₁ ws s) =
        recentCandidates env input s

theorem get?_rememberAll {host : Host} {c : WriteContext} {k : String} (h : c.key ≠ k)
    (ws : List Remembered) (recentWrites : RecentWrites) :
    (rememberAll host c ws recentWrites).get? k = recentWrites.get? k := by
  induction ws generalizing recentWrites with
  | nil => rfl
  | cons w ws ih =>
      refine (ih _).trans ?_
      exact OrdMap.get?_set_ne _ _ h.symm

theorem recentCandidates_eq (env : ArbitrateEnv) (input : WriteArbitrationInput) (s : Applied) :
    recentCandidates env input s =
      ((s.recentWrites.get? (of input).key).bind
        (pruned (recentWriteTtlMs input) (pruneNowMs env input))).getD [] := by
  unfold recentCandidates
  rw [prunedRecentWritesView_get?]
  rfl

theorem isolated_of_key_ne (h : c₁.key ≠ c₂.key) : Isolated c₁ c₂ := by
  intro env input s ws hof
  rw [recentCandidates_eq, recentCandidates_eq, hof]
  unfold afterWrites
  rw [get?_rememberAll h]

/-- A call in the second context, on an empty cache, five minutes at most after a write. -/
theorem not_isolated_of_key_eq (h : c₁.key = c₂.key) :
    ¬Isolated c₁ c₂ := by
  intro hiso
  let env := plainEnv 0 0 ""
  let input : WriteArbitrationInput :=
    { text := "", userId := c₂.userId, embedding := [], scope := c₂.scope,
      sessionId := c₂.sessionId }
  let s : Applied := ⟨.empty, .empty, .empty, [], []⟩
  let w : Remembered := ⟨"", [], .memoryStore, 0⟩
  have hsame := hiso env input s [w] rfl
  rw [recentCandidates_eq, recentCandidates_eq] at hsame
  have hkey : (of input).key = c₁.key := h.symm
  have hnow : (rememberAll env.host c₁ [w] s.recentWrites).get? c₁.key =
      some [⟨"", normalizeText env.host "", [], c₁.userId, c₁.scope, c₁.sessionId, .memoryStore,
        0⟩] :=
    OrdMap.get?_set_self _ _ _
  have hpruned : ∀ e : RecentWrite, e.writtenAtMs = 0 →
      pruned (recentWriteTtlMs input) (pruneNowMs env input) [e] = some [e] := by
    intro e he
    have hkeep : retainedWrites (recentWriteTtlMs input) (pruneNowMs env input) [e] = [e] := by
      refine List.filter_eq_self.mpr fun e' he' => ?_
      obtain rfl := List.mem_singleton.mp he'
      rw [he]
      change decide (((0 : Int) : ℚ) - 5 * 60 * 1000 ≤ ((0 : Int) : ℚ)) = true
      decide +kernel
    unfold pruned
    simp only [hkeep]
    rfl
  unfold afterWrites at hsame
  rw [hkey, hnow, Option.bind_some, hpruned _ rfl] at hsame
  cases hsame

/-- **When the cache isolates.**  Two contexts share what they remember exactly where they share
a partition, or one user id goes on where the other's key does. -/
theorem isolated_iff {c₁ c₂ : WriteContext} (h₁ : c₁.Trimmed) (h₂ : c₂.Trimmed) :
    Isolated c₁ c₂ ↔ ¬(SamePartition c₁ c₂ ∨ Overruns c₁ c₂ ∨ Overruns c₂ c₁) := by
  rw [← key_eq_iff h₁ h₂]
  constructor
  · intro hiso hkey
    exact not_isolated_of_key_eq hkey hiso
  · exact isolated_of_key_ne

theorem isolated_iff_users : Isolated ⟨"ann", .user, none⟩ ⟨"bob", .user, none⟩ := by
  refine (isolated_iff (by decide) (by decide)).mpr ?_
  rintro (⟨huser, -⟩ | ⟨p, huser, -⟩ | ⟨p, huser, -⟩)
  · exact absurd huser (by decide)
  · have hchars := congrArg String.toList huser
    simp at hchars
  · have hchars := congrArg String.toList huser
    simp at hchars

/-- **Two tenants in one bucket.**  The session of the first spells out the rest of the second's
key. -/
theorem tenants_share :
    ¬∀ c₁ c₂ : WriteContext, c₁.Trimmed → c₂.Trimmed → c₁ ≠ c₂ → Isolated c₁ c₂ := by
  intro hall
  have hkey : (⟨"ann", .session, some "x::session::y"⟩ : WriteContext).key =
      (⟨"ann::session::x", .session, some "y"⟩ : WriteContext).key := by decide
  exact not_isolated_of_key_eq hkey (hall _ _ (by decide) (by decide) (by decide))

end WriteContext

end Runir
