import Runir.Domain.Types
import Runir.Lib.Words

/-!
# Entities — Slug

`entityIdSlug` of `src/entities/entity-arbitrator.ts`, the record id of an entity.

* `safe`: a field in `[a-z0-9_]`.  Every other UTF-16 unit becomes its number between underscores;
  then runs of underscores become one, and one is taken off either end.
* `fieldWords`: the maximal runs of `[a-z0-9]` of a field, and for every other unit the word of its
  number.  `safe` is these words between underscores (`safe_eq`), so a run that reads as the word
  of a unit is not told from that unit, nor the last words of a field from the first of the next.
* `slug_eq_iff`: two keys have one slug exactly where all their words are the same.
-/

namespace Runir

open Text

/-- `EntityKind`. -/
inductive EntityKind where
  | person | org | concept | location | event
  deriving DecidableEq

def EntityKind.text : EntityKind → String
  | .person => "person"
  | .org => "org"
  | .concept => "concept"
  | .location => "location"
  | .event => "event"

/-- `[a-z0-9]`. -/
def isSlugChar (c : Char) : Bool := Regex.isLowerChar c || Regex.isDigitChar c

/-- The UTF-16 units of a character. -/
def utf16Units (c : Char) : List Nat :=
  let n := c.toNat
  if n < 0x10000 then [n] else [0xD800 + (n - 0x10000) / 0x400, 0xDC00 + (n - 0x10000) % 0x400]

/-- `x` and the number of a unit, in base 16. -/
def unitWord (unit : Nat) : List Char := 'x' :: Nat.toDigits 16 unit

/-- `s.replace(/[^a-z0-9]/g, …)`. -/
def escapeUnits (cs : List Char) : List Char :=
  cs.flatMap fun c =>
    if isSlugChar c then [c]
    else (utf16Units c).flatMap fun unit => '_' :: (unitWord unit ++ ['_'])

def isUnderscore (c : Char) : Bool := c == '_'

/-- `s.replace(/^_|_$/g, "")`. -/
def dropUnderscoreEnds (cs : List Char) : List Char :=
  let rest := if cs.head? = some '_' then cs.tail else cs
  if rest.getLast? = some '_' then rest.dropLast else rest

def safe (s : String) : List Char :=
  dropUnderscoreEnds (collapseRuns isUnderscore '_' (escapeUnits s.toList))

def entityIdSlug (nameNorm : String) (kind : EntityKind) (userId : String) (scope : MemoryScope)
    (sessionId : Option String) : String :=
  if scope = .user then
    String.ofList (safe nameNorm ++ '_' :: (safe kind.text ++ '_' :: safe userId))
  else
    String.ofList (safe nameNorm ++ '_' :: (safe kind.text ++ '_' :: (safe userId ++ '_' ::
      (safe scope.text ++ '_' :: safe (sessionId.getD "unknown")))))

/-! ### The words of a field -/

/-- The words of a field after an open run. -/
def fieldWordsFrom (run : List Char) : List Char → List (List Char)
  | [] => if run = [] then [] else [run]
  | c :: cs =>
      if isSlugChar c then fieldWordsFrom (run ++ [c]) cs
      else
        (if run = [] then [] else [run]) ++ ((utf16Units c).map unitWord ++ fieldWordsFrom [] cs)

/-- The words of a field; an empty field counts as an empty word. -/
def fieldWords (s : String) : List (List Char) :=
  if s.toList = [] then [[]] else fieldWordsFrom [] s.toList

theorem isUnderscore_of_slugChar {c : Char} (h : isSlugChar c = true) : isUnderscore c = false := by
  cases hc : isUnderscore c with
  | false => rfl
  | true =>
      rw [beq_iff_eq.mp hc] at h
      exact absurd h (by decide)

theorem isUnderscore_digitChar (n : Nat) : isUnderscore n.digitChar = false := by
  have hsmall : ∀ m < 16, isUnderscore (Nat.digitChar m) = false := by decide
  by_cases hn : n < 16
  · exact hsmall n hn
  · have hstar : n.digitChar = '*' := by
      unfold Nat.digitChar
      simp only [show n ≠ 0 by omega, show n ≠ 1 by omega, show n ≠ 2 by omega,
        show n ≠ 3 by omega, show n ≠ 4 by omega, show n ≠ 5 by omega, show n ≠ 6 by omega,
        show n ≠ 7 by omega, show n ≠ 8 by omega, show n ≠ 9 by omega, show n ≠ 10 by omega,
        show n ≠ 11 by omega, show n ≠ 12 by omega, show n ≠ 13 by omega, show n ≠ 14 by omega,
        show n ≠ 15 by omega, if_false]
    rw [hstar]
    rfl

/-- The word of a unit has no underscore. -/
theorem unitWord_free (unit : Nat) : ∀ c ∈ unitWord unit, isUnderscore c = false := by
  have hdigits : ∀ n, ∀ c ∈ Nat.toDigits 16 n, isUnderscore c = false := by
    intro n
    induction n using Nat.strongRecOn with
    | _ n ih =>
        rw [Nat.toDigits_eq_if (by decide)]
        split
        · intro c hc
          rw [List.mem_singleton.mp hc]
          exact isUnderscore_digitChar n
        · intro c hc
          rcases List.mem_append.mp hc with hc | hc
          · exact ih (n / 16) (by omega) c hc
          · rw [List.mem_singleton.mp hc]
            exact isUnderscore_digitChar _
  intro c hc
  rcases List.mem_cons.mp hc with rfl | hc
  · rfl
  · exact hdigits unit c hc

theorem unitWord_ne_nil (unit : Nat) : unitWord unit ≠ [] := List.cons_ne_nil _ _

/-- Escaped units are words of their own. -/
theorem wordsFrom_escaped (units : List Nat) (hne : units ≠ []) (run rest : List Char) :
    wordsFrom isUnderscore run
        (units.flatMap (fun unit => '_' :: (unitWord unit ++ ['_'])) ++ rest) =
      (if run = [] then [] else [run]) ++ (units.map unitWord ++ words isUnderscore rest) := by
  have hunits : ∀ us : List Nat, words isUnderscore
      (us.flatMap (fun unit => '_' :: (unitWord unit ++ ['_'])) ++ rest) =
        us.map unitWord ++ words isUnderscore rest := by
    intro us
    induction us with
    | nil => rfl
    | cons u us ih =>
        rw [List.flatMap_cons, List.append_assoc, List.cons_append, words_cons_sep rfl,
          List.append_assoc, List.singleton_append, words_append_cons rfl,
          words_of_plain (unitWord_free u) (unitWord_ne_nil u), ih]
        rfl
  obtain ⟨u, us, rfl⟩ := List.exists_cons_of_ne_nil hne
  have hopen : wordsFrom isUnderscore run ([] ++ '_' ::
      (unitWord u ++ '_' :: (us.flatMap (fun unit => '_' :: (unitWord unit ++ ['_'])) ++ rest))) = _ :=
    wordsFrom_append_cons rfl [] _
  rw [List.nil_append, wordsFrom, words_append_cons rfl,
    words_of_plain (unitWord_free u) (unitWord_ne_nil u), hunits us] at hopen
  rw [List.flatMap_cons, List.append_assoc, List.cons_append, List.append_assoc,
    List.singleton_append]
  exact hopen

theorem utf16Units_ne_nil (c : Char) : utf16Units c ≠ [] := by
  unfold utf16Units
  dsimp only
  split
  · exact List.cons_ne_nil _ _
  · exact List.cons_ne_nil _ _

theorem wordsFrom_escapeUnits (run cs : List Char) :
    wordsFrom isUnderscore run (escapeUnits cs) = fieldWordsFrom run cs := by
  induction cs generalizing run with
  | nil => rfl
  | cons c cs ih =>
      have hcons : escapeUnits (c :: cs) = (if isSlugChar c then [c] else
          (utf16Units c).flatMap fun unit => '_' :: (unitWord unit ++ ['_'])) ++ escapeUnits cs :=
        List.flatMap_cons
      rw [hcons, fieldWordsFrom]
      by_cases hc : isSlugChar c = true
      · rw [if_pos hc, if_pos hc, List.singleton_append, wordsFrom,
          if_neg (Bool.eq_false_iff.mp (isUnderscore_of_slugChar hc)), ih]
      · rw [if_neg hc, if_neg hc, wordsFrom_escaped _ (utf16Units_ne_nil c), words, ih]

/-- What surrounds a text that has no underscore at its ends is taken off. -/
theorem dropUnderscoreEnds_around {l r cs : List Char} (hl : Gap '_' l) (hr : Gap '_' r)
    (hhead : ∀ c, cs.head? = some c → isUnderscore c = false)
    (hlast : ∀ c, cs.getLast? = some c → isUnderscore c = false) :
    dropUnderscoreEnds (l ++ (cs ++ r)) = cs := by
  have hfront : (if (l ++ (cs ++ r)).head? = some '_' then (l ++ (cs ++ r)).tail
      else l ++ (cs ++ r)) = cs ++ r ∨ cs = [] ∧ (if (l ++ (cs ++ r)).head? = some '_' then
        (l ++ (cs ++ r)).tail else l ++ (cs ++ r)) = [] := by
    rcases hl with rfl | rfl
    · cases cs with
      | nil =>
          rcases hr with rfl | rfl
          · exact .inl rfl
          · exact .inr ⟨rfl, rfl⟩
      | cons c cs =>
          have hc : c ≠ '_' := fun hc => Bool.false_ne_true ((hhead c rfl).symm.trans (by rw [hc]; rfl))
          refine .inl (if_neg fun h => hc ?_)
          exact Option.some.inj h
    · exact .inl rfl
  unfold dropUnderscoreEnds
  dsimp only
  rcases hfront with hfront | ⟨hnil, hfront⟩
  · rw [hfront]
    rcases hr with rfl | rfl
    · rw [List.append_nil, if_neg]
      exact fun h => Bool.false_ne_true ((hlast '_' h).symm.trans rfl)
    · rw [List.getLast?_concat, if_pos rfl, List.dropLast_concat]
  · rw [hfront, hnil]
    rfl

/-- A field is its words between underscores. -/
theorem safe_eq (s : String) : safe s = joined '_' (fieldWords s) := by
  have hwords : words isUnderscore (escapeUnits s.toList) = fieldWordsFrom [] s.toList :=
    wordsFrom_escapeUnits [] s.toList
  have hspec : ∀ w ∈ fieldWordsFrom [] s.toList, w ≠ [] ∧ ∀ c ∈ w, isUnderscore c = false :=
    fun w hw => words_spec (hwords ▸ hw)
  have hruns : ∃ l r, Gap '_' l ∧ Gap '_' r ∧ collapseRuns isUnderscore '_' (escapeUnits s.toList) =
      l ++ (joined '_' (words isUnderscore (escapeUnits s.toList)) ++ r) :=
    exists_collapseRuns (escapeUnits s.toList)
  obtain ⟨l, r, hl, hr, hcollapse⟩ := hruns
  rw [hwords] at hcollapse
  unfold safe
  rw [hcollapse, dropUnderscoreEnds_around hl hr (head?_joined hspec) (getLast?_joined hspec)]
  unfold fieldWords
  split
  · rename_i hempty
    rw [hempty]
    rfl
  · rfl

theorem fieldWords_ne_nil (s : String) : fieldWords s ≠ [] := by
  unfold fieldWords
  split
  · exact List.cons_ne_nil _ _
  · rename_i hne
    obtain ⟨c, cs, hcs⟩ := List.exists_cons_of_ne_nil hne
    rw [hcs, fieldWordsFrom]
    split
    · rw [← wordsFrom_escapeUnits]
      exact wordsFrom_ne_nil (by simp)
    · obtain ⟨u, us, hus⟩ := List.exists_cons_of_ne_nil (utf16Units_ne_nil c)
      rw [hus]
      simp

theorem fieldWords_free {s : String} {w : List Char} (h : w ∈ fieldWords s) : '_' ∉ w := by
  unfold fieldWords at h
  split at h
  · rw [List.mem_singleton.mp h]
    exact List.not_mem_nil
  · rw [← wordsFrom_escapeUnits] at h
    exact fun hmem => Bool.false_ne_true (((words_spec h).2 '_' hmem).symm.trans rfl)

/-! ### Keys -/

/-- What an entity is known by: name, kind and user, and for a stub its session. -/
inductive EntityKey where
  | canonical (nameNorm : String) (kind : EntityKind) (userId : String)
  | stub (nameNorm : String) (kind : EntityKind) (userId sessionId : String)
  deriving DecidableEq

def EntityKey.slug : EntityKey → String
  | .canonical nameNorm kind userId => entityIdSlug nameNorm kind userId .user none
  | .stub nameNorm kind userId sessionId => entityIdSlug nameNorm kind userId .session (some sessionId)

/-- The words of the fields, one field after another. -/
def EntityKey.slugWords : EntityKey → List (List Char)
  | .canonical nameNorm kind userId =>
      fieldWords nameNorm ++ (fieldWords kind.text ++ fieldWords userId)
  | .stub nameNorm kind userId sessionId =>
      fieldWords nameNorm ++ (fieldWords kind.text ++ (fieldWords userId ++
        (fieldWords MemoryScope.session.text ++ fieldWords sessionId)))

theorem toList_slug (key : EntityKey) : key.slug.toList = joined '_' key.slugWords := by
  have hnext : ∀ (s : String) {ws : List (List Char)}, ws ≠ [] →
      joined '_' (fieldWords s ++ ws) = safe s ++ '_' :: joined '_' ws := fun s ws hws => by
    rw [joined_append (fieldWords_ne_nil s) hws, safe_eq]
  have hmore : ∀ (s : String) (ws : List (List Char)), fieldWords s ++ ws ≠ [] := fun s ws =>
    List.append_ne_nil_of_left_ne_nil (fieldWords_ne_nil s) ws
  cases key with
  | canonical nameNorm kind userId =>
      rw [EntityKey.slug, EntityKey.slugWords, entityIdSlug, if_pos rfl, String.toList_ofList,
        hnext _ (hmore _ _), hnext _ (fieldWords_ne_nil _), safe_eq userId]
  | stub nameNorm kind userId sessionId =>
      have hscope : MemoryScope.session ≠ .user := by decide
      rw [EntityKey.slug, EntityKey.slugWords, entityIdSlug, if_neg hscope, String.toList_ofList,
        Option.getD_some, hnext _ (hmore _ _), hnext _ (hmore _ _), hnext _ (hmore _ _),
        hnext _ (fieldWords_ne_nil _), safe_eq sessionId]

theorem slugWords_ne_nil (key : EntityKey) : key.slugWords ≠ [] := by
  cases key with
  | canonical => exact List.append_ne_nil_of_left_ne_nil (fieldWords_ne_nil _) _
  | stub => exact List.append_ne_nil_of_left_ne_nil (fieldWords_ne_nil _) _

theorem slugWords_free {key : EntityKey} {w : List Char} (h : w ∈ key.slugWords) : '_' ∉ w := by
  cases key with
  | canonical =>
      rcases List.mem_append.mp h with h | h
      · exact fieldWords_free h
      · rcases List.mem_append.mp h with h | h
        · exact fieldWords_free h
        · exact fieldWords_free h
  | stub =>
      simp only [EntityKey.slugWords, List.mem_append] at h
      rcases h with h | h | h | h | h
      all_goals exact fieldWords_free h

/-- **Two keys have one slug** exactly where all their words are the same. -/
theorem slug_eq_iff (k₁ k₂ : EntityKey) : k₁.slug = k₂.slug ↔ k₁.slugWords = k₂.slugWords := by
  rw [← String.toList_inj, toList_slug, toList_slug]
  exact joined_inj (slugWords_ne_nil k₁) (slugWords_ne_nil k₂) (fun _ => slugWords_free)
    fun _ => slugWords_free

end Runir
