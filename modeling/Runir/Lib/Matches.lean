import Runir.Lib.Alphabet

/-!
# Library — Matches

What a match is made of.

* `mem_run_cases`: a match consumes nothing, or begins with a character the pattern can begin with.
* `find_some`, `find_eq_none_iff`: the leftmost match, and no match at all.
* `replaceStep_of_none`, `replaceStep_of_some`: a text with its matches replaced.
-/

namespace Runir.Regex

/-- A pattern that may match the empty text. -/
def nullable : Regex → Bool
  | .empty => true
  | .cls _ => false
  | .seq r s => nullable r && nullable s
  | .alt r s => nullable r || nullable s
  | .star _ => true
  | .group _ r => nullable r
  | .test _ => true
  | .look _ _ => true

/-- A character that a non-empty match of the pattern may begin with. -/
def starts (x : Char) : Regex → Bool
  | .empty => false
  | .cls c => c x
  | .seq r s => starts x r || (nullable r && starts x s)
  | .alt r s => starts x r || starts x s
  | .star r => starts x r
  | .group _ r => starts x r
  | .test _ => false
  | .look _ _ => false

/-- From `p` to `q` the pattern consumed nothing, or a first character it may begin with. -/
inductive Moved (r : Regex) (p q : Place) : Prop where
  | stay : nullable r = true → q.rest = p.rest → Moved r p q
  | go {x : Char} {xs : List Char} : p.rest = x :: xs → starts x r = true → q.rest <:+ xs →
      Moved r p q

variable {r : Regex}

theorem mem_run_cases {p q : Place} (h : q ∈ run r p) : Moved r p q := by
  induction r generalizing p q with
  | empty =>
      rw [List.mem_singleton.mp h]
      exact .stay rfl rfl
  | cls c =>
      unfold run at h
      split at h
      · exact nomatch h
      · rename_i x xs hrest
        split at h
        · rename_i hx
          rw [List.mem_singleton.mp h]
          exact .go hrest hx (List.suffix_refl xs)
        · exact nomatch h
  | seq r s ihr ihs =>
      obtain ⟨mid, hmid, hq⟩ := List.mem_flatMap.mp h
      cases ihr hmid with
      | stay hnull hrest =>
          cases ihs hq with
          | stay hnull' hrest' =>
              exact .stay (by rw [nullable, hnull, hnull']; rfl) (hrest'.trans hrest)
          | go hcons hx hsuffix =>
              refine .go (hrest ▸ hcons) ?_ hsuffix
              rw [starts, hnull, hx, Bool.and_self, Bool.or_true]
      | go hcons hx hsuffix =>
          refine .go hcons ?_ ((suffix_of_mem_run hq).trans hsuffix)
          rw [starts, hx, Bool.true_or]
  | alt r s ihr ihs =>
      rcases List.mem_append.mp h with h | h
      · cases ihr h with
        | stay hnull hrest => exact .stay (by rw [nullable, hnull, Bool.true_or]) hrest
        | go hcons hx hsuffix => exact .go hcons (by rw [starts, hx, Bool.true_or]) hsuffix
      · cases ihs h with
        | stay hnull hrest => exact .stay (by rw [nullable, hnull, Bool.or_true]) hrest
        | go hcons hx hsuffix => exact .go hcons (by rw [starts, hx, Bool.or_true]) hsuffix
  | star r ih =>
      -- the first round that consumes decides the first character
      have hrounds : ∀ (fuel : Nat) (p : Place), q ∈ rounds (run r) fuel p → Moved (.star r) p q := by
        intro fuel
        induction fuel with
        | zero =>
            intro p hq
            rw [List.mem_singleton.mp hq]
            exact .stay rfl rfl
        | succ fuel ihfuel =>
            intro p hq
            rcases List.mem_append.mp hq with hq | hq
            · obtain ⟨mid, hmid, hq⟩ := List.mem_flatMap.mp hq
              obtain ⟨hmid, hshorter⟩ := List.mem_filter.mp hmid
              cases ih hmid with
              | stay _ hrest =>
                  rw [hrest] at hshorter
                  exact absurd (of_decide_eq_true hshorter) (Nat.lt_irrefl _)
              | go hcons hx hsuffix =>
                  have hq' : q.rest <:+ mid.rest := by
                    cases ihfuel mid hq with
                    | stay _ hrest => rw [hrest]
                    | go hcons' _ hsuffix' =>
                        rw [hcons']
                        exact hsuffix'.trans (List.suffix_cons _ _)
                  exact .go hcons hx (hq'.trans hsuffix)
            · rw [List.mem_singleton.mp hq]
              exact .stay rfl rfl
      exact hrounds _ p h
  | group n r ih =>
      obtain ⟨mid, hmid, rfl⟩ := List.mem_map.mp h
      cases ih hmid with
      | stay hnull hrest => exact .stay hnull hrest
      | go hcons hx hsuffix => exact .go hcons hx hsuffix
  | test c =>
      unfold run at h
      split at h
      · rw [List.mem_singleton.mp h]
        exact .stay rfl rfl
      · exact nomatch h
  | look negated r _ =>
      unfold run at h
      split at h
      · rw [List.mem_singleton.mp h]
        exact .stay rfl rfl
      · exact nomatch h

/-! ### The leftmost match -/

/-- The character before the place that `text` leads to. -/
def lastOf (before : Option Char) : List Char → Option Char
  | [] => before
  | x :: xs => lastOf (some x) xs

/-- `m` is the leftmost match in `text`: it is what the engine reports at its place, and there is
none at a place before. -/
structure Leftmost (r : Regex) (before : Option Char) (text : List Char) (m : Match) : Prop where
  parts : text = m.skipped ++ (m.text ++ m.rest)
  here : (run r ⟨lastOf before m.skipped, m.text ++ m.rest, []⟩).head? =
    some ⟨m.before, m.rest, m.groups⟩
  none_before : ∀ u v, u ++ v = m.skipped → v ≠ [] →
    run r ⟨lastOf before u, v ++ (m.text ++ m.rest), []⟩ = []

variable {text : List Char} {before : Option Char} {m : Match}

theorem Leftmost.mem (h : Leftmost r before text m) :
    ⟨m.before, m.rest, m.groups⟩ ∈ run r ⟨lastOf before m.skipped, m.text ++ m.rest, []⟩ :=
  List.mem_of_mem_head? (Option.mem_def.mpr h.here)

theorem take_of_suffix {rest text : List Char} (h : rest <:+ text) :
    text.take (text.length - rest.length) ++ rest = text := by
  obtain ⟨u, rfl⟩ := h
  rw [List.length_append, Nat.add_sub_cancel, List.take_left]

theorem find_some (h : find r before text = some m) : Leftmost r before text m := by
  induction text generalizing before m with
  | nil =>
      unfold find at h
      obtain ⟨q, hq, rfl⟩ := Option.map_eq_some_iff.mp h
      have hrest : q.rest = [] :=
        List.suffix_nil.mp (suffix_of_mem_run (List.mem_of_mem_head? (Option.mem_def.mpr hq)))
      refine ⟨?_, ?_, ?_⟩
      · rw [hrest]
        rfl
      · change (run r ⟨before, q.rest, []⟩).head? = some q
        rw [hrest]
        exact hq
      · intro u v huv hv
        exact absurd (List.append_eq_nil_iff.mp huv).2 hv
  | cons x xs ih =>
      unfold find at h
      split at h
      · rename_i q hq
        obtain rfl := Option.some.inj h
        have hsplit := take_of_suffix (suffix_of_mem_run
          (List.mem_of_mem_head? (Option.mem_def.mpr hq)))
        refine ⟨?_, ?_, ?_⟩
        · exact hsplit.symm
        · dsimp only
          rw [hsplit]
          exact hq
        · intro u v huv hv
          exact absurd (List.append_eq_nil_iff.mp huv).2 hv
      · rename_i hnone
        obtain ⟨m', hm', rfl⟩ := Option.map_eq_some_iff.mp h
        have hfound := ih hm'
        refine ⟨?_, hfound.here, ?_⟩
        · exact congrArg (x :: ·) hfound.parts
        · intro u v huv hv
          cases u with
          | nil =>
              obtain rfl : v = x :: m'.skipped := huv
              rw [List.cons_append, ← hfound.parts]
              exact List.head?_eq_none_iff.mp hnone
          | cons y u =>
              obtain ⟨rfl, huv'⟩ := List.cons.inj huv
              exact hfound.none_before u v huv' hv

theorem find_eq_none_iff :
    find r before text = none ↔
      ∀ u v, u ++ v = text → run r ⟨lastOf before u, v, []⟩ = [] := by
  induction text generalizing before with
  | nil =>
      unfold find
      rw [Option.map_eq_none_iff, List.head?_eq_none_iff]
      constructor
      · intro h u v huv
        obtain ⟨rfl, rfl⟩ := List.append_eq_nil_iff.mp huv
        exact h
      · intro h
        exact h [] [] rfl
  | cons x xs ih =>
      unfold find
      constructor
      · intro h u v huv
        split at h
        · exact nomatch h
        · rename_i hnone
          cases u with
          | nil =>
              obtain rfl : v = x :: xs := huv
              exact List.head?_eq_none_iff.mp hnone
          | cons y u =>
              obtain ⟨rfl, huv'⟩ := List.cons.inj huv
              exact ih.mp (Option.map_eq_none_iff.mp h) u v huv'
      · intro h
        have hhere := h [] (x :: xs) rfl
        unfold lastOf at hhere
        rw [hhere]
        simp only [List.head?_nil, Option.map_eq_none_iff]
        exact ih.mpr fun u v huv => h (x :: u) v (congrArg (x :: ·) huv)

theorem matchIn_eq_false_iff :
    matchIn r text = false ↔ find r none text = none := by
  unfold matchIn exec
  rw [Option.isSome_eq_false_iff, Option.isNone_iff_eq_none]

/-- A match of a pattern that matches no empty text has a first character. -/
theorem Leftmost.text_cons (h : Leftmost r before text m) (hnull : nullable r = false) :
    ∃ x xs, m.text = x :: xs ∧ starts x r = true := by
  have hmoved : Moved r ⟨lastOf before m.skipped, m.text ++ m.rest, []⟩
    ⟨m.before, m.rest, m.groups⟩ := mem_run_cases h.mem
  cases hmoved with
  | stay hnull' _ => exact absurd (hnull.symm.trans hnull') Bool.false_ne_true
  | @go x xs hcons hx hsuffix =>
      cases htext : m.text with
      | nil =>
          -- an empty match leaves all of the text
          dsimp only at hcons hsuffix
          rw [htext, List.nil_append] at hcons
          rw [hcons] at hsuffix
          exact absurd hsuffix.length_le (by simp)
      | cons y ys =>
          dsimp only at hcons
          rw [htext] at hcons
          obtain ⟨rfl, _⟩ := List.cons.inj hcons
          exact ⟨y, ys, rfl, hx⟩

/-! ### Replacing -/

section
variable {σ : Type} {r : Regex} {f : Match → σ → List Char × σ}

/-- What every replacement keeps of the state. -/
theorem replaceStep_state {K : σ → Prop} (hf : ∀ m s, K s → K (f m s).2) (text : List Char)
    {s : σ} (hs : K s) : K (replaceStep r f text s).2 := by
  have hfrom : ∀ (fuel : Nat) (before : Option Char) (rest : List Char) (s : σ), K s →
      K (replaceStepFrom r f fuel before rest s).2 := by
    intro fuel
    induction fuel with
    | zero =>
        intro before rest s hs
        exact hs
    | succ fuel ih =>
        intro before rest s hs
        unfold replaceStepFrom
        cases find r before rest with
        | none => exact hs
        | some m =>
            have hnew : K (f m s).2 := hf m s hs
            dsimp only
            split
            · exact hnew
            · exact ih _ _ _ hnew
            · exact ih _ _ _ hnew
  exact hfrom _ _ _ _ hs

theorem replaceStep_of_none (h : find r none text = none) (s : σ) :
    replaceStep r f text s = (text, s) := by
  unfold replaceStep replaceStepFrom
  rw [h]

/-- The text up to the first match stands, and then comes what replaces it. -/
theorem replaceStep_of_some (hnull : nullable r = false) (h : find r none text = some m) (s : σ) :
    ∃ tail, (replaceStep r f text s).1 = m.skipped ++ ((f m s).1 ++ tail) := by
  obtain ⟨x, xs, htext, _⟩ := (find_some h).text_cons hnull
  unfold replaceStep replaceStepFrom
  rw [h]
  dsimp only
  rw [htext]
  exact ⟨_, List.append_assoc _ _ _⟩

end

end Runir.Regex
