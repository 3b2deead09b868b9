import Runir.Lib.Language
import Runir.Lib.Text

/-!
# Library — Words

A text as the words between its separators, which is what collapsing and trimming leave of it.

* `words`: the maximal pieces without separators.  Separators between two texts keep their words
  apart (`words_append_cons`).
* `joined`: words with one separator between each two.  `trimWith_collapseRuns`: a text that is
  collapsed and trimmed is its words, joined; `trimChars_collapseChars`: so it is for white space.
* `lowerFrom_joined`: words are lower-cased apart, where the space has no part in a final sigma
  (`Unicode.SpacePlain`).
* `Cut`: a text and its pieces between separators; a split by a pattern is one (`cut_split`), and
  where only separators of words stand in a cut, the words of a piece are words of the text
  (`Cut.words_inner`).
-/

namespace Runir

namespace Text

variable {p : Char → Bool} {sep c : Char} {cs carry text : List Char} {ws : List (List Char)}

/-- The words of `cs` after an open word. -/
def wordsFrom (p : Char → Bool) (carry : List Char) : List Char → List (List Char)
  | [] => if carry = [] then [] else [carry]
  | c :: cs =>
      if p c then
        if carry = [] then wordsFrom p [] cs else carry :: wordsFrom p [] cs
      else wordsFrom p (carry ++ [c]) cs

def words (p : Char → Bool) (cs : List Char) : List (List Char) := wordsFrom p [] cs

/-- `ws.join(sep)`. -/
def joined (sep : Char) (ws : List (List Char)) : List Char := [sep].intercalate ws

theorem words_cons_sep (h : p c = true) : words p (c :: cs) = words p cs := by
  simp only [words, wordsFrom, h, if_true]

theorem wordsFrom_ne_nil (h : carry ≠ []) : wordsFrom p carry cs ≠ [] := by
  induction cs generalizing carry with
  | nil =>
      rw [wordsFrom, if_neg h]
      exact List.cons_ne_nil carry []
  | cons c cs ih =>
      rw [wordsFrom]
      split
      · exact List.cons_ne_nil carry _
      · exact ih (by simp)

/-- A word has a character, and none that is a separator. -/
theorem wordsFrom_spec (hcarry : ∀ c ∈ carry, p c = false) {w : List Char}
    (h : w ∈ wordsFrom p carry cs) : w ≠ [] ∧ ∀ c ∈ w, p c = false := by
  induction cs generalizing carry with
  | nil =>
      rw [wordsFrom] at h
      split at h
      · exact nomatch h
      · rename_i hne
        rw [List.mem_singleton.mp h]
        exact ⟨hne, hcarry⟩
  | cons c cs ih =>
      have hnil : ∀ d ∈ ([] : List Char), p d = false := fun d hd => nomatch hd
      rw [wordsFrom] at h
      split at h
      · split at h
        · exact ih hnil h
        · rename_i hne
          rcases List.mem_cons.mp h with rfl | h
          · exact ⟨hne, hcarry⟩
          · exact ih hnil h
      · rename_i hc
        refine ih (fun d hd => ?_) h
        rcases List.mem_append.mp hd with hd | hd
        · exact hcarry d hd
        · rw [List.mem_singleton.mp hd]
          exact Bool.eq_false_iff.mpr hc

theorem words_spec {w : List Char} (h : w ∈ words p cs) : w ≠ [] ∧ ∀ c ∈ w, p c = false := by
  have hnil : ∀ c ∈ ([] : List Char), p c = false := fun c hc => nomatch hc
  exact wordsFrom_spec hnil h

theorem wordsFrom_of_plain (h : ∀ c ∈ cs, p c = false) (hne : carry ++ cs ≠ []) :
    wordsFrom p carry cs = [carry ++ cs] := by
  induction cs generalizing carry with
  | nil =>
      rw [List.append_nil] at hne ⊢
      rw [wordsFrom, if_neg hne]
  | cons c cs ih =>
      have hc := h c (List.mem_cons_self ..)
      rw [List.append_cons] at hne ⊢
      rw [wordsFrom, if_neg (Bool.eq_false_iff.mp hc)]
      exact ih (fun d hd => h d (List.mem_cons_of_mem c hd)) hne

/-- A text without separators is one word. -/
theorem words_of_plain (h : ∀ c ∈ cs, p c = false) (hne : cs ≠ []) : words p cs = [cs] :=
  wordsFrom_of_plain h hne

/-! ### Separators between two texts -/

theorem wordsFrom_append_cons (hc : p c = true) (front back : List Char) :
    wordsFrom p carry (front ++ c :: back) = wordsFrom p carry front ++ words p back := by
  induction front generalizing carry with
  | nil =>
      rw [List.nil_append, wordsFrom, wordsFrom, if_pos hc]
      split
      · rfl
      · rfl
  | cons d front ih =>
      rw [List.cons_append, wordsFrom, wordsFrom]
      split
      · rw [ih]
        split
        · rfl
        · rfl
      · exact ih

theorem words_append_cons (hc : p c = true) (front back : List Char) :
    words p (front ++ c :: back) = words p front ++ words p back := wordsFrom_append_cons hc front back

/-- Separators before a text have no words. -/
theorem words_append_of_sep {front : List Char} (h : ∀ c ∈ front, p c = true)
    (back : List Char) : words p (front ++ back) = words p back := by
  induction front with
  | nil => rfl
  | cons c front ih =>
      rw [List.cons_append, words_cons_sep (h c (List.mem_cons_self ..))]
      exact ih fun d hd => h d (List.mem_cons_of_mem c hd)

/-- Separators between two texts keep their words apart. -/
theorem words_append_between {sep : List Char} (hsep : ∀ c ∈ sep, p c = true) (hne : sep ≠ [])
    (front back : List Char) : words p (front ++ (sep ++ back)) = words p front ++ words p back := by
  cases sep with
  | nil => exact absurd rfl hne
  | cons c sep =>
      rw [List.cons_append, words_append_cons (hsep c (List.mem_cons_self ..)),
        words_append_of_sep fun d hd => hsep d (List.mem_cons_of_mem c hd)]

/-- Separators after a text have no words. -/
theorem words_append_sep {back : List Char} (h : ∀ c ∈ back, p c = true)
    (front : List Char) : words p (front ++ back) = words p front := by
  by_cases hne : back = []
  · rw [hne, List.append_nil]
  · have hbetween := words_append_between h hne front []
    rwa [List.append_nil, show words p [] = [] from rfl, List.append_nil] at hbetween

/-- The text without the separators at either end. -/
def trimWith (p : Char → Bool) (cs : List Char) : List Char :=
  ((cs.dropWhile p).reverse.dropWhile p).reverse

/-- What trimming takes away at either end. -/
theorem exists_trimWith (cs : List Char) : ∃ front back, (∀ c ∈ front, p c = true) ∧
    (∀ c ∈ back, p c = true) ∧ cs = front ++ (trimWith p cs ++ back) := by
  refine ⟨cs.takeWhile p, ((cs.dropWhile p).reverse.takeWhile p).reverse,
    fun c hc => List.mem_takeWhile_imp hc,
    fun c hc => List.mem_takeWhile_imp (List.mem_reverse.mp hc), ?_⟩
  unfold trimWith
  rw [← List.reverse_append, List.takeWhile_append_dropWhile, List.reverse_reverse,
    List.takeWhile_append_dropWhile]

/-- A trimmed text neither starts nor ends with a separator. -/
theorem trimWith_ends (p : Char → Bool) (cs : List Char) :
    (∀ c, (trimWith p cs).head? = some c → p c = false) ∧
      ∀ c, (trimWith p cs).getLast? = some c → p c = false := by
  have hdrop : ∀ (xs : List Char) (c : Char), (xs.dropWhile p).head? = some c → p c = false := by
    intro xs c hc
    have hnot := List.head?_dropWhile_not p xs
    rw [hc] at hnot
    exact hnot
  unfold trimWith
  constructor
  · -- the end is taken off a text that starts well
    intro c hc
    rw [List.head?_reverse] at hc
    obtain ⟨front, hfront⟩ := List.dropWhile_suffix p (l := (cs.dropWhile p).reverse)
    have hne : (cs.dropWhile p).reverse.dropWhile p ≠ [] := by
      intro hnil
      rw [hnil] at hc
      cases hc
    have hlast := List.getLast?_append_of_ne_nil front hne
    rw [hfront, List.getLast?_reverse, hc] at hlast
    exact hdrop cs c hlast
  · intro c hc
    rw [List.getLast?_reverse] at hc
    exact hdrop _ c hc

theorem words_trimWith (cs : List Char) : words p (trimWith p cs) = words p cs := by
  obtain ⟨front, back, hfront, hback, hcs⟩ := exists_trimWith cs
  have hwords := congrArg (words p) hcs
  rw [words_append_of_sep hfront, words_append_sep hback] at hwords
  exact hwords.symm

/-! ### Words with one separator between them -/

theorem joined_cons (h : ws ≠ []) (w : List Char) : joined sep (w :: ws) = w ++ sep :: joined sep ws := by
  unfold joined
  rw [List.intercalate_cons_of_ne_nil h, List.append_assoc, List.singleton_append]

theorem joined_singleton (w : List Char) : joined sep [w] = w := List.intercalate_singleton

variable {vs : List (List Char)}

theorem joined_append (hv : vs ≠ []) (hw : ws ≠ []) :
    joined sep (vs ++ ws) = joined sep vs ++ sep :: joined sep ws := by
  induction vs with
  | nil => exact absurd rfl hv
  | cons v vs ih =>
      by_cases hvs : vs = []
      · rw [hvs, List.singleton_append, joined_cons hw, joined_singleton]
      · rw [List.cons_append, joined_cons (List.append_ne_nil_of_left_ne_nil hvs ws),
          joined_cons hvs, ih hvs, List.append_assoc, List.cons_append]

/-- The first separator ends the first word. -/
theorem append_sep_inj {v w front back : List Char} (hv : sep ∉ v) (hw : sep ∉ w)
    (h : v ++ sep :: front = w ++ sep :: back) : v = w ∧ front = back := by
  induction v generalizing w with
  | nil =>
      cases w with
      | nil => exact ⟨rfl, List.tail_eq_of_cons_eq h⟩
      | cons d w => exact absurd (List.head_eq_of_cons_eq h ▸ List.mem_cons_self ..) hw
  | cons c v ih =>
      cases w with
      | nil => exact absurd (List.head_eq_of_cons_eq h ▸ List.mem_cons_self ..) hv
      | cons d w =>
          obtain ⟨rfl, htail⟩ := List.cons.inj h
          obtain ⟨rfl, hrest⟩ := ih (fun hmem => hv (List.mem_cons_of_mem c hmem))
            (fun hmem => hw (List.mem_cons_of_mem c hmem)) htail
          exact ⟨rfl, hrest⟩

/-- Words without the separator are what their text is cut into. -/
theorem joined_inj (hv : vs ≠ []) (hw : ws ≠ [])
    (hvs : ∀ v ∈ vs, sep ∉ v) (hws : ∀ w ∈ ws, sep ∉ w) :
    joined sep vs = joined sep ws ↔ vs = ws := by
  refine ⟨fun h => ?_, fun h => h ▸ rfl⟩
  induction vs generalizing ws with
  | nil => exact absurd rfl hv
  | cons v vs ih =>
      obtain ⟨w, ws, rfl⟩ := List.exists_cons_of_ne_nil hw
      have hvfree := hvs v (List.mem_cons_self ..)
      have hwfree := hws w (List.mem_cons_self ..)
      by_cases hvs' : vs = []
      · by_cases hws' : ws = []
        · rw [hvs', hws', joined_singleton, joined_singleton] at h
          rw [hvs', hws', h]
        · rw [hvs', joined_singleton, joined_cons hws'] at h
          exact absurd (h ▸ List.mem_append_right w (List.mem_cons_self ..)) hvfree
      · by_cases hws' : ws = []
        · rw [hws', joined_singleton, joined_cons hvs'] at h
          exact absurd (h ▸ List.mem_append_right v (List.mem_cons_self ..)) hwfree
        · rw [joined_cons hvs', joined_cons hws'] at h
          obtain ⟨rfl, hrest⟩ := append_sep_inj hvfree hwfree h
          rw [ih hvs' hws' (fun u hu => hvs u (List.mem_cons_of_mem v hu))
            (fun u hu => hws u (List.mem_cons_of_mem v hu)) hrest]

/-- Words in a row in a list are a part of the text of the list. -/
theorem joined_infix (h : vs <:+: ws) : joined sep vs <:+: joined sep ws := by
  obtain ⟨front, back, rfl⟩ := h
  have hfront : ∀ xs : List (List Char), joined sep vs <:+: joined sep (xs ++ vs) := by
    intro xs
    by_cases hx : xs = []
    · rw [hx, List.nil_append]
    · by_cases hv : vs = []
      · rw [hv]
        exact List.nil_infix
      · rw [joined_append hx hv]
        exact ⟨joined sep xs ++ [sep], [], by simp⟩
  refine (hfront front).trans ?_
  by_cases hback : back = []
  · rw [hback, List.append_nil]
  · by_cases hboth : front ++ vs = []
    · rw [hboth]
      exact List.nil_infix
    · rw [joined_append hboth hback]
      exact ⟨[], sep :: joined sep back, rfl⟩

/-! ### Collapsing and trimming -/

/-- The text with every run of separators replaced by `sep`. -/
def collapseRuns (p : Char → Bool) (sep : Char) : List Char → List Char
  | [] => []
  | [c] => if p c then [sep] else [c]
  | c :: d :: cs =>
      if p c then
        if p d then collapseRuns p sep (d :: cs) else sep :: collapseRuns p sep (d :: cs)
      else c :: collapseRuns p sep (d :: cs)

theorem collapseRuns_cons_of_not (h : p c = false) (cs : List Char) :
    collapseRuns p sep (c :: cs) = c :: collapseRuns p sep cs := by
  cases cs with
  | nil => simp only [collapseRuns, h, Bool.false_eq_true, if_false]
  | cons d cs => simp only [collapseRuns, h, Bool.false_eq_true, if_false]

/-- A text without separators is left as it is. -/
theorem collapseRuns_of_plain (h : ∀ c ∈ cs, p c = false) : collapseRuns p sep cs = cs := by
  induction cs with
  | nil => rfl
  | cons c cs ih =>
      rw [collapseRuns_cons_of_not (h c (List.mem_cons_self ..)),
        ih fun d hd => h d (List.mem_cons_of_mem c hd)]

theorem length_collapseRuns_le (p : Char → Bool) (sep : Char) (cs : List Char) :
    (collapseRuns p sep cs).length ≤ cs.length := by
  induction cs using collapseRuns.induct p with
  | case1 => exact le_rfl
  | case2 c hc => simp [collapseRuns, hc]
  | case3 c hc => simp [collapseRuns, hc]
  | case4 c d cs hc hd ih =>
      rw [collapseRuns, if_pos hc, if_pos hd]
      exact ih.trans (Nat.le_succ _)
  | case5 c d cs hc hd ih =>
      rw [collapseRuns, if_pos hc, if_neg hd]
      exact Nat.succ_le_succ ih
  | case6 c d cs hc ih =>
      rw [collapseRuns, if_neg hc]
      exact Nat.succ_le_succ ih

/-- What is left of a text whose runs are replaced by something else holds no separator. -/
theorem plain_of_mem_collapseRuns (hsep : p sep = false) :
    ∀ c ∈ collapseRuns p sep cs, p c = false := by
  induction cs using collapseRuns.induct p with
  | case1 => exact fun c hc => nomatch hc
  | case2 c hc => simp [collapseRuns, hc, hsep]
  | case3 c hc => simp [collapseRuns, hc]
  | case4 c d cs hc hd ih =>
      rw [collapseRuns, if_pos hc, if_pos hd]
      exact ih
  | case5 c d cs hc hd ih =>
      rw [collapseRuns, if_pos hc, if_neg hd]
      exact List.forall_mem_cons.mpr ⟨hsep, ih⟩
  | case6 c d cs hc ih =>
      rw [collapseRuns, if_neg hc]
      exact List.forall_mem_cons.mpr ⟨Bool.eq_false_iff.mpr hc, ih⟩

/-- No separator, or one. -/
def Gap (sep : Char) (gap : List Char) : Prop := gap = [] ∨ gap = [sep]

/-- What collapsing leaves, after a separator and after an open word. -/
theorem collapseRuns_from (cs : List Char) :
    (∀ c, p c = true → ∃ r, Gap sep r ∧ (words p cs = [] → r = []) ∧
      collapseRuns p sep (c :: cs) = sep :: (joined sep (words p cs) ++ r)) ∧
    ∀ carry, carry ≠ [] → ∃ r, Gap sep r ∧
      carry ++ collapseRuns p sep cs = joined sep (wordsFrom p carry cs) ++ r := by
  induction cs with
  | nil =>
      refine ⟨fun c hc => ⟨[], .inl rfl, fun _ => rfl, ?_⟩, fun carry hne => ⟨[], .inl rfl, ?_⟩⟩
      · rw [collapseRuns, if_pos hc]
        rfl
      · rw [wordsFrom, if_neg hne, joined_singleton]
        rfl
  | cons d cs ih =>
      obtain ⟨hafter, hopen⟩ := ih
      by_cases hd : p d = true
      · constructor
        · intro c hc
          obtain ⟨r, hr, hnone, hrest⟩ := hafter d hd
          rw [words_cons_sep hd, collapseRuns, if_pos hc, if_pos hd]
          exact ⟨r, hr, hnone, hrest⟩
        · intro carry hne
          obtain ⟨r, hr, hnone, hrest⟩ := hafter d hd
          have hopened : wordsFrom p carry (d :: cs) = carry :: words p cs := by
            rw [wordsFrom, if_pos hd, if_neg hne]
            rfl
          rw [hopened, hrest]
          by_cases hwords : words p cs = []
          · refine ⟨[sep], .inr rfl, ?_⟩
            rw [hnone hwords, hwords, joined_singleton]
            rfl
          · refine ⟨r, hr, ?_⟩
            rw [joined_cons hwords, List.append_assoc]
            rfl
      · have hd' := Bool.eq_false_iff.mpr hd
        constructor
        · intro c hc
          obtain ⟨r, hr, hrest⟩ := hopen [d] (List.cons_ne_nil d [])
          have hwords : words p (d :: cs) = wordsFrom p [d] cs := by
            rw [words, wordsFrom, if_neg hd]
            rfl
          refine ⟨r, hr, fun hnil => ?_, ?_⟩
          · exact absurd (hwords.symm.trans hnil) (wordsFrom_ne_nil (List.cons_ne_nil d []))
          · rw [collapseRuns, if_pos hc, if_neg hd, hwords, ← hrest,
              collapseRuns_cons_of_not hd']
            rfl
        · intro carry hne
          obtain ⟨r, hr, hrest⟩ := hopen (carry ++ [d]) (by simp)
          refine ⟨r, hr, ?_⟩
          rw [wordsFrom, if_neg hd, ← hrest, collapseRuns_cons_of_not hd',
            List.append_assoc]
          rfl

theorem exists_collapseRuns (cs : List Char) : ∃ l r, Gap sep l ∧ Gap sep r ∧
    collapseRuns p sep cs = l ++ (joined sep (words p cs) ++ r) := by
  cases cs with
  | nil => exact ⟨[], [], .inl rfl, .inl rfl, rfl⟩
  | cons c cs =>
      by_cases hc : p c = true
      · obtain ⟨r, hr, -, hrest⟩ := (collapseRuns_from cs).1 c hc
        rw [words_cons_sep hc]
        exact ⟨[sep], r, .inr rfl, hr, hrest⟩
      · obtain ⟨r, hr, hrest⟩ := (collapseRuns_from cs).2 [c] (List.cons_ne_nil c [])
        refine ⟨[], r, .inl rfl, hr, ?_⟩
        rw [collapseRuns_cons_of_not (Bool.eq_false_iff.mpr hc), words, wordsFrom, if_neg hc]
        exact hrest

theorem Gap.separates (hsep : p sep = true) {gap : List Char} (h : Gap sep gap) :
    ∀ c ∈ gap, p c = true := by
  rcases h with rfl | rfl
  · exact fun c hc => nomatch hc
  · intro c hc
    rwa [List.mem_singleton.mp hc]

theorem dropWhile_append_of_forall {p : Char → Bool} {front : List Char} (hfront : ∀ c ∈ front, p c)
    (back : List Char) : (front ++ back).dropWhile p = back.dropWhile p := by
  induction front with
  | nil => rfl
  | cons c front ih =>
      rw [List.cons_append, List.dropWhile_cons_of_pos (hfront c (List.mem_cons_self ..))]
      exact ih fun d hd => hfront d (List.mem_cons_of_mem c hd)

/-- Trimming takes away what surrounds a text that neither starts nor ends with a separator. -/
theorem trimWith_around {l r : List Char} (hl : ∀ c ∈ l, p c = true)
    (hr : ∀ c ∈ r, p c = true) (hhead : ∀ c, cs.head? = some c → p c = false)
    (hlast : ∀ c, cs.getLast? = some c → p c = false) : trimWith p (l ++ (cs ++ r)) = cs := by
  have hdrop : ∀ xs : List Char, (∀ c, xs.head? = some c → p c = false) →
      ∀ ys : List Char, (∀ c ∈ ys, p c = true) →
        (xs ++ ys).dropWhile p = if xs = [] then [] else xs ++ ys := by
    intro xs hxs ys hys
    cases xs with
    | nil =>
        rw [List.nil_append, if_pos rfl]
        exact List.dropWhile_eq_nil_iff.mpr hys
    | cons x xs =>
        rw [if_neg (List.cons_ne_nil x xs), List.cons_append,
          List.dropWhile_cons_of_neg (by rw [hxs x rfl]; exact Bool.false_ne_true)]
  unfold trimWith
  rw [dropWhile_append_of_forall hl, hdrop cs hhead r hr]
  by_cases hcs : cs = []
  · rw [if_pos hcs, hcs]
    rfl
  · have hrev : ∀ c ∈ r.reverse, p c = true := fun c hc => hr c (List.mem_reverse.mp hc)
    have hends := hdrop cs.reverse (by rwa [List.head?_reverse]) [] fun c hc => nomatch hc
    rw [List.append_nil, if_neg (mt List.reverse_eq_nil_iff.mp hcs)] at hends
    rw [if_neg hcs, List.reverse_append, dropWhile_append_of_forall hrev, hends,
      List.reverse_reverse]

theorem head?_joined (h : ∀ w ∈ ws, w ≠ [] ∧ ∀ c ∈ w, p c = false) :
    ∀ c, (joined sep ws).head? = some c → p c = false := by
  intro c hc
  cases ws with
  | nil => exact nomatch hc
  | cons w ws =>
      obtain ⟨hne, hplain⟩ := h w (List.mem_cons_self ..)
      have hhead : (joined sep (w :: ws)).head? = w.head? := by
        by_cases hws : ws = []
        · rw [hws, joined_singleton]
        · rw [joined_cons hws, List.head?_append_of_ne_nil w hne]
      exact hplain c (List.mem_of_mem_head? (hhead ▸ hc))

theorem getLast?_joined (h : ∀ w ∈ ws, w ≠ [] ∧ ∀ c ∈ w, p c = false) :
    ∀ c, (joined sep ws).getLast? = some c → p c = false := by
  induction ws with
  | nil => exact fun c hc => nomatch hc
  | cons w ws ih =>
      intro c hc
      by_cases hws : ws = []
      · rw [hws, joined_singleton] at hc
        exact (h w (List.mem_cons_self ..)).2 c (List.mem_of_getLast? hc)
      · have hrest := fun v hv => h v (List.mem_cons_of_mem w hv)
        have hne : joined sep ws ≠ [] := by
          obtain ⟨v, vs, rfl⟩ := List.exists_cons_of_ne_nil hws
          have hv := (hrest v (List.mem_cons_self ..)).1
          by_cases hvs : vs = []
          · rwa [hvs, joined_singleton]
          · rw [joined_cons hvs]
            simp
        rw [joined_cons hws, List.append_cons, List.getLast?_append_of_ne_nil _ hne] at hc
        exact ih hrest c hc

theorem trimWith_of_ends (hhead : ∀ c, cs.head? = some c → p c = false)
    (hlast : ∀ c, cs.getLast? = some c → p c = false) : trimWith p cs = cs := by
  have hnil : ∀ c ∈ ([] : List Char), p c = true := fun c hc => nomatch hc
  have haround := trimWith_around hnil hnil hhead hlast
  rwa [List.nil_append, List.append_nil] at haround

/-- A text that is collapsed and trimmed is its words, joined. -/
theorem trimWith_collapseRuns (hsep : p sep = true) (cs : List Char) :
    trimWith p (collapseRuns p sep cs) = joined sep (words p cs) := by
  obtain ⟨l, r, hl, hr, hcs⟩ := exists_collapseRuns cs
  have hwords : ∀ w ∈ words p cs, w ≠ [] ∧ ∀ c ∈ w, p c = false := fun _ hw => words_spec hw
  rw [hcs]
  exact trimWith_around (hl.separates hsep) (hr.separates hsep) (head?_joined hwords) (getLast?_joined hwords)

/-- The words of joined words. -/
theorem words_joined (hsep : p sep = true) (h : ∀ w ∈ ws, w ≠ [] ∧ ∀ c ∈ w, p c = false) :
    words p (joined sep ws) = ws := by
  induction ws with
  | nil => rfl
  | cons w ws ih =>
      obtain ⟨⟨hne, hw⟩, hrest⟩ := List.forall_mem_cons.mp h
      by_cases hws : ws = []
      · rw [hws, joined_singleton]
        exact words_of_plain hw hne
      · rw [joined_cons hws, words_append_cons hsep, ih hrest, words_of_plain hw hne]
        rfl

/-- The last character of a collapsed text is one that ends the text. -/
theorem getLast?_collapseRuns (h : ∀ c, cs.getLast? = some c → p c = false) :
    (collapseRuns p sep cs).getLast? = cs.getLast? := by
  induction cs using collapseRuns.induct p with
  | case1 => rfl
  | case2 c hc => exact absurd hc (Bool.eq_false_iff.mp (h c rfl))
  | case3 c hc => simp [collapseRuns, hc]
  | case4 c d cs hc hd ih =>
      rw [List.getLast?_cons_cons] at h ⊢
      rw [collapseRuns, if_pos hc, if_pos hd]
      exact ih h
  | case5 c d cs hc hd ih =>
      rw [List.getLast?_cons_cons] at h ⊢
      rw [collapseRuns, if_pos hc, if_neg hd, collapseRuns_cons_of_not (Bool.eq_false_iff.mpr hd),
        List.getLast?_cons_cons, ← collapseRuns_cons_of_not (Bool.eq_false_iff.mpr hd)]
      exact ih h
  | case6 c d cs hc ih =>
      rw [List.getLast?_cons_cons] at h ⊢
      rw [collapseRuns, if_neg hc, List.getLast?_cons, ih h]
      cases hlast : (d :: cs).getLast? with
      | none => exact absurd (List.getLast?_eq_none_iff.mp hlast) (List.cons_ne_nil d cs)
      | some last => rfl

/-- A text that is trimmed and then collapsed is its words, joined. -/
theorem collapseRuns_trimWith (hsep : p sep = true) (cs : List Char) :
    collapseRuns p sep (trimWith p cs) = joined sep (words p cs) := by
  obtain ⟨hhead, hlast⟩ := trimWith_ends p cs
  have hwords := trimWith_collapseRuns hsep (trimWith p cs)
  rw [words_trimWith] at hwords
  rw [← hwords]
  refine (trimWith_of_ends (fun c hc => ?_) fun c hc => ?_).symm
  · cases htrim : trimWith p cs with
    | nil =>
        rw [htrim] at hc
        cases hc
    | cons d ds =>
        have hd : p d = false := hhead d (by rw [htrim]; rfl)
        rw [htrim, collapseRuns_cons_of_not hd] at hc
        cases hc
        exact hd
  · rw [getLast?_collapseRuns hlast] at hc
    exact hlast c hc

/-! ### White space -/

theorem trimChars_eq (cs : List Char) : trimChars cs = trimWith isSpace cs := rfl

theorem collapseChars_eq (cs : List Char) : collapseChars cs = collapseRuns isSpace ' ' cs := by
  induction cs with
  | nil => rfl
  | cons c cs ih =>
      cases cs with
      | nil => rfl
      | cons d cs => rw [collapseChars, collapseRuns, ih]

/-- A text that is collapsed and trimmed is its words with one space between each two. -/
theorem trimChars_collapseChars (cs : List Char) :
    trimChars (collapseChars cs) = joined ' ' (words isSpace cs) := by
  rw [trimChars_eq, collapseChars_eq]
  exact trimWith_collapseRuns rfl cs

/-- So is one that is trimmed and collapsed. -/
theorem collapseChars_trimChars (cs : List Char) :
    collapseChars (trimChars cs) = joined ' ' (words isSpace cs) := by
  rw [trimChars_eq, collapseChars_eq]
  exact collapseRuns_trimWith rfl cs

theorem collapse_trim_collapse_trim (s : String) :
    collapse (trim (collapse (trim s))) = collapse (trim s) := by
  have hwords : ∀ w ∈ words isSpace s.toList, w ≠ [] ∧ ∀ c ∈ w, isSpace c = false :=
    fun _ hw => words_spec hw
  simp only [collapse, trim, String.toList_ofList, collapseChars_trimChars]
  rw [words_joined rfl hwords]

end Text

/-! ### Lower case -/

/-- The space is its own lower case and no part of a final sigma's surroundings. -/
structure Unicode.SpacePlain (u : Unicode) : Prop where
  lower : u.lower ' ' = [' ']
  cased : u.cased ' ' = false
  caseIgnorable : u.caseIgnorable ' ' = false

namespace Unicode

variable {u : Unicode}

theorem casedNext_append {front back : List Char} (h : u.casedNext back = false) :
    u.casedNext (front ++ back) = u.casedNext front := by
  induction front with
  | nil => exact h
  | cons c front ih => rw [List.cons_append, casedNext, casedNext, ih]

theorem SpacePlain.casedNext_cons (h : u.SpacePlain) (cs : List Char) :
    u.casedNext (' ' :: cs) = false := by
  rw [casedNext, h.caseIgnorable, h.cased]
  rfl

/-- A text is lower-cased apart from what surrounds it where no cased character is near. -/
theorem lowerFrom_append {seen back : List Char} (hseen : u.casedNext seen = false)
    (hback : u.casedNext back = false) (near front : List Char) :
    u.lowerFrom (near ++ seen) (front ++ back) =
      u.lowerFrom near front ++ u.lowerFrom (front.reverse ++ (near ++ seen)) back := by
  induction front generalizing near with
  | nil => rfl
  | cons c front ih =>
      have hrest := ih (c :: near)
      rw [List.cons_append] at hrest
      rw [List.cons_append, lowerFrom, lowerFrom, hrest, casedNext_append hseen,
        casedNext_append hback, List.append_assoc, List.reverse_cons, List.append_assoc]
      rfl

/-- Spaced words are lower-cased word by word. -/
theorem lowerFrom_joined (h : u.SpacePlain) {seen : List Char} (hseen : u.casedNext seen = false)
    (ws : List (List Char)) :
    u.lowerFrom seen (Text.joined ' ' ws) = Text.joined ' ' (ws.map (u.lowerFrom [])) := by
  induction ws generalizing seen with
  | nil => rfl
  | cons w ws ih =>
      by_cases hws : ws = []
      · have hone := lowerFrom_append hseen (show u.casedNext [] = false from rfl) [] w
        rw [List.append_nil, lowerFrom, List.append_nil] at hone
        rw [hws, Text.joined_singleton, List.map_singleton, Text.joined_singleton]
        exact hone
      · have hmap : ws.map (u.lowerFrom []) ≠ [] := mt List.map_eq_nil_iff.mp hws
        have hfront := lowerFrom_append hseen (h.casedNext_cons (Text.joined ' ' ws)) [] w
        rw [List.map_cons, Text.joined_cons hws, Text.joined_cons hmap]
        refine hfront.trans ?_
        rw [lowerFrom, if_neg (by simp), h.lower, ih (h.casedNext_cons _)]
        rfl

end Unicode

/-! ### Pieces between separators -/

namespace Regex

/-- A text and its pieces between separators. -/
inductive Cut (Sep : List Char → Prop) : List Char → List (List Char) → Prop where
  | last (text : List Char) : Cut Sep text [text]
  | next {sep rest : List Char} {pieces : List (List Char)} (piece : List Char) (ne : sep ≠ [])
      (isSep : Sep sep) (tail : Cut Sep rest pieces) :
      Cut Sep (piece ++ (sep ++ rest)) (piece :: pieces)

theorem cut_splitFrom (r : Regex) (fuel : Nat) (before : Option Char) (text : List Char) :
    Cut (Consumes r) text (splitFrom r fuel before text) := by
  induction fuel generalizing before text with
  | zero => exact .last text
  | succ fuel ih =>
      rw [splitFrom]
      split
      · exact .last text
      · rename_i m hm
        split
        · exact .last text
        · rename_i x xs hx
          have hfound := find_some hm
          obtain ⟨u, hu, hrest⟩ := consumes_of_mem_run hfound.mem
          obtain rfl := List.append_cancel_right hrest
          conv => arg 2; rw [hfound.parts]
          exact .next m.skipped (hx ▸ List.cons_ne_nil x xs) hu (ih m.before m.rest)

/-- A split by a pattern cuts the text at matches of the pattern. -/
theorem cut_split (r : Regex) (text : List Char) : Cut (Consumes r) text (split r text) :=
  cut_splitFrom r _ none text

theorem Cut.words_inner {p : Char → Bool} {Sep : List Char → Prop} {text : List Char} {pieces : List (List Char)}
    (h : Cut Sep text pieces) (hspace : ∀ u, Sep u → ∀ c ∈ u, p c = true)
    {piece : List Char} (hmem : piece ∈ pieces) : Text.words p piece <:+: Text.words p text := by
  induction h with
  | last text => rw [List.mem_singleton.mp hmem]
  | next front ne isSep tail ih =>
      rw [Text.words_append_between (hspace _ isSep) ne]
      rcases List.mem_cons.mp hmem with rfl | hmem
      · exact (List.prefix_append ..).isInfix
      · exact (ih hmem).trans (List.suffix_append ..).isInfix

/-- A text that has no separator is its only piece. -/
theorem Cut.eq_singleton {Sep : List Char → Prop} {text : List Char} {pieces : List (List Char)}
    (h : Cut Sep text pieces) (hno : ∀ u, Sep u → ∀ c ∈ u, c ∉ text) : pieces = [text] := by
  cases h with
  | last => rfl
  | @next sep rest pieces piece ne isSep tail =>
      obtain ⟨c, cs, rfl⟩ := List.exists_cons_of_ne_nil ne
      refine absurd ?_ (hno _ isSep c (List.mem_cons_self ..))
      exact List.mem_append_right _ (List.mem_append_left _ (List.mem_cons_self ..))

/-- The pattern matches by characters of one kind. -/
def Only (p : Char → Bool) : Regex → Prop
  | .empty => True
  | .cls c => ∀ x, c x = true → p x = true
  | .seq r s => Only p r ∧ Only p s
  | .alt r s => Only p r ∧ Only p s
  | .star r => Only p r
  | .group _ r => Only p r
  | .test _ => True
  | .look _ _ => True

theorem forall_of_consumes {p : Char → Bool} {r : Regex} (honly : Only p r) {u : List Char}
    (h : Consumes r u) : ∀ c ∈ u, p c = true := by
  induction r generalizing u with
  | empty | test | look =>
      rw [show u = [] from h]
      exact fun c hc => nomatch hc
  | cls c =>
      obtain ⟨x, rfl, hx⟩ := h
      intro y hy
      rw [List.mem_singleton.mp hy]
      exact honly x hx
  | seq r s ihr ihs =>
      obtain ⟨v, w, rfl, hv, hw⟩ := h
      exact fun c hc => (List.mem_append.mp hc).elim (ihr honly.1 hv c) (ihs honly.2 hw c)
  | alt r s ihr ihs => exact h.elim (ihr honly.1) (ihs honly.2)
  | star r ih =>
      have hrepeats : Repeats (Consumes r) u := h
      induction hrepeats with
      | nil => exact fun c hc => nomatch hc
      | cons _ hu htail ihtail =>
          exact fun c hc => (List.mem_append.mp hc).elim (ih honly hu c) (ihtail htail c)
  | group n r ih => exact ih honly h

end Regex

end Runir
