import Runir.Lib.Matches

/-!
# Library — Marks

The successive matches of a pattern in a text whose matches are known piece by piece.

* `Head r p q`: from `p` the engine ends at `q` first.  There is a rule for literals, for classes
  repeated (`Head.star_cls`), and for one pattern behind another (`Head.seq`).
* `Marked r n text groups`: a text of quiet stretches and marks, with what group `n` holds at each.
* `Marked.all_eq`: the successive matches of a marked text are its marks.
* `replaceAll_of_quiet`, `replaceAll_sublist`: taking matches out.
-/

namespace Runir.Regex

/-- The engine reports `q` from `p`. -/
def Head (r : Regex) (p q : Place) : Prop := (run r p).head? = some q

theorem Head.seq {r s : Regex} {p q t : Place} (h : Head r p q) (h' : Head s q t) :
    Head (.seq r s) p t := by
  obtain ⟨qs, hqs⟩ := List.head?_eq_some_iff.mp h
  obtain ⟨ts, hts⟩ := List.head?_eq_some_iff.mp h'
  unfold Head
  rw [run, hqs, List.flatMap_cons, hts]
  rfl

variable {r : Regex} {n : Nat}

theorem Head.group {p q : Place} (h : Head r p q) :
    Head (.group n r) p
      ⟨q.before, q.rest, (n, p.rest.take (p.rest.length - q.rest.length)) :: q.groups⟩ := by
  unfold Head
  rw [run, List.head?_map, show (run r p).head? = some q from h]
  rfl

variable {c : Char → Bool}

theorem head_cls {b : Option Char} {x : Char} {xs : List Char}
    {g : List (Nat × List Char)} (hx : c x = true) :
    Head (.cls c) ⟨b, x :: xs, g⟩ ⟨some x, xs, g⟩ := by
  unfold Head
  rw [run]
  dsimp only
  rw [if_pos hx]
  rfl

/-- What the engine reports for a literal, and where it does not match. -/
theorem run_seqs_chr (cs : List Char) (b : Option Char) (text : List Char)
    (g : List (Nat × List Char)) :
    run (seqs (cs.map chr)) ⟨b, text, g⟩ =
      if cs <+: text then [⟨lastOf b cs, text.drop cs.length, g⟩] else [] := by
  have hchr : ∀ (c : Char) (b : Option Char) (text : List Char),
      run (chr c) ⟨b, text, g⟩ = if [c] <+: text then [⟨some c, text.drop 1, g⟩] else [] := by
    intro c b text
    cases text with
    | nil => simp [chr, run]
    | cons x xs =>
        by_cases hx : c = x
        · subst hx
          simp [chr, run]
        · simp [chr, run, hx, Ne.symm hx]
  induction cs generalizing b text with
  | nil => simp [seqs, run, lastOf]
  | cons c cs ih =>
      cases cs with
      | nil => exact hchr c b text
      | cons c' cs =>
          rw [List.map_cons, List.map_cons, seqs, ← List.map_cons, run, hchr]
          · cases text with
            | nil => simp
            | cons x xs =>
                by_cases hx : c = x
                · subst hx
                  rw [if_pos (by simp), List.flatMap_singleton, ih]
                  simp only [List.cons_prefix_cons, true_and, List.drop_succ_cons, List.drop_zero,
                    List.length_cons, lastOf]
                · simp [hx]
          · simp

theorem head_lit (s : String) (rest : List Char) (b : Option Char) (g : List (Nat × List Char)) :
    Head (lit s) ⟨b, s.toList ++ rest, g⟩ ⟨lastOf b s.toList, rest, g⟩ := by
  unfold Head lit
  rw [run_seqs_chr, if_pos (List.prefix_append _ _), List.drop_left]
  rfl

/-- A pattern that begins with a literal matches where the literal stands. -/
theorem prefix_of_run_lit {s : String} {p : Place} (h : run (.seq (lit s) r) p ≠ []) :
    s.toList <+: p.rest ∧
      run r ⟨lastOf p.before s.toList, p.rest.drop s.toList.length, p.groups⟩ ≠ [] := by
  rw [run, lit, run_seqs_chr] at h
  split at h
  · next hpre =>
      rw [List.flatMap_singleton] at h
      exact ⟨hpre, h⟩
  · exact absurd rfl h

/-- A class repeated goes on as far as it can. -/
theorem head_star_cls {u v : List Char} (hu : ∀ x ∈ u, c x = true)
    (hv : ∀ x, v.head? = some x → c x = false) (b : Option Char) (g : List (Nat × List Char)) :
    Head (.star (.cls c)) ⟨b, u ++ v, g⟩ ⟨lastOf b u, v, g⟩ := by
  have hrounds : ∀ (u : List Char) (fuel : Nat) (b : Option Char), u.length ≤ fuel →
      (∀ x ∈ u, c x = true) →
      (rounds (run (.cls c)) fuel ⟨b, u ++ v, g⟩).head? = some ⟨lastOf b u, v, g⟩ := by
    intro u
    induction u with
    | nil =>
        intro fuel b _ _
        have hstop : run (.cls c) ⟨b, v, g⟩ = [] := by
          rw [run]
          cases v with
          | nil => rfl
          | cons x xs =>
              dsimp only
              rw [hv x rfl]
              rfl
        cases fuel with
        | zero => rfl
        | succ fuel =>
            rw [List.nil_append, rounds, hstop]
            rfl
    | cons x u ih =>
        intro fuel b hfuel hu
        cases fuel with
        | zero => cases hfuel
        | succ fuel =>
            have hstep : run (.cls c) ⟨b, x :: (u ++ v), g⟩ = [⟨some x, u ++ v, g⟩] := by
              rw [run]
              dsimp only
              rw [if_pos (hu x (List.mem_cons_self ..))]
            have hnext := ih fuel (some x) (Nat.le_of_succ_le_succ hfuel)
              fun y hy => hu y (List.mem_cons_of_mem x hy)
            obtain ⟨qs, hqs⟩ := List.head?_eq_some_iff.mp hnext
            rw [List.cons_append, rounds, hstep]
            simp only [List.length_cons, Nat.lt_succ_self, decide_true, List.filter_cons_of_pos,
              List.filter_nil, List.flatMap_cons, hqs]
            rfl
  exact hrounds u _ b (by rw [List.length_append]; exact Nat.le_add_right _ _) hu

/-- A class once or more, in a group, which then holds what was matched. -/
theorem head_group_plus_cls (n : Nat) {x : Char} {u v : List Char} (hx : c x = true)
    (hu : ∀ y ∈ u, c y = true) (hv : ∀ y, v.head? = some y → c y = false) (b : Option Char)
    (g : List (Nat × List Char)) :
    Head (.group n (plus (.cls c))) ⟨b, x :: u ++ v, g⟩ ⟨lastOf b (x :: u), v, (n, x :: u) :: g⟩ := by
  have hplus : Head (plus (.cls c)) ⟨b, x :: u ++ v, g⟩ ⟨lastOf b (x :: u), v, g⟩ :=
    (head_cls hx).seq (head_star_cls hu hv (some x) g)
  have hgroup := hplus.group (n := n)
  dsimp only at hgroup
  rwa [List.length_append, Nat.add_sub_cancel, List.take_left] at hgroup

/-- The pattern matches nowhere in `front`, if `back` follows. -/
def Quiet (r : Regex) (front back : List Char) : Prop :=
  ∀ v, v ≠ [] → v <:+ front → ∀ b, run r ⟨b, v ++ back, []⟩ = []

theorem quiet_nil (r : Regex) (back : List Char) : Quiet r [] back :=
  fun _ hv hsuf => absurd (List.suffix_nil.mp hsuf) hv

theorem Quiet.append {front mid back : List Char} (h : Quiet r front (mid ++ back))
    (h' : Quiet r mid back) : Quiet r (front ++ mid) back := by
  intro v hv hsuf b
  obtain ⟨u, hu⟩ := hsuf
  rcases List.append_eq_append_iff.mp hu with ⟨w, rfl, rfl⟩ | ⟨w, rfl, rfl⟩
  · cases w with
    | nil => exact h' _ hv List.suffix_rfl b
    | cons x w =>
        rw [List.append_assoc]
        exact h _ (List.cons_ne_nil x w) (List.suffix_append u _) b
  · exact h' v hv (List.suffix_append w v) b

/-- A quiet stretch is skipped. -/
theorem find_append {front back : List Char} (h : Quiet r front back) (b : Option Char) :
    find r b (front ++ back) =
      (find r (lastOf b front) back).map fun m => { m with skipped := front ++ m.skipped } := by
  induction front generalizing b with
  | nil => simp [lastOf]
  | cons x front ih =>
      have hhere := h (x :: front) (List.cons_ne_nil _ _) List.suffix_rfl b
      rw [List.cons_append] at hhere
      rw [List.cons_append, find, hhere, ih fun v hv hsuf => h v hv (hsuf.trans (List.suffix_cons x front))]
      simp only [List.head?_nil, Option.map_map, lastOf]
      rfl

variable {text : List Char}

theorem find_of_head {b : Option Char} {q : Place} (h : Head r ⟨b, text, []⟩ q) (hne : text ≠ []) :
    find r b text = some ⟨[], text.take (text.length - q.rest.length), q.groups, q.before, q.rest⟩ := by
  obtain ⟨x, xs, rfl⟩ := List.exists_cons_of_ne_nil hne
  rw [find, show (run r ⟨b, x :: xs, []⟩).head? = some q from h]

theorem find_of_quiet (h : Quiet r text [])
    (hnil : ∀ b, run r ⟨b, [], []⟩ = []) (b : Option Char) : find r b text = none := by
  have hfind := find_append h b
  rw [List.append_nil] at hfind
  rw [hfind, find, hnil]
  rfl

/-- A text of quiet stretches and marks, with what the group holds at each mark. -/
inductive Marked (r : Regex) (n : Nat) : List Char → List (List Char) → Prop
  | done {text : List Char} (quiet : Quiet r text []) : Marked r n text []
  | next {front mark rest tok : List Char} {toks : List (List Char)}
      (quiet : Quiet r front (mark ++ rest)) (ne : mark ≠ [])
      (head : ∀ b, ∃ b' g, Head r ⟨b, mark ++ rest, []⟩ ⟨b', rest, g⟩ ∧ g.lookup n = some tok)
      (tail : Marked r n rest toks) : Marked r n (front ++ (mark ++ rest)) (tok :: toks)

variable {toks : List (List Char)}

theorem Marked.allFrom_eq
    (h : Marked r n text toks) (hnil : ∀ b, run r ⟨b, [], []⟩ = []) {fuel : Nat}
    (hfuel : text.length < fuel) (b : Option Char) :
    (allFrom r fuel b text).map (·.group? n) = toks.map some := by
  induction h generalizing fuel b with
  | done quiet =>
      obtain ⟨fuel, rfl⟩ := Nat.exists_eq_add_of_lt hfuel
      rw [allFrom, find_of_quiet quiet hnil]
      rfl
  | @next front mark rest tok toks quiet ne head tail ih =>
      cases fuel with
      | zero => exact absurd hfuel (Nat.not_lt_zero _)
      | succ fuel =>
          obtain ⟨b', g, hhead, htok⟩ := head (lastOf b front)
          have hfind := find_append quiet b
          rw [find_of_head hhead (by simp [ne])] at hfind
          rw [allFrom, hfind]
          have htake : (mark ++ rest).take ((mark ++ rest).length - rest.length) = mark := by
            rw [List.length_append, Nat.add_sub_cancel, List.take_left]
          dsimp only [Option.map_some]
          rw [htake]
          obtain ⟨x, xs, rfl⟩ := List.exists_cons_of_ne_nil ne
          dsimp only
          rw [List.length_append, List.length_append, List.length_cons] at hfuel
          rw [List.map_cons, ih (by omega) b', List.map_cons]
          exact congrArg (· :: toks.map some) htok

/-- The matches of a marked text are its marks. -/
theorem Marked.all_eq (h : Marked r n text toks) (hnil : ∀ b, run r ⟨b, [], []⟩ = []) :
    (all r text).map (·.group? n) = toks.map some :=
  h.allFrom_eq hnil (Nat.lt_succ_self _) none

/-- A marked text with a mark is matched. -/
theorem Marked.matchIn_eq {text tok : List Char}
    (h : Marked r n text (tok :: toks)) : matchIn r text = true := by
  cases h with
  | @next front mark rest _ _ quiet ne head tail =>
      obtain ⟨b', g, hhead, -⟩ := head (lastOf none front)
      have hfind := find_append quiet none
      rw [find_of_head hhead (by simp [ne])] at hfind
      unfold matchIn exec
      rw [hfind]
      rfl

/-- A quiet stretch may be put in front. -/
theorem Marked.append {front text : List Char}
    (h : Marked r n text toks) (hfront : Quiet r front text) : Marked r n (front ++ text) toks := by
  cases h with
  | done quiet => exact .done (.append (by rwa [List.append_nil]) quiet)
  | @next front' mark rest tok toks quiet ne head tail =>
      rw [← List.append_assoc]
      exact .next (hfront.append quiet) ne head tail

/-! ### Taking matches out -/

theorem replaceAll_of_quiet {f : Match → List Char}
    (h : Quiet r text []) (hnil : ∀ b, run r ⟨b, [], []⟩ = []) : replaceAll r f text = text := by
  rw [replaceAll, replaceFrom, find_of_quiet h hnil]

/-- What is left where matches are taken out. -/
theorem replaceAll_sublist (r : Regex) (text : List Char) :
    (replaceAll r (fun _ => []) text).Sublist text := by
  have hfrom : ∀ (fuel : Nat) (b : Option Char) (text : List Char),
      (replaceFrom r (fun _ => []) fuel b text).Sublist text := by
    intro fuel
    induction fuel with
    | zero => exact fun b text => List.Sublist.refl _
    | succ fuel ih =>
        intro b text
        rw [replaceFrom]
        cases hfind : find r b text with
        | none => exact List.Sublist.refl _
        | some m =>
            have hparts := (find_some hfind).parts
            have hrest : ∀ rest : List Char, rest.Sublist m.rest →
                (m.skipped ++ rest).Sublist text := fun rest h => by
              rw [hparts]
              exact (List.Sublist.refl _).append (h.trans (List.sublist_append_right _ _))
            dsimp only
            rw [List.append_nil]
            split
            · next htext hnil =>
                rw [← List.append_nil m.skipped]
                exact hrest [] (List.nil_sublist _)
            · next x xs htext hcons =>
                refine hrest _ ?_
                rw [hcons]
                exact (ih (some x) xs).cons_cons x
            · exact hrest _ (ih m.before m.rest)
  exact hfrom _ _ _

end Runir.Regex
