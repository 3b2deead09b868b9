import Runir.Lib.Language
import Runir.Lib.Marks

/-!
# Library — Anchored patterns

Patterns that have to match a whole text, `^r$`.

* `exec_anchored_of_head`: what the engine reports, where the first match of `r` is the whole text.
* `consumes_of_exec_anchored`: there is no report unless the text is one `r` consumes.
* `head_exactly_cls`, `consumes_exactly_cls_iff`, `consumes_plus_cls_iff`: classes counted and
  repeated.
-/

namespace Runir.Regex

/-- `^`, without the `m` flag. -/
def atStart : Regex := .test fun before _ => before.isNone

/-- `$`, without the `m` flag. -/
def atEnd : Regex := .test fun _ after => after.isNone

def anchored (r : Regex) : Regex := seqs [atStart, r, atEnd]

theorem head_test {c : Option Char → Option Char → Bool} {p : Place}
    (h : c p.before p.rest.head? = true) : Head (.test c) p p := by
  unfold Head
  rw [run, if_pos h]
  rfl

theorem mem_run_test_iff {c : Option Char → Option Char → Bool} {p q : Place} :
    q ∈ run (.test c) p ↔ q = p ∧ c p.before p.rest.head? = true := by
  rw [run]
  split
  · next h => simp [h]
  · next h => simp [h]

theorem Head.alt_left {r s : Regex} {p q : Place} (h : Head r p q) : Head (.alt r s) p q := by
  obtain ⟨qs, hqs⟩ := List.head?_eq_some_iff.mp h
  unfold Head
  rw [run, hqs]
  rfl

theorem Head.alt_right {r s : Regex} {p q : Place} (hr : run r p = []) (h : Head s p q) :
    Head (.alt r s) p q := by
  unfold Head
  rw [run, hr, List.nil_append]
  exact h

/-- A pattern does not match where the next character is none it begins with. -/
theorem run_cls_of_not {c : Char → Bool} {p : Place} (h : ∀ x, p.rest.head? = some x → c x = false) :
    run (.cls c) p = [] := by
  rw [run]
  cases hrest : p.rest with
  | nil => rfl
  | cons x xs =>
      dsimp only
      rw [h x (by rw [hrest]; rfl)]
      rfl

theorem run_seq_of_nil {r s : Regex} {p : Place} (h : run r p = []) : run (.seq r s) p = [] := by
  rw [run, h, List.flatMap_nil]

section
variable {c : Char → Bool} {n : Nat} {u v : List Char}

/-- A class counted. -/
theorem head_exactly_cls (hlength : u.length = n) (hu : ∀ x ∈ u, c x = true) (b : Option Char)
    (g : List (Nat × List Char)) :
    Head (exactly n (.cls c)) ⟨b, u ++ v, g⟩ ⟨lastOf b u, v, g⟩ := by
  induction n generalizing u b with
  | zero =>
      rw [List.length_eq_zero_iff.mp hlength]
      rfl
  | succ n ih =>
      cases u with
      | nil => cases hlength
      | cons x u =>
          have hx : Head (.cls c) ⟨b, x :: (u ++ v), g⟩ ⟨some x, u ++ v, g⟩ :=
            head_cls (hu x List.mem_cons_self)
          have hrest := ih (Nat.succ.inj hlength) (fun y hy => hu y (List.mem_cons_of_mem x hy))
            (some x)
          cases n with
          | zero =>
              rw [List.length_eq_zero_iff.mp (Nat.succ.inj hlength)]
              rw [List.length_eq_zero_iff.mp (Nat.succ.inj hlength)] at hx
              exact hx
          | succ n => exact hx.seq hrest

/-- A class counted, in a group, which then holds what was matched. -/
theorem head_group_exactly_cls (k : Nat) (hlength : u.length = n) (hu : ∀ x ∈ u, c x = true)
    (b : Option Char) (g : List (Nat × List Char)) :
    Head (.group k (exactly n (.cls c))) ⟨b, u ++ v, g⟩ ⟨lastOf b u, v, (k, u) :: g⟩ := by
  have hgroup := (head_exactly_cls (v := v) hlength hu b g).group (n := k)
  dsimp only at hgroup
  rwa [List.length_append, Nat.add_sub_cancel, List.take_left] at hgroup

theorem consumes_exactly_cls_iff :
    Consumes (exactly n (.cls c)) u ↔ u.length = n ∧ ∀ x ∈ u, c x = true := by
  induction n generalizing u with
  | zero =>
      constructor
      · rintro rfl
        simp
      · exact fun h => List.length_eq_zero_iff.mp h.1
  | succ n ih =>
      have hstep : Consumes (exactly (n + 1) (.cls c)) u ↔
          ∃ x w, u = x :: w ∧ c x = true ∧ Consumes (exactly n (.cls c)) w := by
        cases n with
        | zero =>
            constructor
            · rintro ⟨x, rfl, hx⟩
              exact ⟨x, [], rfl, hx, rfl⟩
            · rintro ⟨x, w, rfl, hx, rfl⟩
              exact ⟨x, rfl, hx⟩
        | succ n =>
            constructor
            · rintro ⟨_, w, rfl, ⟨x, rfl, hx⟩, hw⟩
              exact ⟨x, w, rfl, hx, hw⟩
            · rintro ⟨x, w, rfl, hx, hw⟩
              exact ⟨[x], w, rfl, ⟨x, rfl, hx⟩, hw⟩
      rw [hstep]
      constructor
      · rintro ⟨x, w, rfl, hx, hw⟩
        obtain ⟨hlength, hall⟩ := ih.mp hw
        exact ⟨by rw [List.length_cons, hlength], List.forall_mem_cons.mpr ⟨hx, hall⟩⟩
      · rintro ⟨hlength, hall⟩
        cases u with
        | nil => cases hlength
        | cons x w =>
            obtain ⟨hx, hw⟩ := List.forall_mem_cons.mp hall
            exact ⟨x, w, rfl, hx, ih.mpr ⟨Nat.succ.inj hlength, hw⟩⟩

theorem consumes_plus_cls_iff : Consumes (plus (.cls c)) u ↔ u ≠ [] ∧ ∀ x ∈ u, c x = true := by
  have hstar : ∀ {w : List Char}, Consumes (.star (.cls c)) w → ∀ x ∈ w, c x = true := by
    intro w hw
    induction hw with
    | nil => simp
    | cons _ hx _ ih =>
        obtain ⟨y, rfl, hy⟩ := hx
        exact List.forall_mem_cons.mpr ⟨hy, ih⟩
  constructor
  · rintro ⟨_, w, rfl, ⟨x, rfl, hx⟩, hw⟩
    exact ⟨by simp, List.forall_mem_cons.mpr ⟨hx, hstar hw⟩⟩
  · rintro ⟨hne, hall⟩
    cases u with
    | nil => exact absurd rfl hne
    | cons x w =>
        obtain ⟨hx, hw⟩ := List.forall_mem_cons.mp hall
        refine ⟨[x], w, rfl, ⟨x, rfl, hx⟩, ?_⟩
        clear hne hall
        induction w with
        | nil => exact .nil
        | cons y w ih =>
            obtain ⟨hy, hw⟩ := List.forall_mem_cons.mp hw
            exact .cons (u := [y]) (by simp) ⟨y, rfl, hy⟩ (ih hw)

end

/-! ### Whole texts -/

variable {r : Regex} {text : List Char}

theorem isSome_lastOf (x : Char) (xs : List Char) : (lastOf (some x) xs).isSome = true := by
  induction xs generalizing x with
  | nil => rfl
  | cons y ys ih => exact ih y

theorem exec_anchored_of_head {b : Option Char} {g : List (Nat × List Char)}
    (h : Head r ⟨none, text, []⟩ ⟨b, [], g⟩) :
    ∃ m, exec (anchored r) text = some m ∧ m.groups = g := by
  have hfirst : ∀ {text : List Char}, Head (anchored r) ⟨none, text, []⟩ ⟨b, [], g⟩ →
      ∃ m, find (anchored r) none text = some m ∧ m.groups = g := by
    intro text h
    cases text with
    | nil => exact ⟨_, by rw [find, show (run (anchored r) ⟨none, [], []⟩).head? = some _ from h]; rfl,
        rfl⟩
    | cons x xs => exact ⟨_, find_of_head h (by simp), rfl⟩
  have hend : Head atEnd ⟨b, [], g⟩ ⟨b, [], g⟩ := head_test rfl
  have hstart : Head atStart ⟨none, text, []⟩ ⟨none, text, []⟩ := head_test rfl
  have hfound : Head (anchored r) ⟨none, text, []⟩ ⟨b, [], g⟩ := hstart.seq (h.seq hend)
  exact hfirst hfound

theorem consumes_of_exec_anchored {m : Match} (h : exec (anchored r) text = some m) :
    Consumes r text := by
  have hleft := find_some h
  obtain ⟨qs, hqs⟩ := List.head?_eq_some_iff.mp hleft.here
  have hmem : (⟨m.before, m.rest, m.groups⟩ : Place) ∈
      run (anchored r) ⟨lastOf none m.skipped, m.text ++ m.rest, []⟩ := by
    rw [hqs]
    exact List.mem_cons_self
  obtain ⟨p, hp, hmem⟩ := List.mem_flatMap.mp hmem
  obtain ⟨q, hq, hend⟩ := List.mem_flatMap.mp hmem
  obtain ⟨rfl, hbefore⟩ := mem_run_test_iff.mp hp
  obtain ⟨rfl, hafter⟩ := mem_run_test_iff.mp (show _ ∈ run atEnd q from hend)
  -- nothing comes before the match, and nothing after it
  have hskipped : m.skipped = [] := by
    cases hs : m.skipped with
    | nil => rfl
    | cons x xs =>
        have hnone : lastOf (some x) xs = none := by
          rw [hs] at hbefore
          exact Option.isNone_iff_eq_none.mp hbefore
        have hsome := isSome_lastOf x xs
        rw [hnone] at hsome
        cases hsome
  have hrest : m.rest = [] :=
    List.head?_eq_none_iff.mp (Option.isNone_iff_eq_none.mp hafter)
  obtain ⟨u, hu, hconsumed⟩ := consumes_of_mem_run hq
  rw [hrest, List.append_nil, List.append_nil] at hconsumed
  rw [hleft.parts, hskipped, hrest, List.append_nil, List.nil_append,
    show m.text = u from hconsumed]
  exact hu

end Runir.Regex
