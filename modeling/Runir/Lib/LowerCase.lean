import Runir.Lib.Text

/-!
# Library — Lower case

What lower-casing keeps of a text.

* `Lowers`: a text is lower-cased character by character, whatever its capital sigmas become.
* `Unicode.Marks`: characters that are their own lower case and in the lower case of no other, such
  as punctuation.  A text and its lower case have the same marks in the same order, and start and
  end with the same ones (`filter_eq`, `head?_iff`, `getLast?_iff`).
* `Unicode.Ends`: a letter that only its own two cases end in, lower-cased (`lowers_concat_iff`).
* `Unicode.Stable`: what is lower-cased is in lower case (`Stable.of_mem`), and is left as it is
  (`lowerFrom_eq_self`).
-/

namespace Runir.Unicode
open Regex (foldCase)

/-- A text and a lower case of it. -/
inductive Lowers (u : Unicode) : List Char → List Char → Prop where
  | nil : Lowers u [] []
  | cons {c : Char} {cs piece w : List Char} (hpiece : piece = u.lower c ∨ (c = 'Σ' ∧ piece = ['ς']))
      (h : Lowers u cs w) : Lowers u (c :: cs) (piece ++ w)

variable {u : Unicode} {p : Char → Bool} {c d x : Char} {cs ds w seen : List Char}

theorem lowers_lowerFrom : u.Lowers cs (u.lowerFrom seen cs) := by
  induction cs generalizing seen with
  | nil => exact .nil
  | cons c cs ih =>
      refine .cons ?_ ih
      split
      · next h =>
          simp only [Bool.and_eq_true, beq_iff_eq] at h
          exact Or.inr ⟨h.1.1, rfl⟩
      · exact Or.inl rfl

theorem lowers_cons_iff : u.Lowers (c :: cs) w ↔ ∃ piece w', w = piece ++ w' ∧
    (piece = u.lower c ∨ (c = 'Σ' ∧ piece = ['ς'])) ∧ u.Lowers cs w' := by
  constructor
  · intro h
    cases h with
    | cons hpiece h => exact ⟨_, _, rfl, hpiece, h⟩
  · rintro ⟨piece, w', rfl, hpiece, h⟩
    exact .cons hpiece h

theorem lowers_nil_iff : u.Lowers [] w ↔ w = [] := by
  constructor
  · intro h
    cases h
    rfl
  · rintro rfl
    exact .nil

theorem lowers_append_iff : u.Lowers (cs ++ ds) w ↔
    ∃ w₁ w₂, w = w₁ ++ w₂ ∧ u.Lowers cs w₁ ∧ u.Lowers ds w₂ := by
  induction cs generalizing w with
  | nil =>
      constructor
      · exact fun h => ⟨[], w, rfl, .nil, h⟩
      · rintro ⟨w₁, w₂, rfl, h₁, h₂⟩
        cases h₁
        exact h₂
  | cons c cs ih =>
      constructor
      · intro h
        rw [List.cons_append] at h
        obtain ⟨piece, w, rfl, hpiece, h⟩ := lowers_cons_iff.mp h
        obtain ⟨w₁, w₂, rfl, h₁, h₂⟩ := ih.mp h
        exact ⟨piece ++ w₁, w₂, (List.append_assoc ..).symm, .cons hpiece h₁, h₂⟩
      · rintro ⟨w₁, w₂, rfl, h₁, h₂⟩
        obtain ⟨piece, w₁, rfl, hpiece, h₁⟩ := lowers_cons_iff.mp h₁
        rw [List.append_assoc]
        exact .cons hpiece (ih.mpr ⟨w₁, w₂, rfl, h₁, h₂⟩)

/-! ### Marks -/

/-- The characters of `p` are their own lower case, and in the lower case of no other. -/
structure Marks (u : Unicode) (p : Char → Bool) : Prop where
  own : ∀ c, p c = true → u.lower c = [c]
  others : ∀ c, p c = false → u.lower c ≠ [] ∧ ∀ d ∈ u.lower c, p d = false
  sigma : p 'Σ' = false ∧ p 'ς' = false

section
variable {piece : List Char}

theorem Marks.piece_own (h : u.Marks p) (hpiece : piece = u.lower c ∨ (c = 'Σ' ∧ piece = ['ς']))
    (hc : p c = true) : piece = [c] := by
  rcases hpiece with rfl | ⟨rfl, -⟩
  · exact h.own c hc
  · exact absurd (h.sigma.1.symm.trans hc) Bool.false_ne_true

theorem Marks.piece_others (h : u.Marks p) (hpiece : piece = u.lower c ∨ (c = 'Σ' ∧ piece = ['ς']))
    (hc : p c = false) : piece ≠ [] ∧ ∀ d ∈ piece, p d = false := by
  rcases hpiece with rfl | ⟨-, rfl⟩
  · exact h.others c hc
  · refine ⟨List.cons_ne_nil _ _, fun d hd => ?_⟩
    rw [List.mem_singleton.mp hd]
    exact h.sigma.2

end

/-- **The marks of a text are those of its lower case.** -/
theorem Marks.filter_eq (h : u.Marks p) (hw : u.Lowers cs w) : w.filter p = cs.filter p := by
  induction hw with
  | nil => rfl
  | @cons c cs piece w hpiece hw ih =>
      rw [List.filter_append, ih]
      cases hc : p c with
      | true =>
          rw [h.piece_own hpiece hc, List.filter_cons_of_pos hc, List.filter_cons_of_pos hc]
          rfl
      | false =>
          have hnone : piece.filter p = [] := List.filter_eq_nil_iff.mpr fun d hd =>
            Bool.eq_false_iff.mp ((h.piece_others hpiece hc).2 d hd)
          rw [hnone, List.filter_cons_of_neg (Bool.eq_false_iff.mp hc)]
          rfl

theorem Marks.mem_iff (h : u.Marks p) (hw : u.Lowers cs w) (hd : p d = true) : d ∈ w ↔ d ∈ cs := by
  have hfilter : d ∈ w.filter p ↔ d ∈ cs.filter p := by rw [h.filter_eq hw]
  simpa [List.mem_filter, hd] using hfilter

theorem Marks.head?_iff (h : u.Marks p) (hw : u.Lowers cs w) (hd : p d = true) :
    w.head? = some d ↔ cs.head? = some d := by
  cases hw with
  | nil => exact Iff.rfl
  | @cons c cs piece w hpiece hw =>
      cases hc : p c with
      | true => rw [h.piece_own hpiece hc, List.singleton_append, List.head?_cons, List.head?_cons]
      | false =>
          obtain ⟨hne, hnone⟩ := h.piece_others hpiece hc
          rw [List.head?_append_of_ne_nil _ hne, List.head?_cons]
          constructor
          · intro hhead
            exact absurd ((hnone d (List.mem_of_head? hhead)).symm.trans hd) Bool.false_ne_true
          · intro heq
            rw [Option.some.inj heq] at hc
            exact absurd (hc.symm.trans hd) Bool.false_ne_true

theorem Marks.getLast?_iff (h : u.Marks p) (hw : u.Lowers cs w) (hd : p d = true) :
    w.getLast? = some d ↔ cs.getLast? = some d := by
  rcases List.eq_nil_or_concat' cs with rfl | ⟨cs, c, rfl⟩
  · cases hw
    exact Iff.rfl
  · obtain ⟨w, w', rfl, -, hlast⟩ := lowers_append_iff.mp hw
    obtain ⟨piece, w', rfl, hpiece, hnil⟩ := lowers_cons_iff.mp hlast
    obtain rfl := lowers_nil_iff.mp hnil
    rw [List.append_nil, List.getLast?_concat]
    cases hc : p c with
    | true => rw [h.piece_own hpiece hc, List.getLast?_concat]
    | false =>
        obtain ⟨hne, hnone⟩ := h.piece_others hpiece hc
        rw [List.getLast?_append_of_ne_nil _ hne]
        constructor
        · intro hlast
          exact absurd ((hnone d (List.mem_of_getLast? hlast)).symm.trans hd) Bool.false_ne_true
        · intro heq
          rw [Option.some.inj heq] at hc
          exact absurd (hc.symm.trans hd) Bool.false_ne_true

/-! ### Letters at the end -/

/-- The letter `x` is the lower case of its two cases, and at the end of that of no other. -/
structure Ends (u : Unicode) (x : Char) : Prop where
  own : ∀ c, foldCase c = x → u.lower c = [x]
  last : ∀ c, (u.lower c).getLast? = some x → foldCase c = x
  sigma : x ≠ 'ς' ∧ foldCase 'Σ' ≠ x

theorem Ends.lowers_concat_iff (h : u.Ends x) (hne : ∀ c, u.lower c ≠ []) :
    u.Lowers cs (w ++ [x]) ↔ ∃ front c, cs = front ++ [c] ∧ foldCase c = x ∧ u.Lowers front w := by
  constructor
  · intro hw
    rcases List.eq_nil_or_concat' cs with rfl | ⟨front, c, rfl⟩
    · exact absurd (lowers_nil_iff.mp hw)
        (List.append_ne_nil_of_right_ne_nil w (List.cons_ne_nil x []))
    · obtain ⟨w₁, w₂, heq, hfront, hlast⟩ := lowers_append_iff.mp hw
      obtain ⟨piece, w', rfl, hpiece, hnil⟩ := lowers_cons_iff.mp hlast
      obtain rfl := lowers_nil_iff.mp hnil
      rw [List.append_nil] at heq
      have hend : piece.getLast? = some x := by
        have hpiece_ne : piece ≠ [] := by
          rcases hpiece with rfl | ⟨-, rfl⟩
          · exact hne c
          · exact List.cons_ne_nil _ _
        rw [← List.getLast?_append_of_ne_nil w₁ hpiece_ne, ← heq, List.getLast?_concat]
      rcases hpiece with rfl | ⟨-, rfl⟩
      · have hc := h.last c hend
        rw [h.own c hc] at heq
        obtain ⟨rfl, -⟩ := List.append_inj' heq rfl
        exact ⟨front, c, rfl, hc, hfront⟩
      · exact absurd (Option.some.inj hend).symm h.sigma.1
  · rintro ⟨front, c, rfl, hc, hfront⟩
    refine lowers_append_iff.mpr ⟨w, [x], rfl, hfront, ?_⟩
    exact .cons (Or.inl (h.own c hc).symm) .nil

theorem Ends.exists_of_concat (h : u.Ends x) (hc : foldCase c = x) (hw : u.Lowers (cs ++ [c]) w) :
    ∃ w', w = w' ++ [x] ∧ u.Lowers cs w' := by
  obtain ⟨w', last, rfl, hfront, hlast⟩ := lowers_append_iff.mp hw
  obtain ⟨piece, w'', rfl, hpiece, hnil⟩ := lowers_cons_iff.mp hlast
  obtain rfl := lowers_nil_iff.mp hnil
  refine ⟨w', ?_, hfront⟩
  rcases hpiece with rfl | ⟨rfl, -⟩
  · rw [List.append_nil, h.own c hc]
  · exact absurd hc h.sigma.2

/-! ### Lower case again -/

/-- Lower case is its own lower case. -/
structure Stable (u : Unicode) : Prop where
  lower : ∀ c, ∀ d ∈ u.lower c, d ≠ 'Σ' ∧ u.lower d = [d]
  sigma : u.lower 'ς' = ['ς']

theorem Stable.of_mem (h : u.Stable) (hw : u.Lowers cs w) (hd : d ∈ w) :
    d ≠ 'Σ' ∧ u.lower d = [d] := by
  induction hw with
  | nil => exact nomatch hd
  | @cons c cs piece w hpiece hw ih =>
      rcases List.mem_append.mp hd with hd | hd
      · rcases hpiece with rfl | ⟨-, rfl⟩
        · exact h.lower c d hd
        · rw [List.mem_singleton.mp hd]
          exact ⟨by decide, h.sigma⟩
      · exact ih hd

theorem lowerFrom_eq_self (h : ∀ d ∈ cs, d ≠ 'Σ' ∧ u.lower d = [d]) : u.lowerFrom seen cs = cs := by
  induction cs generalizing seen with
  | nil => rfl
  | cons c cs ih =>
      obtain ⟨⟨hne, hc⟩, hcs⟩ := List.forall_mem_cons.mp h
      have hbeq : (c == 'Σ') = false := beq_eq_false_iff_ne.mpr hne
      rw [lowerFrom, hbeq, ih hcs, hc]
      rfl

end Runir.Unicode
