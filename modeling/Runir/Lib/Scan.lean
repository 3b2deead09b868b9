import Mathlib.Algebra.BigOperators.Group.List.Basic
import Mathlib.Algebra.GroupWithZero.Nat
import Mathlib.Data.List.Infix

/-!
# Library — Scan

Two ways of going through a text from left to right.

* `places needle text`: how many places of the text `needle` starts at.  A separator that does not
  occur in it splits the count (`places_append_cons`).
* `replaceAll at? put text`: every match replaced, for a pattern that is given by what it leaves,
  `at? cs = some rest`, where it matches at the front of `cs`.
* `occurs at? text`: whether such a pattern matches anywhere.
* `lines`, `joinLines`: a text cut at the newlines, and put together again.
-/

namespace Runir.Scan
variable {α : Type*}

/-! ### Places -/

def places [DecidableEq α] (needle : List α) : List α → Nat
  | [] => 0
  | c :: cs => (if needle <+: c :: cs then 1 else 0) + places needle cs

section
variable {needle : List α}

theorem prefix_append_cons {sep : α} (hsep : sep ∉ needle) {text rest : List α} :
    needle <+: text ++ sep :: rest ↔ needle <+: text := by
  induction text generalizing needle with
  | nil =>
      cases needle with
      | nil => simp
      | cons x needle =>
          rw [List.nil_append, List.cons_prefix_cons]
          constructor
          · rintro ⟨rfl, -⟩
            exact absurd List.mem_cons_self hsep
          · intro h
            cases List.prefix_nil.mp h
  | cons c text ih =>
      cases needle with
      | nil => simp
      | cons x needle =>
          rw [List.cons_append, List.cons_prefix_cons, List.cons_prefix_cons,
            ih fun h => hsep (List.mem_cons_of_mem _ h)]

variable [DecidableEq α]

/-- A text in which the needle starts nowhere is one that does not hold it. -/
theorem places_eq_zero (hne : needle ≠ []) {text : List α} :
    places needle text = 0 ↔ ¬needle <:+: text := by
  induction text with
  | nil => simp [places, hne]
  | cons c text ih =>
      rw [places, List.infix_cons_iff, not_or, ← ih]
      by_cases h : needle <+: c :: text
      · simp [h]
      · simp [h]

/-- A separator that the needle does not hold: what is on either side is counted by itself. -/
theorem places_append_cons {sep : α} (hsep : sep ∉ needle) (hne : needle ≠ [])
    (text rest : List α) :
    places needle (text ++ sep :: rest) = places needle text + places needle rest := by
  induction text with
  | nil =>
      have hno : ¬needle <+: sep :: rest := fun h => by
        have hnil : needle <+: [] := (prefix_append_cons hsep).mp h
        exact hne (List.prefix_nil.mp hnil)
      simp [places, hno]
  | cons c text ih =>
      have hiff : needle <+: c :: (text ++ sep :: rest) ↔ needle <+: c :: text := by
        rw [← List.cons_append]
        exact prefix_append_cons hsep
      rw [List.cons_append, places, places, ih]
      simp only [hiff]
      omega

/-- What cannot begin the needle may be taken off the front. -/
theorem places_append_of_head {x : α} {tail : List α} {front text : List α} (hfront : x ∉ front) :
    places (x :: tail) (front ++ text) = places (x :: tail) text := by
  induction front with
  | nil => rfl
  | cons c front ih =>
      rw [List.mem_cons, not_or] at hfront
      have hno : ¬x :: tail <+: c :: (front ++ text) := fun h =>
        hfront.1 (List.cons_prefix_cons.mp h).1
      rw [List.cons_append, places, if_neg hno, Nat.zero_add, ih hfront.2]

end

/-! ### Replacing every match -/

section
variable (at? : List α → Option (List α)) (put : List α)

def replaceFrom : Nat → List α → List α
  | 0, cs => cs
  | _ + 1, [] => []
  | fuel + 1, c :: cs =>
      match at? (c :: cs) with
      | some rest => put ++ replaceFrom fuel rest
      | none => c :: replaceFrom fuel cs

def replaceAll (cs : List α) : List α := replaceFrom at? put cs.length cs

/-- Every match consumes something. -/
def Consumes : Prop := ∀ cs rest, at? cs = some rest → rest.length < cs.length

end

variable {cs : List α}

section
variable {at? : List α → Option (List α)} {put : List α}

theorem replaceFrom_eq (h : Consumes at?) {fuel : Nat} (hfuel : cs.length ≤ fuel) :
    replaceFrom at? put fuel cs = replaceAll at? put cs := by
  unfold replaceAll
  induction fuel using Nat.strong_induction_on generalizing cs with
  | _ fuel ih =>
      cases fuel with
      | zero =>
          rw [List.length_eq_zero_iff.mp (Nat.le_zero.mp hfuel)]
          rfl
      | succ fuel =>
          cases cs with
          | nil => rfl
          | cons c cs =>
              rw [List.length_cons] at hfuel
              simp only [replaceFrom, List.length_cons]
              cases hat : at? (c :: cs) with
              | none => rw [ih fuel (Nat.lt_succ_self _) (Nat.le_of_succ_le_succ hfuel)]
              | some rest =>
                  have hrest := Nat.le_of_lt_succ (h _ _ hat)
                  have hlong := ih fuel (Nat.lt_succ_self _)
                    (hrest.trans (Nat.le_of_succ_le_succ hfuel))
                  have hshort := ih cs.length hfuel hrest
                  simp only [hlong, hshort]

theorem replaceAll_of_none (h : Consumes at?) {c : α} (hat : at? (c :: cs) = none) :
    replaceAll at? put (c :: cs) = c :: replaceAll at? put cs := by
  rw [replaceAll, List.length_cons, replaceFrom, hat]
  exact congrArg (c :: ·) (replaceFrom_eq h le_rfl)

theorem replaceAll_of_some (h : Consumes at?) {c : α} {cs rest : List α}
    (hat : at? (c :: cs) = some rest) :
    replaceAll at? put (c :: cs) = put ++ replaceAll at? put rest := by
  rw [replaceAll, List.length_cons, replaceFrom, hat]
  exact congrArg (put ++ ·) (replaceFrom_eq h (Nat.le_of_lt_succ (h _ _ hat)))

/-- A text without a match is left as it is. -/
theorem replaceAll_of_forall_none (h : Consumes at?)
    (hnone : ∀ t, t <:+ cs → at? t = none) : replaceAll at? put cs = cs := by
  induction cs with
  | nil => rfl
  | cons c cs ih =>
      rw [replaceAll_of_none h (hnone _ List.suffix_rfl), ih fun t ht => hnone t (ht.trans
        (List.suffix_cons c cs))]

/-- A front none of whose characters begins a match is left as it is. -/
theorem replaceAll_append (h : Consumes at?) {front cs : List α}
    (hfront : ∀ c ∈ front, ∀ cs, at? (c :: cs) = none) :
    replaceAll at? put (front ++ cs) = front ++ replaceAll at? put cs := by
  induction front with
  | nil => rfl
  | cons c front ih =>
      rw [List.forall_mem_cons] at hfront
      rw [List.cons_append, replaceAll_of_none h (hfront.1 _), ih hfront.2, List.cons_append]

/-- What is left comes from the text or is put there. -/
theorem mem_replaceAll (h : Consumes at?) (hrest : ∀ cs rest, at? cs = some rest → rest <:+ cs)
    {x : α} (hx : x ∈ replaceAll at? put cs) : x ∈ put ∨ x ∈ cs := by
  induction hn : cs.length using Nat.strong_induction_on generalizing cs with
  | _ n ih =>
      cases cs with
      | nil => cases hx
      | cons c cs =>
          cases hat : at? (c :: cs) with
          | none =>
              rw [replaceAll_of_none h hat, List.mem_cons] at hx
              rcases hx with rfl | hx
              · exact Or.inr List.mem_cons_self
              · rcases ih cs.length (by rw [← hn]; exact Nat.lt_succ_self _) hx rfl with hput | hmem
                · exact Or.inl hput
                · exact Or.inr (List.mem_cons_of_mem _ hmem)
          | some rest =>
              rw [replaceAll_of_some h hat, List.mem_append] at hx
              rcases hx with hput | hx
              · exact Or.inl hput
              · rcases ih rest.length (by rw [← hn]; exact h _ _ hat) hx rfl with hput | hmem
                · exact Or.inl hput
                · exact Or.inr ((hrest _ _ hat).subset hmem)

end

/-! ### Matching anywhere -/

def occurs (at? : List α → Option (List α)) : List α → Bool
  | [] => (at? []).isSome
  | c :: cs => (at? (c :: cs)).isSome || occurs at? cs

section
variable {at? : List α → Option (List α)} {put : List α}

theorem occurs_eq_false :
    occurs at? cs = false ↔ ∀ t, t <:+ cs → at? t = none := by
  induction cs with
  | nil =>
      rw [occurs, Option.isSome_eq_false_iff, Option.isNone_iff_eq_none]
      constructor
      · intro h t ht
        rw [List.suffix_nil.mp ht]
        exact h
      · intro h
        exact h [] List.suffix_rfl
  | cons c cs ih =>
      rw [occurs, Bool.or_eq_false_iff, ih, Option.isSome_eq_false_iff, Option.isNone_iff_eq_none]
      constructor
      · rintro ⟨hhead, hrest⟩ t ht
        rcases List.suffix_cons_iff.mp ht with rfl | ht
        · exact hhead
        · exact hrest t ht
      · intro h
        exact ⟨h _ List.suffix_rfl, fun t ht => h t (ht.trans (List.suffix_cons c cs))⟩

/-- A text the pattern does not occur in is left as it is. -/
theorem replaceAll_of_not_occurs (h : Consumes at?) (hno : occurs at? cs = false) :
    replaceAll at? put cs = cs :=
  replaceAll_of_forall_none h (occurs_eq_false.mp hno)

/-- A separator no match reaches over. -/
def Stops (at? : List α → Option (List α)) (sep : α) : Prop :=
  ∀ text rest, (at? (text ++ sep :: rest)).isSome = (at? text).isSome

theorem occurs_append_cons {sep : α} (hstops : Stops at? sep) (hnil : at? [] = none)
    (text rest : List α) :
    occurs at? (text ++ sep :: rest) = (occurs at? text || occurs at? rest) := by
  induction text with
  | nil =>
      have hhead := hstops [] rest
      rw [List.nil_append] at hhead
      simp [occurs, hhead, hnil]
  | cons c text ih =>
      have hhead := hstops (c :: text) rest
      rw [List.cons_append] at hhead
      rw [List.cons_append, occurs, occurs, hhead, ih, Bool.or_assoc]

/-- What cannot begin a match may be taken off the front. -/
theorem occurs_append {front cs : List α} (hfront : ∀ c ∈ front, ∀ cs, at? (c :: cs) = none) :
    occurs at? (front ++ cs) = occurs at? cs := by
  induction front with
  | nil => rfl
  | cons c front ih =>
      rw [List.forall_mem_cons] at hfront
      rw [List.cons_append, occurs, hfront.1, ih hfront.2]
      rfl

end

/-! ### Lines -/

def newline : Char := '\n'

/-- `lines.join("\n")`. -/
def joinLines : List (List Char) → List Char
  | [] => []
  | [l] => l
  | l :: l' :: ls => l ++ newline :: joinLines (l' :: ls)

variable {ls : List (List Char)}

theorem joinLines_cons {l : List Char} (h : ls ≠ []) :
    joinLines (l :: ls) = l ++ newline :: joinLines ls := by
  cases ls with
  | nil => exact absurd rfl h
  | cons l' ls => rfl

theorem joinLines_append {ls ls' : List (List Char)} (h : ls ≠ []) (h' : ls' ≠ []) :
    joinLines (ls ++ ls') = joinLines ls ++ newline :: joinLines ls' := by
  induction ls with
  | nil => exact absurd rfl h
  | cons l ls ih =>
      cases ls with
      | nil => exact joinLines_cons h'
      | cons l' ls =>
          rw [List.cons_append, List.cons_append, joinLines, joinLines, ← List.cons_append,
            ih (List.cons_ne_nil l' ls), List.append_assoc, List.cons_append]

/-- A needle on one line is counted line by line. -/
theorem places_joinLines {needle : List Char} (hline : newline ∉ needle) (hne : needle ≠ [])
    (ls : List (List Char)) :
    places needle (joinLines ls) = (ls.map (places needle)).sum := by
  induction ls with
  | nil => rfl
  | cons l ls ih =>
      cases ls with
      | nil => simp [joinLines]
      | cons l' ls =>
          rw [joinLines, places_append_cons hline hne, ih]
          simp only [List.map_cons, List.sum_cons]

/-- A pattern that does not reach over a newline occurs on a line. -/
theorem occurs_joinLines {at? : List Char → Option (List Char)} (hstops : Stops at? newline)
    (hnil : at? [] = none) (ls : List (List Char)) :
    occurs at? (joinLines ls) = ls.any (occurs at?) := by
  induction ls with
  | nil => simp [joinLines, occurs, hnil]
  | cons l ls ih =>
      cases ls with
      | nil => simp [joinLines]
      | cons l' ls =>
          rw [joinLines, occurs_append_cons hstops hnil, ih]
          simp only [List.any_cons]

theorem mem_joinLines {c : Char} (h : c ∈ joinLines ls) :
    c = newline ∨ ∃ l ∈ ls, c ∈ l := by
  induction ls with
  | nil => cases h
  | cons l ls ih =>
      cases ls with
      | nil => exact Or.inr ⟨l, List.mem_singleton_self l, h⟩
      | cons l' ls =>
          rw [joinLines, List.mem_append, List.mem_cons] at h
          rcases h with h | rfl | h
          · exact Or.inr ⟨l, List.mem_cons_self, h⟩
          · exact Or.inl rfl
          · rcases ih h with h | ⟨m, hm, hc⟩
            · exact Or.inl h
            · exact Or.inr ⟨m, List.mem_cons_of_mem _ hm, hc⟩

/-- `text.split("\n")`. -/
def lines : List Char → List (List Char)
  | [] => [[]]
  | c :: cs =>
      if c = newline then [] :: lines cs
      else
        match lines cs with
        | [] => [[c]]
        | l :: ls => (c :: l) :: ls

theorem lines_of_notMem {cs : List Char} (h : newline ∉ cs) : lines cs = [cs] := by
  induction cs with
  | nil => rfl
  | cons c cs ih =>
      rw [List.mem_cons, not_or] at h
      rw [lines, if_neg (Ne.symm h.1), ih h.2]

theorem lines_append_cons {l : List Char} (h : newline ∉ l) (rest : List Char) :
    lines (l ++ newline :: rest) = l :: lines rest := by
  induction l with
  | nil => simp [lines]
  | cons c l ih =>
      rw [List.mem_cons, not_or] at h
      rw [List.cons_append, lines, if_neg (Ne.symm h.1), ih h.2]

/-- Lines put together are cut where they were put together. -/
theorem lines_joinLines (hne : ls ≠ []) (h : ∀ l ∈ ls, newline ∉ l) :
    lines (joinLines ls) = ls := by
  induction ls with
  | nil => exact absurd rfl hne
  | cons l ls ih =>
      rw [List.forall_mem_cons] at h
      cases ls with
      | nil => exact lines_of_notMem h.1
      | cons l' ls => rw [joinLines, lines_append_cons h.1, ih (List.cons_ne_nil l' ls) h.2]

end Runir.Scan
