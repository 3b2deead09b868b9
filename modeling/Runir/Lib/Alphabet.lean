import Mathlib.Data.List.Infix
import Runir.Lib.Regex

/-!
# Library — Alphabets

Texts whose characters rule a pattern out.  `dead A r` says that `r` needs a character that is not
in `A`, wherever it matches; `run_of_dead`, `find_of_dead`: in a text over `A` it does not match,
so that replacing its matches leaves the text (`replaceStep_of_dead`).
-/

namespace Runir.Regex

variable {r : Regex}

/-- What is left of a text after a match is an end of it. -/
theorem suffix_of_mem_run {p q : Place} (h : q ∈ run r p) : q.rest <:+ p.rest := by
  induction r generalizing p q with
  | empty =>
      rw [List.mem_singleton.mp h]
  | cls c =>
      unfold run at h
      split at h
      · exact nomatch h
      · rename_i x xs hrest
        split at h
        · rw [List.mem_singleton.mp h, hrest]
          exact List.suffix_cons x xs
        · exact nomatch h
  | seq r s ihr ihs =>
      obtain ⟨mid, hmid, hq⟩ := List.mem_flatMap.mp h
      exact (ihs hq).trans (ihr hmid)
  | alt r s ihr ihs => exact (List.mem_append.mp h).elim ihr ihs
  | star r ih =>
      have hrounds : ∀ (fuel : Nat) (p : Place), q ∈ rounds (run r) fuel p → q.rest <:+ p.rest := by
        intro fuel
        induction fuel with
        | zero =>
            intro p hq
            rw [List.mem_singleton.mp hq]
        | succ fuel ihfuel =>
            intro p hq
            rcases List.mem_append.mp hq with hq | hq
            · obtain ⟨mid, hmid, hq⟩ := List.mem_flatMap.mp hq
              exact (ihfuel mid hq).trans (ih (List.mem_of_mem_filter hmid))
            · rw [List.mem_singleton.mp hq]
      exact hrounds _ p h
  | group n r ih =>
      obtain ⟨mid, hmid, rfl⟩ := List.mem_map.mp h
      have hsuffix : mid.rest <:+ p.rest := ih hmid
      exact hsuffix
  | test c =>
      unfold run at h
      split at h
      · rw [List.mem_singleton.mp h]
      · exact nomatch h
  | look negated r _ =>
      unfold run at h
      split at h
      · rw [List.mem_singleton.mp h]
      · exact nomatch h

/-- A pattern that needs a character outside an alphabet. -/
def dead (A : List Char) : Regex → Bool
  | .cls c => A.all fun x => !c x
  | .seq r s => dead A r || dead A s
  | .alt r s => dead A r && dead A s
  | .group _ r => dead A r
  | _ => false

/-- A text over an alphabet. -/
def Over (A text : List Char) : Prop := ∀ c ∈ text, c ∈ A

instance (A text : List Char) : Decidable (Over A text) :=
  List.decidableBAll (fun c => c ∈ A) text

variable {A : List Char}

theorem Over.suffix {text rest : List Char} (h : Over A text) (hrest : rest <:+ text) :
    Over A rest := fun c hc => h c (hrest.subset hc)

theorem run_of_dead (h : dead A r = true) {p : Place} (hp : Over A p.rest) :
    run r p = [] := by
  induction r generalizing p with
  | empty => exact nomatch h
  | cls c =>
      unfold run
      split
      · rfl
      · rename_i x xs hrest
        have hx := List.all_eq_true.mp h x (hp x (hrest ▸ List.mem_cons_self))
        rw [Bool.not_eq_true'] at hx
        rw [hx]
        rfl
  | seq r s ihr ihs =>
      refine List.flatMap_eq_nil_iff.mpr fun mid hmid => ?_
      rcases Bool.or_eq_true _ _ ▸ h with h | h
      · rw [ihr h hp] at hmid
        exact nomatch hmid
      · exact ihs h (hp.suffix (suffix_of_mem_run hmid))
  | alt r s ihr ihs =>
      obtain ⟨hr, hs⟩ := Bool.and_eq_true _ _ ▸ h
      unfold run
      rw [ihr hr hp, ihs hs hp]
      rfl
  | star r => exact nomatch h
  | group n r ih =>
      unfold run
      rw [ih h hp]
      rfl
  | test c => exact nomatch h
  | look negated r => exact nomatch h

variable {text : List Char}

theorem find_of_dead (h : dead A r = true) (before : Option Char)
    (htext : Over A text) : find r before text = none := by
  induction text generalizing before with
  | nil =>
      unfold find
      rw [run_of_dead h htext]
      rfl
  | cons x xs ih =>
      unfold find
      rw [run_of_dead h htext]
      simp only [List.head?_nil]
      rw [ih (some x) (htext.suffix (List.suffix_cons x xs))]
      rfl

theorem matchIn_of_dead (h : dead A r = true) (htext : Over A text) : matchIn r text = false := by
  unfold matchIn exec
  rw [find_of_dead h none htext]
  rfl

theorem replaceStep_of_dead {σ : Type} (h : dead A r = true)
    (f : Match → σ → List Char × σ) (htext : Over A text) (s : σ) :
    replaceStep r f text s = (text, s) := by
  unfold replaceStep replaceStepFrom
  rw [find_of_dead h none htext]

end Runir.Regex
