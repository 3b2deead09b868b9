import Runir.Lib.Text

/-!
# Library — Sigma

Lower case of a part of a text, where a `Σ` is written by what stands around it.

* `lowerIn`: a part lower-cased where it stands.
* `SigmaApart`: no `Σ` is a matter of what stands past a separator.
* `lowerIn_apart`, `lowerFrom_infix`: then a part between separators is lower-cased as it is alone.
-/

namespace Runir.Unicode

variable {u : Unicode} {p : Char → Bool} {before text after near mid far : List Char}

/-- A text lower-cased after `seen`, nearest first, and before `rest`. -/
def lowerIn (u : Unicode) (rest seen : List Char) : List Char → List Char
  | [] => []
  | c :: cs =>
      (if c == 'Σ' && u.casedNext seen && !u.casedNext (cs ++ rest) then ['ς'] else u.lower c) ++
        lowerIn u rest (c :: seen) cs

theorem lowerFrom_eq (seen cs : List Char) : u.lowerFrom seen cs = u.lowerIn [] seen cs := by
  induction cs generalizing seen with
  | nil => rfl
  | cons c cs ih => rw [lowerFrom, lowerIn, List.append_nil, ih]

theorem lowerIn_append (rest seen front back : List Char) :
    u.lowerIn rest seen (front ++ back) =
      u.lowerIn (back ++ rest) seen front ++ u.lowerIn rest (front.reverse ++ seen) back := by
  induction front generalizing seen with
  | nil => rfl
  | cons c front ih =>
      rw [List.cons_append, lowerIn, lowerIn, ih, List.append_assoc front back rest,
        List.reverse_cons, List.append_assoc front.reverse]
      simp only [List.append_assoc, List.singleton_append]

/-! ### The nearest cased character -/

theorem casedNext_mono (h : u.casedNext near = true) (far : List Char) :
    u.casedNext (near ++ far) = true := by
  induction near with
  | nil => cases h
  | cons c near ih =>
      rw [casedNext] at h
      rw [List.cons_append, casedNext]
      split
      · next hc =>
          rw [if_pos hc] at h
          exact ih h
      · next hc =>
          rw [if_neg hc] at h
          exact h

/-- What a text says from near and from afar, it says from between. -/
theorem casedNext_between (hnear : near <+: mid) (hfar : mid <+: far)
    (h : u.casedNext far = u.casedNext near) : u.casedNext mid = u.casedNext near := by
  obtain ⟨x, rfl⟩ := hnear
  obtain ⟨y, rfl⟩ := hfar
  cases hcased : u.casedNext near with
  | true => exact casedNext_mono hcased x
  | false =>
      rw [hcased] at h
      refine Bool.eq_false_of_not_eq_true fun hmid => ?_
      rw [casedNext_mono hmid y] at h
      cases h

/-- A `Σ` is at the start or the end of a word by that word alone. -/
def SigmaApart (u : Unicode) (p : Char → Bool) (text : List Char) : Prop :=
  ∀ before after, text = before ++ 'Σ' :: after →
    u.casedNext before.reverse = u.casedNext (before.reverse.takeWhile fun c => !p c) ∧
      u.casedNext after = u.casedNext (after.takeWhile fun c => !p c)

/-- A text without `Σ` has none apart from its word. -/
theorem sigmaApart_of_notMem (h : 'Σ' ∉ text) : u.SigmaApart p text := by
  rintro before after rfl
  exact absurd (List.mem_append_right _ List.mem_cons_self) h

theorem takeWhile_stops (hfar : ∀ c ∈ far.head?, p c = true) :
    ((near ++ far).takeWhile fun c => !p c) <+: near := by
  induction near with
  | nil =>
      cases far with
      | nil => exact List.nil_prefix
      | cons c far =>
          rw [List.nil_append, List.takeWhile_cons, hfar c rfl]
          exact List.nil_prefix
  | cons c near ih =>
      rw [List.cons_append, List.takeWhile_cons]
      split
      · exact (List.prefix_cons_inj c).mpr ih
      · exact List.nil_prefix

/-- What stands past a separator has no part in it. -/
theorem casedNext_stops (hfar : ∀ c ∈ far.head?, p c = true)
    (h : u.casedNext (near ++ far) = u.casedNext ((near ++ far).takeWhile fun c => !p c)) :
    u.casedNext (near ++ far) = u.casedNext near := by
  rw [h]
  exact (casedNext_between (takeWhile_stops hfar) (List.prefix_append near far) h).symm

/-! ### A part between separators -/

/-- **A part between separators is lower-cased as it is alone.** -/
theorem lowerIn_apart (hapart : u.SigmaApart p (before ++ text ++ after))
    (hleft : ∀ c ∈ before.getLast?, p c = true) (hright : ∀ c ∈ after.head?, p c = true) :
    u.lowerIn after before.reverse text = u.lowerFrom [] text := by
  have hbefore : ∀ c ∈ before.reverse.head?, p c = true := by
    rw [List.head?_reverse]
    exact hleft
  have hparts : ∀ done todo, text = done ++ todo →
      u.lowerIn after (done.reverse ++ before.reverse) todo = u.lowerIn [] done.reverse todo := by
    intro done todo
    induction todo generalizing done with
    | nil => exact fun _ => rfl
    | cons c todo ih =>
        intro htext
        have hrest := ih (done ++ [c]) (by rw [htext, List.append_assoc, List.singleton_append])
        rw [List.reverse_append] at hrest
        have hrest' : u.lowerIn after (c :: (done.reverse ++ before.reverse)) todo =
            u.lowerIn [] (c :: done.reverse) todo := hrest
        rw [lowerIn, lowerIn, hrest', List.append_nil]
        by_cases hc : c = 'Σ'
        · subst hc
          obtain ⟨hseen, hnext⟩ := hapart (before ++ done) (todo ++ after)
            (by simp [htext, List.append_assoc])
          rw [List.reverse_append] at hseen
          rw [casedNext_stops hbefore hseen, casedNext_stops hright hnext]
        · simp [hc]
  have hwhole := hparts [] text rfl
  rw [lowerFrom_eq]
  exact hwhole

/-- **A part between separators keeps its lower case inside a larger one.** -/
theorem lowerFrom_infix {x part y : List Char}
    (hapart : u.SigmaApart p (before ++ (x ++ part ++ y) ++ after))
    (hleft : ∀ c ∈ before.getLast?, p c = true) (hright : ∀ c ∈ after.head?, p c = true)
    (hleft' : ∀ c ∈ (before ++ x).getLast?, p c = true)
    (hright' : ∀ c ∈ (y ++ after).head?, p c = true) :
    u.lowerFrom [] part <:+: u.lowerFrom [] (x ++ part ++ y) := by
  have hpart : u.lowerIn (y ++ after) (x.reverse ++ before.reverse) part = u.lowerFrom [] part := by
    rw [← List.reverse_append]
    refine lowerIn_apart ?_ hleft' hright'
    have hsame : before ++ x ++ part ++ (y ++ after) = before ++ (x ++ part ++ y) ++ after := by
      simp only [List.append_assoc]
    rw [hsame]
    exact hapart
  rw [← lowerIn_apart hapart hleft hright, lowerIn_append, lowerIn_append, hpart]
  exact List.infix_append _ _ _

end Runir.Unicode
