import Mathlib.Data.List.DropRight
import Runir.Lib.Scan

/-!
# Library — Seams

A text cut where a needle stands, and what is counted where two texts are put together.

* `cutFirst`, `cutLast`: what is before and behind the first, or the last, place of a needle.
  Where it has one place, there is one way to cut (`cut_unique`, `cutFirst_of_one`,
  `cutLast_of_one`).
* `remove`: a text without the needle, taken out from left to right in one pass.
* `places_append_of_seam`: what is counted in two texts put together, where no needle lies over the
  seam.  A needle with a first character that comes first only does not lie over a seam before that
  character (`places_append_head`), and likewise at the end (`places_append_last`).
-/

namespace Runir.Scan
variable {α : Type*} [DecidableEq α] {needle : List α}

/-- `text.split(needle, 1)`, of a text that holds the needle. -/
def cutFirst (needle : List α) : List α → Option (List α × List α)
  | [] => none
  | c :: cs =>
      if needle <+: c :: cs then some ([], (c :: cs).drop needle.length)
      else (cutFirst needle cs).map fun p => (c :: p.1, p.2)

/-- `text.rsplit(needle, 1)`, of a text that holds the needle. -/
def cutLast (needle : List α) : List α → Option (List α × List α)
  | [] => none
  | c :: cs =>
      match cutLast needle cs with
      | some p => some (c :: p.1, p.2)
      | none => if needle <+: c :: cs then some ([], (c :: cs).drop needle.length) else none

/-- `text.replace(needle, "")`. -/
def remove (needle : List α) (cs : List α) : List α :=
  replaceAll (fun cs => if needle <+: cs then some (cs.drop needle.length) else none) [] cs

/-! ### Cutting -/

variable {text : List α}

theorem cutFirst_eq_some {p : List α × List α} (h : cutFirst needle text = some p) :
    text = p.1 ++ (needle ++ p.2) := by
  induction text generalizing p with
  | nil => cases h
  | cons c cs ih =>
      rw [cutFirst] at h
      split at h
      · next hpre =>
          obtain rfl := Option.some.inj h
          obtain ⟨rest, hrest⟩ := hpre
          rw [List.nil_append, ← hrest, List.drop_left]
      · obtain ⟨q, hq, rfl⟩ := Option.map_eq_some_iff.mp h
        rw [List.cons_append, ← ih hq]

theorem cutFirst_eq_none (hne : needle ≠ []) :
    cutFirst needle text = none ↔ ¬needle <:+: text := by
  induction text with
  | nil => simp [cutFirst, hne]
  | cons c cs ih =>
      rw [cutFirst, List.infix_cons_iff, not_or]
      split
      · next hpre => simp [hpre]
      · next hpre => simp [hpre, ih]

theorem cutLast_eq_some {p : List α × List α} (h : cutLast needle text = some p) :
    text = p.1 ++ (needle ++ p.2) := by
  induction text generalizing p with
  | nil => cases h
  | cons c cs ih =>
      rw [cutLast] at h
      split at h
      · next q hq =>
          obtain rfl := Option.some.inj h
          rw [List.cons_append, ← ih hq]
      · split at h
        · next hpre =>
            obtain rfl := Option.some.inj h
            obtain ⟨rest, hrest⟩ := hpre
            rw [List.nil_append, ← hrest, List.drop_left]
        · cases h

theorem cutLast_eq_none (hne : needle ≠ []) :
    cutLast needle text = none ↔ ¬needle <:+: text := by
  induction text with
  | nil => simp [cutLast, hne]
  | cons c cs ih =>
      rw [cutLast, List.infix_cons_iff, not_or]
      split
      · next p hp => simp [← ih, hp]
      · next hnone =>
          split
          · next hpre => simp [hpre]
          · next hpre => simp [hpre, ← ih, hnone]

theorem places_pos (hne : needle ≠ []) (h : needle <:+: text) :
    0 < places needle text :=
  Nat.pos_of_ne_zero fun hzero => (places_eq_zero hne).mp hzero h

/-- A text with one place for the needle is cut in one way. -/
theorem cut_unique (hne : needle ≠ []) {text a b a' b' : List α} (hone : places needle text ≤ 1)
    (h : text = a ++ (needle ++ b)) (h' : text = a' ++ (needle ++ b')) : a = a' ∧ b = b' := by
  induction text generalizing a a' with
  | nil => exact absurd (List.append_eq_nil_iff.mp (List.append_eq_nil_iff.mp h.symm).2).1 hne
  | cons c cs ih =>
      rw [places] at hone
      -- what starts here leaves no place behind it
      have hstart : ∀ {y x y' : List α} {z : α}, c :: cs = needle ++ y →
          c :: cs = z :: x ++ (needle ++ y') → False := by
        intro y x y' z hy hz
        have hpre : needle <+: c :: cs := ⟨y, hy.symm⟩
        have hinner : needle <:+: cs := by
          rw [List.cons_append] at hz
          exact ⟨x, y', by rw [(List.cons.inj hz).2, List.append_assoc]⟩
        have hpos := places_pos hne hinner
        rw [if_pos hpre] at hone
        omega
      cases a with
      | nil =>
          cases a' with
          | nil => exact ⟨rfl, List.append_cancel_left (h.symm.trans h')⟩
          | cons z a' => exact (hstart h h').elim
      | cons z a =>
          cases a' with
          | nil => exact (hstart h' h).elim
          | cons z' a' =>
              rw [List.cons_append] at h h'
              obtain ⟨rfl, htail⟩ := List.cons.inj h
              obtain ⟨rfl, htail'⟩ := List.cons.inj h'
              obtain ⟨rfl, rfl⟩ := ih (by omega) htail htail'
              exact ⟨rfl, rfl⟩

theorem cutFirst_of_one (hne : needle ≠ []) {a b : List α}
    (hone : places needle (a ++ (needle ++ b)) ≤ 1) :
    cutFirst needle (a ++ (needle ++ b)) = some (a, b) := by
  cases hcut : cutFirst needle (a ++ (needle ++ b)) with
  | none =>
      exact absurd ⟨a, b, List.append_assoc a needle b⟩ ((cutFirst_eq_none hne).mp hcut)
  | some p =>
      obtain ⟨ha, hb⟩ := cut_unique hne hone rfl (cutFirst_eq_some hcut)
      rw [ha, hb]

theorem cutLast_of_one (hne : needle ≠ []) {a b : List α}
    (hone : places needle (a ++ (needle ++ b)) ≤ 1) :
    cutLast needle (a ++ (needle ++ b)) = some (a, b) := by
  cases hcut : cutLast needle (a ++ (needle ++ b)) with
  | none =>
      exact absurd ⟨a, b, List.append_assoc a needle b⟩ ((cutLast_eq_none hne).mp hcut)
  | some p =>
      obtain ⟨ha, hb⟩ := cut_unique hne hone rfl (cutLast_eq_some hcut)
      rw [ha, hb]

/-! ### Seams -/

/-- No needle lies over the seam between two texts. -/
theorem places_append_of_seam {a b : List α}
    (hseam : ∀ x y, x ≠ [] → y ≠ [] → needle = x ++ y → x <:+ a → ¬y <+: b) :
    places needle (a ++ b) = places needle a + places needle b := by
  induction a with
  | nil => exact (Nat.zero_add _).symm
  | cons c a ih =>
      have hiff : needle <+: c :: (a ++ b) ↔ needle <+: c :: a := by
        constructor
        · intro h
          rw [← List.cons_append] at h
          obtain ⟨rest, hrest⟩ := h
          rcases List.append_eq_append_iff.mp hrest with ⟨y, hy, -⟩ | ⟨y, hy, hyb⟩
          · exact ⟨y, hy.symm⟩
          · cases y with
            | nil =>
                rw [List.append_nil] at hy
                exact hy ▸ List.prefix_rfl
            | cons z y =>
                exact absurd ⟨rest, hyb.symm⟩ (hseam (c :: a) (z :: y) (List.cons_ne_nil _ _)
                  (List.cons_ne_nil _ _) hy List.suffix_rfl)
        · rintro ⟨rest, hrest⟩
          exact ⟨rest ++ b, by rw [← List.append_assoc, hrest, List.cons_append]⟩
      rw [List.cons_append, places, places, ih fun x y hx hy hsplit hxa =>
        hseam x y hx hy hsplit (hxa.trans (List.suffix_cons c a))]
      simp only [hiff]
      omega

/-- A separator that the needle does not hold may be counted with what is behind it. -/
theorem places_append_sep {sep : α} (hsep : sep ∉ needle) (hne : needle ≠ []) (a rest : List α) :
    places needle (a ++ sep :: rest) = places needle a + places needle (sep :: rest) := by
  have hhead := places_append_cons hsep hne [] rest
  rw [List.nil_append] at hhead
  rw [places_append_cons hsep hne, hhead]
  exact congrArg _ (Nat.zero_add _).symm

/-- A needle whose first character comes first only lies over no seam before that character. -/
theorem places_append_head {x : α} {t : List α} (hx : x ∉ t) (a b : List α) :
    places (x :: t) (a ++ x :: b) = places (x :: t) a + places (x :: t) (x :: b) := by
  refine places_append_of_seam fun u v hu hv hsplit _ hpre => ?_
  obtain ⟨y, u, rfl⟩ := List.exists_cons_of_ne_nil hu
  obtain ⟨z, v, rfl⟩ := List.exists_cons_of_ne_nil hv
  obtain ⟨-, ht⟩ := List.cons.inj hsplit
  obtain ⟨rfl, -⟩ := List.cons_prefix_cons.mp hpre
  exact hx (ht ▸ List.mem_append_right u (List.mem_cons_self ..))

/-- A needle whose last character comes last only lies over no seam behind that character. -/
theorem places_append_last {x : α} {i : List α} (hx : x ∉ i) (a b : List α) :
    places (i ++ [x]) (a ++ [x] ++ b) =
      places (i ++ [x]) (a ++ [x]) + places (i ++ [x]) b := by
  refine places_append_of_seam fun u v hu hv hsplit hsuf _ => ?_
  obtain ⟨u, y, rfl⟩ := (List.eq_nil_or_concat' u).resolve_left hu
  obtain ⟨v, z, rfl⟩ := (List.eq_nil_or_concat' v).resolve_left hv
  rw [← List.append_assoc] at hsplit
  obtain ⟨hi, -⟩ := List.append_inj' hsplit rfl
  obtain rfl : y = x := by
    obtain ⟨w, hw⟩ := hsuf
    rw [← List.append_assoc] at hw
    exact List.singleton_inj.mp (List.append_inj' hw rfl).2
  exact hx (hi ▸ List.mem_append_left v (List.mem_append_right u (List.mem_singleton_self _)))

/-- A needle does not stand in a text without one of its characters. -/
theorem places_eq_zero_of_notMem {x : α} (hx : x ∈ needle) (h : x ∉ text) :
    places needle text = 0 :=
  (places_eq_zero (List.ne_nil_of_mem hx)).mpr fun hinner => h (hinner.subset hx)

theorem places_of_inner {inner : List α} (hne : inner ≠ []) (hinner : inner <:+: needle)
    (h : places inner text = 0) : places needle text = 0 := by
  have hneedle : needle ≠ [] := by
    rintro rfl
    exact hne (List.infix_nil.mp hinner)
  exact (places_eq_zero hneedle).mpr fun hin => (places_eq_zero hne).mp h (hinner.trans hin)

/-! ### Taking out -/

theorem consumes_remove (hne : needle ≠ []) :
    Consumes (fun cs : List α => if needle <+: cs then some (cs.drop needle.length) else none) := by
  intro cs rest h
  dsimp only at h
  split at h
  · next hpre =>
      obtain rfl := Option.some.inj h
      have hlen := hpre.length_le
      have hpos := List.length_pos_iff.mpr hne
      rw [List.length_drop]
      omega
  · cases h

/-- A text that does not hold the needle is left as it is. -/
theorem remove_of_places_eq_zero (hne : needle ≠ []) (h : places needle text = 0) :
    remove needle text = text := by
  refine replaceAll_of_forall_none (consumes_remove hne) fun t ht => if_neg fun hpre => ?_
  exact (places_eq_zero hne).mp h (hpre.isInfix.trans ht.isInfix)

theorem remove_sublist (hne : needle ≠ []) (text : List α) : (remove needle text).Sublist text := by
  induction hn : text.length using Nat.strong_induction_on generalizing text with
  | _ n ih =>
      cases text with
      | nil => exact List.Sublist.refl _
      | cons c cs =>
          rw [List.length_cons] at hn
          unfold remove at ih ⊢
          by_cases hpre : needle <+: c :: cs
          · have hlen := hpre.length_le
            have hpos := List.length_pos_iff.mpr hne
            rw [replaceAll_of_some (consumes_remove hne) (if_pos hpre), List.nil_append]
            have hdrop : ((c :: cs).drop needle.length).length < n := by
              rw [List.length_drop, List.length_cons]
              omega
            exact (ih _ hdrop _ rfl).trans (List.drop_sublist ..)
          · rw [replaceAll_of_none (consumes_remove hne) (if_neg hpre)]
            exact (ih cs.length (by omega) cs rfl).cons_cons c

/-- A text that holds the needle gets shorter. -/
theorem length_remove_lt (hne : needle ≠ []) (h : needle <:+: text) :
    (remove needle text).length < text.length := by
  induction text with
  | nil => exact absurd (List.infix_nil.mp h) hne
  | cons c cs ih =>
      unfold remove
      by_cases hpre : needle <+: c :: cs
      · have hlen := hpre.length_le
        have hpos := List.length_pos_iff.mpr hne
        rw [replaceAll_of_some (consumes_remove hne) (if_pos hpre), List.nil_append]
        refine Nat.lt_of_le_of_lt (remove_sublist hne _).length_le ?_
        rw [List.length_drop]
        omega
      · rw [replaceAll_of_none (consumes_remove hne) (if_neg hpre), List.length_cons, List.length_cons]
        exact Nat.succ_lt_succ (ih ((List.infix_cons_iff.mp h).resolve_left hpre))

end Runir.Scan
