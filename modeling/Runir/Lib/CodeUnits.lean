import Mathlib.Data.List.Lex
import Mathlib.Data.List.Sort
import Runir.Lib.Distinct

/-!
# Library — Code units

Strings by their UTF-16 code units, which is how JavaScript measures and sorts them.

* `utf16_append`, `length_utf16`, `utf16_inj`: the units of a text, their number, and the text of
  them.
* `sortStrings`: `.sort()` on strings; sorted already, a list is left as it is
  (`sortStrings_eq_self`), and with no string twice each comes strictly before the next
  (`pairwise_sortStrings`).
-/

namespace Runir

/-- The UTF-16 code units of a text. -/
def utf16 (text : List Char) : List Nat :=
  text.flatMap fun c =>
    if c.toNat < 0x10000 then [c.toNat]
    else [0xD800 + (c.toNat - 0x10000) / 0x400, 0xDC00 + (c.toNat - 0x10000) % 0x400]

section
variable {cs ds : List Char}

theorem utf16_append : utf16 (cs ++ ds) = utf16 cs ++ utf16 ds := List.flatMap_append

theorem length_utf16 (cs : List Char) : (utf16 cs).length = Text.length (String.ofList cs) := by
  have hfold : ∀ (cs : List Char) (n : Nat),
      cs.foldl (fun n c => n + if c.toNat < 0x10000 then 1 else 2) n = n + (utf16 cs).length := by
    intro cs
    induction cs with
    | nil => exact fun n => rfl
    | cons c cs ih =>
        intro n
        have hcons : utf16 ([c] ++ cs) = utf16 [c] ++ utf16 cs := utf16_append
        have hone : (utf16 [c]).length = if c.toNat < 0x10000 then 1 else 2 := by
          rw [utf16, List.flatMap_singleton]
          split
          · rfl
          · rfl
        rw [List.foldl_cons, ih, ← List.singleton_append, hcons, List.length_append, hone,
          Nat.add_assoc]
  rw [Text.length, String.toList_ofList, hfold, Nat.zero_add]

theorem utf16_ne_nil (h : cs ≠ []) : utf16 cs ≠ [] := by
  obtain ⟨c, cs, rfl⟩ := List.exists_cons_of_ne_nil h
  rw [utf16, List.flatMap_cons]
  split
  · exact List.cons_ne_nil _ _
  · exact List.cons_ne_nil _ _

theorem utf16_inj {cs ds : List Char} (h : utf16 cs = utf16 ds) : cs = ds := by
  have hne : ∀ (c : Char) (cs : List Char), utf16 (c :: cs) ≠ [] := by
    intro c cs
    rw [utf16, List.flatMap_cons]
    split
    · exact List.cons_ne_nil _ _
    · exact List.cons_ne_nil _ _
  induction cs generalizing ds with
  | nil =>
      cases ds with
      | nil => rfl
      | cons d ds => exact absurd h.symm (hne d ds)
  | cons c cs ih =>
      cases ds with
      | nil => exact absurd h (hne c cs)
      | cons d ds =>
          -- the first unit of a pair is that of no character by itself
          have hvalid : ∀ c : Char, c.toNat < 0xD800 ∨ (0xDFFF < c.toNat ∧ c.toNat < 0x110000) :=
            fun c => c.valid
          have hc := hvalid c
          have hd := hvalid d
          have hsame : c.toNat = d.toNat → utf16 cs = utf16 ds → c :: cs = d :: ds := by
            intro heq hrest
            rw [Char.toNat_inj.mp heq, ih hrest]
          rw [utf16, utf16, List.flatMap_cons, List.flatMap_cons] at h
          split at h
          · split at h
            · obtain ⟨heq, hrest⟩ := List.cons.inj h
              exact hsame heq hrest
            · have heq := (List.cons.inj h).1
              omega
          · split at h
            · have heq := (List.cons.inj h).1
              omega
            · obtain ⟨hhigh, htail⟩ := List.cons.inj h
              obtain ⟨hlow, hrest⟩ := List.cons.inj htail
              exact hsame (by omega) hrest

end

/-! ### Sorting -/

/-- `a < b` on strings. -/
def Before (a b : String) : Prop := utf16 a.toList < utf16 b.toList

/-- `ss.sort()`. -/
def sortStrings (ss : List String) : List String :=
  ss.insertionSort fun a b => utf16 a.toList ≤ utf16 b.toList

section
variable {ss : List String}

theorem mem_sortStrings {s : String} : s ∈ sortStrings ss ↔ s ∈ ss := List.mem_insertionSort _

theorem pairwise_sortStrings (h : ss.Nodup) : (sortStrings ss).Pairwise Before := by
  have htotal : Std.Total fun a b : String => utf16 a.toList ≤ utf16 b.toList :=
    ⟨fun a b => le_total _ _⟩
  have htrans : IsTrans String fun a b => utf16 a.toList ≤ utf16 b.toList :=
    ⟨fun a b c => le_trans⟩
  have hsorted : (sortStrings ss).Pairwise fun a b => utf16 a.toList ≤ utf16 b.toList :=
    List.pairwise_insertionSort _ _
  have hnodup : (sortStrings ss).Nodup := (List.perm_insertionSort _ _).nodup_iff.mpr h
  refine (hsorted.and hnodup).imp fun {a b} h => lt_of_le_of_ne h.1 fun heq => h.2 ?_
  exact String.toList_inj.mp (utf16_inj heq)

theorem sortStrings_eq_self (h : ss.Pairwise Before) : sortStrings ss = ss :=
  List.Pairwise.insertionSort_eq (h.imp fun hlt => le_of_lt hlt)

/-- `[...new Set(ss)].sort()` once more. -/
theorem sortStrings_distinct_sortStrings (ss : List String) :
    sortStrings (distinct (sortStrings (distinct ss))) = sortStrings (distinct ss) := by
  have hsorted := pairwise_sortStrings (nodup_distinct ss)
  have hnodup : (sortStrings (distinct ss)).Nodup :=
    hsorted.imp fun {a b} hlt heq => absurd (heq ▸ hlt) (lt_irrefl (utf16 b.toList))
  rw [distinct_eq_self hnodup, sortStrings_eq_self hsorted]

end

end Runir
