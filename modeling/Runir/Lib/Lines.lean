import Mathlib.Data.List.DropRight
import Runir.Lib.Text

/-!
# Library — Lines

The lines of a text, trimmed, without the blank ones.

* `contentLines`: the lines.  Each is trimmed, not blank, and on one line (`ContentLine`).
* `contentLines_join`: content lines that are joined are read back as they were.
-/

namespace Runir

theorem trim_trim (s : String) : Text.trim (Text.trim s) = Text.trim s := by
  have hchars : ∀ cs : List Char, Text.trimChars (Text.trimChars cs) = Text.trimChars cs := by
    intro cs
    have htrim : ∀ cs : List Char, Text.trimChars cs = (cs.dropWhile Text.isSpace).rdropWhile
        Text.isSpace := fun _ => rfl
    have hdrop : ((cs.dropWhile Text.isSpace).rdropWhile Text.isSpace).dropWhile Text.isSpace =
        (cs.dropWhile Text.isSpace).rdropWhile Text.isSpace := by
      rw [List.dropWhile_eq_self_iff]
      intro hpos
      have hpre := List.rdropWhile_prefix Text.isSpace (cs.dropWhile Text.isSpace)
      rw [hpre.getElem hpos]
      exact List.dropWhile_get_zero_not _ _ (hpos.trans_le hpre.length_le)
    rw [htrim (Text.trimChars cs), htrim cs, hdrop, List.rdropWhile_idempotent]
  unfold Text.trim
  rw [String.toList_ofList, hchars]

namespace Text

variable {sep : Char} {cs : List Char}

/-- No piece of a split has the separator. -/
theorem not_mem_of_mem_splitOnChars {w : List Char} (h : w ∈ splitOnChars sep cs) : sep ∉ w := by
  induction cs generalizing w with
  | nil =>
      rw [List.mem_singleton.mp h]
      exact List.not_mem_nil
  | cons c cs ih =>
      rw [splitOnChars] at h
      split at h
      · rcases List.mem_cons.mp h with rfl | h
        · exact List.not_mem_nil
        · exact ih h
      · next hc =>
          have hne : sep ≠ c := fun heq => hc (beq_iff_eq.mpr heq.symm)
          split at h
          · rw [List.mem_singleton.mp h]
            simpa using hne
          · next v vs hsplit =>
              rw [hsplit] at ih
              rcases List.mem_cons.mp h with rfl | h
              · exact List.not_mem_cons_of_ne_of_not_mem hne (ih List.mem_cons_self)
              · exact ih (List.mem_cons_of_mem v h)

theorem splitOnChars_of_not_mem (h : sep ∉ cs) : splitOnChars sep cs = [cs] := by
  induction cs with
  | nil => rfl
  | cons c cs ih =>
      rw [List.mem_cons, not_or] at h
      rw [splitOnChars, if_neg (fun hc => h.1 (beq_iff_eq.mp hc).symm), ih h.2]

theorem splitOnChars_append_cons (h : sep ∉ cs) (rest : List Char) :
    splitOnChars sep (cs ++ sep :: rest) = cs :: splitOnChars sep rest := by
  induction cs with
  | nil => rw [List.nil_append, splitOnChars, if_pos (beq_iff_eq.mpr rfl)]
  | cons c cs ih =>
      rw [List.mem_cons, not_or] at h
      rw [List.cons_append, splitOnChars, if_neg (fun hc => h.1 (beq_iff_eq.mp hc).symm), ih h.2]

theorem trimChars_sublist (cs : List Char) : (trimChars cs).Sublist cs :=
  (List.rdropWhile_prefix isSpace _).sublist.trans (List.dropWhile_sublist isSpace)

/-- The lines of a text, trimmed, without the blank ones. -/
def contentLines (s : String) : List String := ((splitOn s '\n').map trim).filter (· ≠ "")

theorem mem_contentLines {s line : String} :
    line ∈ contentLines s ↔ line ≠ "" ∧ ∃ piece ∈ splitOn s '\n', trim piece = line := by
  rw [contentLines, List.mem_filter, List.mem_map, decide_eq_true_eq, and_comm]

/-- A line as `contentLines` has them. -/
structure ContentLine (line : String) : Prop where
  trimmed : trim line = line
  notBlank : line ≠ ""
  oneLine : '\n' ∉ line.toList

theorem contentLine_of_mem {s line : String} (h : line ∈ contentLines s) : ContentLine line := by
  obtain ⟨hne, piece, hpiece, rfl⟩ := mem_contentLines.mp h
  obtain ⟨w, hw, rfl⟩ := List.mem_map.mp hpiece
  refine ⟨trim_trim _, hne, fun hnewline => ?_⟩
  rw [trim, String.toList_ofList, String.toList_ofList] at hnewline
  exact not_mem_of_mem_splitOnChars hw ((trimChars_sublist w).subset hnewline)

theorem splitOn_of_oneLine {s : String} (h : '\n' ∉ s.toList) : splitOn s '\n' = [s] := by
  rw [splitOn, splitOnChars_of_not_mem h, List.map_singleton, String.ofList_toList]

theorem splitOn_append {s : String} (h : '\n' ∉ s.toList) (rest : String) :
    splitOn (s ++ "\n" ++ rest) '\n' = s :: splitOn rest '\n' := by
  have hlist : (s ++ "\n" ++ rest).toList = s.toList ++ '\n' :: rest.toList := by
    rw [String.toList_append, String.toList_append, List.append_assoc]
    rfl
  rw [splitOn, hlist, splitOnChars_append_cons h, List.map_cons, String.ofList_toList, splitOn]

theorem splitOn_join {lines : List String} (hne : lines ≠ [])
    (h : ∀ line ∈ lines, '\n' ∉ line.toList) : splitOn (join "\n" lines) '\n' = lines := by
  induction lines with
  | nil => exact absurd rfl hne
  | cons line lines ih =>
      have hline := h line List.mem_cons_self
      cases hlines : lines with
      | nil => exact splitOn_of_oneLine hline
      | cons next rest =>
          rw [hlines] at ih h
          rw [join, splitOn_append hline, ih (List.cons_ne_nil _ _) fun l hl =>
            h l (List.mem_cons_of_mem line hl)]
          exact List.cons_ne_nil _ _

/-- **Content lines read back.** -/
theorem contentLines_join {lines : List String} (h : ∀ line ∈ lines, ContentLine line) :
    contentLines (join "\n" lines) = lines := by
  by_cases hne : lines = []
  · rw [hne]
    rfl
  · have hmap : lines.map trim = lines :=
      (List.map_congr_left fun line hline => (h line hline).trimmed).trans (List.map_id lines)
    have hfilter : lines.filter (· ≠ "") = lines :=
      List.filter_eq_self.mpr fun line hline => decide_eq_true (h line hline).notBlank
    rw [contentLines, splitOn_join hne fun line hline => (h line hline).oneLine, hmap, hfilter]

end Text

end Runir
