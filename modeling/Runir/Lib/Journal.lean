import Mathlib.Data.List.Basic

/-!
# Library — Journals

Files of lines that are only ever appended to, and what reading one back comes to.

* `cutLines`: the complete lines of some data, and the rest.
* `LineFormat`: how an entry is written on a line.
* `text`, `positions`, `replay`: the file of a list of entries, where its lines stand, and the
  state it is read into.
* `readChunks`: reading a file chunk by chunk.  `readChunks_text`: the chunks do not matter;
  `readChunks_take`: a file cut anywhere is read into the state after some of its lines.
-/

namespace Runir

namespace Journal
variable {α : Type*} [DecidableEq α] (sep : α)

/-- The complete lines of some data, without their ends, and what follows the last of them. -/
def cutLines : List α → List (List α) × List α
  | [] => ([], [])
  | x :: xs =>
      if x = sep then ([] :: (cutLines xs).1, (cutLines xs).2)
      else
        match cutLines xs with
        | ([], rest) => ([], x :: rest)
        | (l :: ls, rest) => ((x :: l) :: ls, rest)

theorem cutLines_cons_sep (xs : List α) :
    cutLines sep (sep :: xs) = ([] :: (cutLines sep xs).1, (cutLines sep xs).2) := if_pos rfl

theorem cutLines_of_notMem {l : List α} (h : sep ∉ l) : cutLines sep l = ([], l) := by
  induction l with
  | nil => rfl
  | cons x l ih =>
      obtain ⟨hx, hl⟩ := not_or.mp (fun hmem => h (List.mem_cons.mpr hmem))
      rw [cutLines, if_neg (Ne.symm hx), ih hl]

/-- A line comes off the front. -/
theorem cutLines_line {l : List α} (h : sep ∉ l) (xs : List α) :
    cutLines sep (l ++ sep :: xs) = (l :: (cutLines sep xs).1, (cutLines sep xs).2) := by
  induction l with
  | nil => exact cutLines_cons_sep sep xs
  | cons x l ih =>
      obtain ⟨hx, hl⟩ := not_or.mp (fun hmem => h (List.mem_cons.mpr hmem))
      rw [List.cons_append, cutLines, if_neg (Ne.symm hx), ih hl]

/-- What follows the last line is carried on into the data that comes next. -/
theorem cutLines_append (xs ys : List α) :
    cutLines sep (xs ++ ys) =
      ((cutLines sep xs).1 ++ (cutLines sep ((cutLines sep xs).2 ++ ys)).1,
        (cutLines sep ((cutLines sep xs).2 ++ ys)).2) := by
  induction xs with
  | nil => rfl
  | cons x xs ih =>
      by_cases hx : x = sep
      · subst hx
        rw [List.cons_append, cutLines_cons_sep, ih, cutLines_cons_sep, List.cons_append]
      · rw [List.cons_append, cutLines, if_neg hx, ih, cutLines, if_neg hx]
        cases hcut : cutLines sep xs with
        | mk ls rest =>
            cases ls with
            | nil =>
                simp only [List.nil_append, List.cons_append]
                rw [cutLines, if_neg hx]
            | cons l ls => rfl

/-- Less data has no more lines. -/
theorem cutLines_prefix {xs ys : List α} (h : xs <+: ys) :
    (cutLines sep xs).1 <+: (cutLines sep ys).1 := by
  obtain ⟨zs, rfl⟩ := h
  rw [cutLines_append]
  exact List.prefix_append _ _

/-- The lines, with their ends, and the rest are the data. -/
theorem flatMap_cutLines (xs : List α) :
    (cutLines sep xs).1.flatMap (· ++ [sep]) ++ (cutLines sep xs).2 = xs := by
  induction xs with
  | nil => rfl
  | cons x xs ih =>
      by_cases hx : x = sep
      · rw [cutLines, if_pos hx]
        change sep :: ((cutLines sep xs).1.flatMap (· ++ [sep]) ++ (cutLines sep xs).2) = x :: xs
        rw [ih, hx]
      · rw [cutLines, if_neg hx]
        cases hcut : cutLines sep xs with
        | mk ls rest =>
            rw [hcut] at ih
            cases ls with
            | nil => exact congrArg (x :: ·) ih
            | cons l ls => exact congrArg (x :: ·) ih

/-- What follows the last line has no end of a line. -/
theorem sep_notMem_rest (xs : List α) : sep ∉ (cutLines sep xs).2 := by
  induction xs with
  | nil => exact List.not_mem_nil
  | cons x xs ih =>
      by_cases hx : x = sep
      · rw [cutLines, if_pos hx]
        exact ih
      · rw [cutLines, if_neg hx]
        cases hcut : cutLines sep xs with
        | mk ls rest =>
            rw [hcut] at ih
            cases ls with
            | nil => exact fun hmem => (List.mem_cons.mp hmem).elim (fun h => hx h.symm) ih
            | cons l ls => exact ih

end Journal

/-- How entries are written, one to a line.  A line is read back with its end or without. -/
structure LineFormat (ε α : Type*) where
  sep : α
  stringify : ε → List α
  parse : List α → Option ε
  sep_notMem : ∀ e, sep ∉ stringify e
  parse_stringify : ∀ e, parse (stringify e) = some e
  parse_line : ∀ e, parse (stringify e ++ [sep]) = some e

namespace LineFormat
variable {ε α σ : Type*} (fmt : LineFormat ε α)

def line (e : ε) : List α := fmt.stringify e ++ [fmt.sep]

/-- The file of some entries. -/
def text (es : List ε) : List α := es.flatMap fmt.line

/-- Where each line of some entries stands in a file, and how long it is. -/
def positions : Nat → List ε → List (Nat × Nat)
  | _, [] => []
  | offset, e :: es => (offset, (fmt.line e).length) :: positions (offset + (fmt.line e).length) es

@[simp] theorem text_nil : fmt.text [] = [] := rfl

@[simp] theorem text_cons (e : ε) (es : List ε) : fmt.text (e :: es) = fmt.line e ++ fmt.text es :=
  List.flatMap_cons ..

@[simp] theorem text_append (es es' : List ε) : fmt.text (es ++ es') = fmt.text es ++ fmt.text es' :=
  List.flatMap_append

theorem length_positions (offset : Nat) (es : List ε) :
    (fmt.positions offset es).length = es.length := by
  induction es generalizing offset with
  | nil => rfl
  | cons e es ih => exact congrArg (· + 1) (ih _)

/-- **A line is found where it stands**, whatever comes after the file. -/
theorem read_position {offset length : Nat} {e : ε} {es : List ε} {file : List α}
    (h : (e, (offset, length)) ∈ es.zip (fmt.positions file.length es)) (rest : List α) :
    ((file ++ fmt.text es ++ rest).drop offset).take length = fmt.line e ∧
      offset + length ≤ (file ++ fmt.text es).length := by
  induction es generalizing file with
  | nil => cases h
  | cons e' es ih =>
      rw [positions, List.zip_cons_cons] at h
      rcases List.mem_cons.mp h with heq | hmem
      · obtain ⟨rfl, hpos⟩ := Prod.mk.inj heq
        obtain ⟨rfl, rfl⟩ := Prod.mk.inj hpos
        simp [List.append_assoc]
      · have hlen : file.length + (fmt.line e').length = (file ++ fmt.line e').length := by simp
        rw [hlen] at hmem
        have hread := ih hmem
        simpa [List.append_assoc] using hread

/-! ### Reading back -/

section
variable (apply : Nat → Nat → ε → σ → σ)

/-- The state some entries are read into; each is applied with where its line stands and how long
it is. -/
def replay : Nat → List ε → σ → σ
  | _, [], s => s
  | offset, e :: es, s =>
      replay (offset + (fmt.line e).length) es (apply offset (fmt.line e).length e s)

theorem replay_append (offset : Nat) (es es' : List ε) (s : σ) :
    fmt.replay apply offset (es ++ es') s =
      fmt.replay apply (offset + (fmt.text es).length) es' (fmt.replay apply offset es s) := by
  induction es generalizing offset s with
  | nil => rfl
  | cons e es ih =>
      rw [List.cons_append, replay, ih, text_cons, List.length_append, Nat.add_assoc]
      rfl

/-- What a reader has come to: the end of the last line, what follows it so far, the state. -/
structure Reading (α σ : Type*) where
  offset : Nat
  remainder : List α
  state : σ

/-- The lines of a chunk, one after the other; the first that cannot be read ends the reading. -/
def readLines : List (List α) → Nat → σ → Option (Nat × σ)
  | [], offset, s => some (offset, s)
  | l :: ls, offset, s =>
      match fmt.parse l with
      | none => none
      | some e => readLines ls (offset + (l.length + 1)) (apply offset (l.length + 1) e s)

variable [DecidableEq α]

/-- A chunk: what was left over is read on with it, and what follows its last line is left. -/
def readChunk (r : Reading α σ) (chunk : List α) : Option (Reading α σ) :=
  let data := r.remainder ++ chunk
  match fmt.readLines apply (Journal.cutLines fmt.sep data).1 r.offset r.state with
  | none => none
  | some (offset, s) => some ⟨offset, (Journal.cutLines fmt.sep data).2, s⟩

def readChunks : List (List α) → Reading α σ → Option (Reading α σ)
  | [], r => some r
  | chunk :: chunks, r =>
      match fmt.readChunk apply r chunk with
      | none => none
      | some r' => readChunks chunks r'

omit [DecidableEq α] in
theorem readLines_append (ls ms : List (List α)) (offset : Nat) (s : σ) :
    fmt.readLines apply (ls ++ ms) offset s =
      (fmt.readLines apply ls offset s).bind fun r => fmt.readLines apply ms r.1 r.2 := by
  induction ls generalizing offset s with
  | nil => rfl
  | cons l ls ih =>
      rw [List.cons_append, readLines, readLines]
      cases fmt.parse l with
      | none => rfl
      | some e => exact ih _ _

theorem readChunk_append (r : Reading α σ) (chunk chunk' : List α) :
    fmt.readChunk apply r (chunk ++ chunk') =
      (fmt.readChunk apply r chunk).bind fun r' => fmt.readChunk apply r' chunk' := by
  unfold readChunk
  simp only
  rw [← List.append_assoc, Journal.cutLines_append, readLines_append]
  cases fmt.readLines apply (Journal.cutLines fmt.sep (r.remainder ++ chunk)).1 r.offset r.state with
  | none => rfl
  | some r' => rfl

/-- **The chunks do not matter**: reading them one by one is reading the file at once. -/
theorem readChunks_eq {r : Reading α σ} (h : fmt.sep ∉ r.remainder) (chunks : List (List α)) :
    fmt.readChunks apply chunks r = fmt.readChunk apply r chunks.flatten := by
  induction chunks generalizing r with
  | nil =>
      unfold readChunk
      simp only [List.flatten_nil, List.append_nil, Journal.cutLines_of_notMem fmt.sep h]
      rfl
  | cons chunk chunks ih =>
      rw [readChunks, List.flatten_cons, readChunk_append]
      cases hread : fmt.readChunk apply r chunk with
      | none => rfl
      | some r' =>
          refine ih ?_
          unfold readChunk at hread
          simp only at hread
          split at hread
          · cases hread
          · obtain rfl := Option.some.inj hread
            exact Journal.sep_notMem_rest fmt.sep _

omit [DecidableEq α] in
/-- What was written line by line is read into what it replays to. -/
theorem readLines_stringify (es : List ε) (offset : Nat) (s : σ) :
    fmt.readLines apply (es.map fmt.stringify) offset s =
      some (offset + (fmt.text es).length, fmt.replay apply offset es s) := by
  induction es generalizing offset s with
  | nil => rfl
  | cons e es ih =>
      have hlen : (fmt.stringify e).length + 1 = (fmt.line e).length := by simp [line]
      rw [List.map_cons, readLines, fmt.parse_stringify]
      simp only
      rw [hlen, ih, text_cons, List.length_append, Nat.add_assoc]
      rfl

theorem cutLines_text (es : List ε) :
    Journal.cutLines fmt.sep (fmt.text es) = (es.map fmt.stringify, []) := by
  induction es with
  | nil => rfl
  | cons e es ih =>
      have hline : fmt.text (e :: es) = fmt.stringify e ++ fmt.sep :: fmt.text es := by
        rw [text_cons, line, List.append_assoc]
        rfl
      rw [hline, Journal.cutLines_line fmt.sep (fmt.sep_notMem e), ih]
      rfl

/-- **A file is read into what it replays to.** -/
theorem readChunks_text {es : List ε} {chunks : List (List α)} (h : chunks.flatten = fmt.text es)
    (s : σ) :
    fmt.readChunks apply chunks ⟨0, [], s⟩ =
      some ⟨(fmt.text es).length, [], fmt.replay apply 0 es s⟩ := by
  rw [readChunks_eq fmt apply List.not_mem_nil, h]
  unfold readChunk
  simp only [List.nil_append, cutLines_text, readLines_stringify, Nat.zero_add]

/-- **A file cut anywhere is read into what some of its lines replay to**; these and what is left
over are all of it. -/
theorem readChunks_take {es : List ε} {chunks : List (List α)} {n : Nat}
    (h : chunks.flatten = (fmt.text es).take n) (s : σ) :
    ∃ k remainder, fmt.text (es.take k) ++ remainder = (fmt.text es).take n ∧
      fmt.readChunks apply chunks ⟨0, [], s⟩ =
        some ⟨(fmt.text (es.take k)).length, remainder, fmt.replay apply 0 (es.take k) s⟩ := by
  have htake := List.take_prefix n (fmt.text es)
  have hpre := Journal.cutLines_prefix fmt.sep htake
  rw [cutLines_text] at hpre
  generalize hcut : Journal.cutLines fmt.sep ((fmt.text es).take n) = cut at hpre
  have hlines : cut.1 = (es.take cut.1.length).map fmt.stringify := by
    rw [List.map_take]
    exact List.prefix_iff_eq_take.mp hpre
  have hjoined : fmt.text (es.take cut.1.length) = cut.1.flatMap (· ++ [fmt.sep]) := by
    have hmap : ((es.take cut.1.length).map fmt.stringify).flatMap (· ++ [fmt.sep]) =
        fmt.text (es.take cut.1.length) := List.flatMap_map ..
    rw [← hmap, ← hlines]
  refine ⟨cut.1.length, cut.2, ?_, ?_⟩
  · have hdata := Journal.flatMap_cutLines fmt.sep ((fmt.text es).take n)
    rwa [hcut, ← hjoined] at hdata
  rw [readChunks_eq fmt apply List.not_mem_nil, h]
  unfold readChunk
  simp only [List.nil_append, hcut]
  have hread := readLines_stringify fmt apply (es.take cut.1.length) 0 s
  rw [← hlines, Nat.zero_add] at hread
  rw [hread]

end

end LineFormat

end Runir
