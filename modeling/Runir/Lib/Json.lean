import Mathlib.Data.List.Basic

/-!
# Library — JSON texts

`JSON.stringify` and `JSON.parse`, on the documents whose numbers are integers.

* `Json`: what a text says.  A property of an object is that of its last member so named.
* `stringify`, `parse`: the text of a document, and the document of a text.
* `parse_stringify`: what was printed is read back, blanks after it or not.
* `newline_notMem_stringify`: a printed document is on one line.
* `record`: an object of some properties; `prop?_record`: reading them.
* `encode`, `decode`: texts as UTF-8.

A text with a fraction or an exponent in it, or a lone surrogate, is not read.
-/

namespace Runir

mutual

inductive Json where
  | null
  | bool (b : Bool)
  | int (n : Int)
  | str (s : String)
  | arr (xs : Jsons)
  | obj (ms : Members)

inductive Jsons where
  | nil
  | cons (x : Json) (xs : Jsons)

/-- The members of an object, as they stand in the text. -/
inductive Members where
  | nil
  | cons (k : String) (x : Json) (ms : Members)

end

namespace Json

def quote : Char := Char.ofNat 34

def backslash : Char := Char.ofNat 92

/-! ### Printing -/

def hexDigit (n : Nat) : Char := Nat.digitChar n

/-- A character of a string. -/
def escape (c : Char) : List Char :=
  if c = quote then [backslash, quote]
  else if c = backslash then [backslash, backslash]
  else if c = Char.ofNat 8 then [backslash, 'b']
  else if c = Char.ofNat 12 then [backslash, 'f']
  else if c = Char.ofNat 10 then [backslash, 'n']
  else if c = Char.ofNat 13 then [backslash, 'r']
  else if c = Char.ofNat 9 then [backslash, 't']
  else if c.toNat < 32 then
    [backslash, 'u', '0', '0', hexDigit (c.toNat / 16), hexDigit (c.toNat % 16)]
  else [c]

def printString (s : String) : List Char := quote :: (s.toList.flatMap escape ++ [quote])

def printInt : Int → List Char
  | .ofNat n => Nat.toDigits 10 n
  | .negSucc n => '-' :: Nat.toDigits 10 (n + 1)

end Json

mutual

/-- `JSON.stringify`. -/
def Json.stringify : Json → List Char
  | .null => ['n', 'u', 'l', 'l']
  | .bool true => ['t', 'r', 'u', 'e']
  | .bool false => ['f', 'a', 'l', 's', 'e']
  | .int n => Json.printInt n
  | .str s => Json.printString s
  | .arr .nil => ['[', ']']
  | .arr (.cons x xs) => '[' :: (x.stringify ++ xs.stringifyRest)
  | .obj .nil => ['{', '}']
  | .obj (.cons k x ms) => '{' :: (Json.printString k ++ ':' :: (x.stringify ++ ms.stringifyRest))

/-- What follows an element. -/
def Jsons.stringifyRest : Jsons → List Char
  | .nil => [']']
  | .cons x xs => ',' :: (x.stringify ++ xs.stringifyRest)

/-- What follows a member. -/
def Members.stringifyRest : Members → List Char
  | .nil => ['}']
  | .cons k x ms => ',' :: (Json.printString k ++ ':' :: (x.stringify ++ ms.stringifyRest))

end

variable {c : Char}

namespace Json

/-! ### Reading -/

def isBlank (c : Char) : Bool :=
  c = ' ' || c = Char.ofNat 9 || c = Char.ofNat 10 || c = Char.ofNat 13

def blank (cs : List Char) : List Char := cs.dropWhile isBlank

/-- The character next after blanks. -/
def eat (c : Char) (cs : List Char) : Option (List Char) :=
  match blank cs with
  | [] => none
  | c' :: rest => if c' = c then some rest else none

def hexValue (c : Char) : Option Nat :=
  if '0' ≤ c ∧ c ≤ '9' then some (c.toNat - 48)
  else if 'a' ≤ c ∧ c ≤ 'f' then some (c.toNat - 87)
  else if 'A' ≤ c ∧ c ≤ 'F' then some (c.toNat - 55)
  else none

def hex4 : List Char → Option (Nat × List Char)
  | a :: b :: c :: d :: rest =>
      match hexValue a, hexValue b, hexValue c, hexValue d with
      | some a, some b, some c, some d => some (((a * 16 + b) * 16 + c) * 16 + d, rest)
      | _, _, _, _ => none
  | _ => none

/-- The second half of a surrogate pair. -/
def surrogate (high : Nat) : List Char → Option (Char × List Char)
  | b :: u :: rest =>
      if b = backslash ∧ u = 'u' then
        match hex4 rest with
        | some (low, rest) =>
            if 0xDC00 ≤ low ∧ low ≤ 0xDFFF then
              some (Char.ofNat (0x10000 + (high - 0xD800) * 0x400 + (low - 0xDC00)), rest)
            else none
        | none => none
      else none
  | _ => none

/-- The character of an escape, after its backslash. -/
def escaped : List Char → Option (Char × List Char)
  | [] => none
  | c :: rest =>
      if c = quote ∨ c = backslash ∨ c = '/' then some (c, rest)
      else if c = 'b' then some (Char.ofNat 8, rest)
      else if c = 'f' then some (Char.ofNat 12, rest)
      else if c = 'n' then some (Char.ofNat 10, rest)
      else if c = 'r' then some (Char.ofNat 13, rest)
      else if c = 't' then some (Char.ofNat 9, rest)
      else if c = 'u' then
        match hex4 rest with
        | some (n, rest) =>
            if 0xD800 ≤ n ∧ n ≤ 0xDBFF then surrogate n rest
            else if 0xDC00 ≤ n ∧ n ≤ 0xDFFF then none
            else some (Char.ofNat n, rest)
        | none => none
      else none

/-- The characters of a string, up to the quote that ends it. -/
def chars : Nat → List Char → Option (List Char × List Char)
  | 0, _ => none
  | _ + 1, [] => none
  | n + 1, c :: rest =>
      if c = quote then some ([], rest)
      else if c = backslash then
        match escaped rest with
        | some (c, rest) => (chars n rest).map fun r => (c :: r.1, r.2)
        | none => none
      else if c.toNat < 32 then none
      else (chars n rest).map fun r => (c :: r.1, r.2)

/-- A string, after its first quote. -/
def stringRest (cs : List Char) : Option (String × List Char) :=
  (chars (cs.length + 1) cs).map fun r => (String.ofList r.1, r.2)

def isNumeric (c : Char) : Bool := c.isDigit || c = '.' || c = 'e' || c = 'E' || c = '+' || c = '-'

/-- The digits of an integer: none to spare in front. -/
def natural (token : List Char) : Option Nat :=
  if token ≠ [] ∧ token.all Char.isDigit = true ∧ (token.head? = some '0' → token.length = 1) then
    some (Nat.ofDigitChars 10 token 0)
  else none

def number (cs : List Char) : Option (Json × List Char) :=
  let negative := cs.head? = some '-'
  let digits := if negative then cs.tail else cs
  (natural (digits.takeWhile isNumeric)).map fun n =>
    (.int (if negative then -n else n), digits.dropWhile isNumeric)

def literal (word : List Char) (v : Json) (cs : List Char) : Option (Json × List Char) :=
  if word.isPrefixOf cs then some (v, cs.drop word.length) else none

mutual

/-- A value, and what follows it. -/
def value : Nat → List Char → Option (Json × List Char)
  | 0, _ => none
  | n + 1, cs =>
      match blank cs with
      | [] => none
      | c :: rest =>
          if c = quote then (stringRest rest).map fun r => (.str r.1, r.2)
          else if c = '[' then
            match eat ']' rest with
            | some rest => some (.arr .nil, rest)
            | none =>
                match value n rest with
                | some (x, rest) => (elements n rest).map fun r => (.arr (.cons x r.1), r.2)
                | none => none
          else if c = '{' then
            match eat '}' rest with
            | some rest => some (.obj .nil, rest)
            | none =>
                match member n rest with
                | some ((k, x), rest) => (members n rest).map fun r => (.obj (.cons k x r.1), r.2)
                | none => none
          else if c = 'n' then literal ['n', 'u', 'l', 'l'] .null (c :: rest)
          else if c = 't' then literal ['t', 'r', 'u', 'e'] (.bool true) (c :: rest)
          else if c = 'f' then literal ['f', 'a', 'l', 's', 'e'] (.bool false) (c :: rest)
          else number (c :: rest)

/-- What follows an element. -/
def elements : Nat → List Char → Option (Jsons × List Char)
  | 0, _ => none
  | n + 1, cs =>
      match eat ']' cs with
      | some rest => some (.nil, rest)
      | none =>
          match eat ',' cs with
          | some rest =>
              match value n rest with
              | some (x, rest) => (elements n rest).map fun r => (.cons x r.1, r.2)
              | none => none
          | none => none

def member : Nat → List Char → Option ((String × Json) × List Char)
  | 0, _ => none
  | n + 1, cs =>
      match eat quote cs with
      | some rest =>
          match stringRest rest with
          | some (k, rest) =>
              match eat ':' rest with
              | some rest => (value n rest).map fun r => ((k, r.1), r.2)
              | none => none
          | none => none
      | none => none

/-- What follows a member. -/
def members : Nat → List Char → Option (Members × List Char)
  | 0, _ => none
  | n + 1, cs =>
      match eat '}' cs with
      | some rest => some (.nil, rest)
      | none =>
          match eat ',' cs with
          | some rest =>
              match member n rest with
              | some ((k, x), rest) => (members n rest).map fun r => (.cons k x r.1, r.2)
              | none => none
          | none => none

end

/-- `JSON.parse`. -/
def parse (cs : List Char) : Option Json :=
  match value (cs.length + 1) cs with
  | some (v, rest) => if blank rest = [] then some v else none
  | none => none

/-! ### Reading what was printed: blanks, strings, numbers -/

theorem blank_cons (h : isBlank c = false) (rest : List Char) :
    blank (c :: rest) = c :: rest := by
  unfold blank
  rw [List.dropWhile_cons, if_neg (by rw [h]; exact Bool.false_ne_true)]

theorem eat_self (h : isBlank c = false) (rest : List Char) :
    eat c (c :: rest) = some rest := by
  unfold eat
  rw [blank_cons h]
  exact if_pos rfl

theorem eat_ne {c c' : Char} (h : isBlank c' = false) (hne : c' ≠ c) (rest : List Char) :
    eat c (c' :: rest) = none := by
  unfold eat
  rw [blank_cons h]
  exact if_neg hne

theorem hexValue_hexDigit : ∀ n < 16, hexValue (hexDigit n) = some n := by decide

theorem chars_plain (hquote : c ≠ quote) (hbackslash : c ≠ backslash)
    (hcontrol : ¬ c.toNat < 32) (n : Nat) (rest : List Char) :
    chars (n + 1) (c :: rest) = (chars n rest).map fun r => (c :: r.1, r.2) := by
  rw [chars, if_neg hquote, if_neg hbackslash, if_neg hcontrol]

theorem chars_backslash {cs rest : List Char} (h : escaped cs = some (c, rest)) (n : Nat) :
    chars (n + 1) (backslash :: cs) = (chars n rest).map fun r => (c :: r.1, r.2) := by
  have hquote : ¬ backslash = quote := by decide
  rw [chars, if_neg hquote, if_pos rfl, h]

/-- A control character, by its code. -/
theorem escaped_control (h : c.toNat < 32) (rest : List Char) :
    escaped ('u' :: '0' :: '0' :: hexDigit (c.toNat / 16) :: hexDigit (c.toNat % 16) :: rest) =
      some (c, rest) := by
  have hhex : hex4 ('0' :: '0' :: hexDigit (c.toNat / 16) :: hexDigit (c.toNat % 16) :: rest) =
      some (c.toNat, rest) := by
    have hzero : hexValue '0' = some 0 := by decide
    unfold hex4
    simp only [hzero, hexValue_hexDigit (c.toNat / 16) (by omega),
      hexValue_hexDigit (c.toNat % 16) (by omega)]
    rw [Option.some.injEq, Prod.mk.injEq]
    exact ⟨by omega, rfl⟩
  have hhigh : ¬ (0xD800 ≤ c.toNat ∧ c.toNat ≤ 0xDBFF) := by omega
  have hlow : ¬ (0xDC00 ≤ c.toNat ∧ c.toNat ≤ 0xDFFF) := by omega
  have hu : escaped ('u' :: '0' :: '0' :: hexDigit (c.toNat / 16) :: hexDigit (c.toNat % 16) :: rest) =
      match hex4 ('0' :: '0' :: hexDigit (c.toNat / 16) :: hexDigit (c.toNat % 16) :: rest) with
      | some (n, rest) =>
          if 0xD800 ≤ n ∧ n ≤ 0xDBFF then surrogate n rest
          else if 0xDC00 ≤ n ∧ n ≤ 0xDFFF then none
          else some (Char.ofNat n, rest)
      | none => none := rfl
  rw [hu, hhex]
  simp only
  rw [if_neg hhigh, if_neg hlow, Char.ofNat_toNat]

/-- An escaped character is read as it was. -/
theorem chars_escape (c : Char) (n : Nat) (rest : List Char) :
    chars (n + 1) (escape c ++ rest) = (chars n rest).map fun r => (c :: r.1, r.2) := by
  by_cases hquote : c = quote
  · subst hquote
    rfl
  by_cases hbackslash : c = backslash
  · subst hbackslash
    rfl
  by_cases hb : c = Char.ofNat 8
  · subst hb
    rfl
  by_cases hf : c = Char.ofNat 12
  · subst hf
    rfl
  by_cases hn : c = Char.ofNat 10
  · subst hn
    rfl
  by_cases hr : c = Char.ofNat 13
  · subst hr
    rfl
  by_cases ht : c = Char.ofNat 9
  · subst ht
    rfl
  unfold escape
  rw [if_neg hquote, if_neg hbackslash, if_neg hb, if_neg hf, if_neg hn, if_neg hr, if_neg ht]
  by_cases hcontrol : c.toNat < 32
  · rw [if_pos hcontrol]
    exact chars_backslash (escaped_control hcontrol rest) n
  · rw [if_neg hcontrol]
    exact chars_plain hquote hbackslash hcontrol n rest

variable {n : Nat}

theorem chars_flatMap_escape (s : List Char) (h : s.length < n) (rest : List Char) :
    chars n (s.flatMap escape ++ quote :: rest) = some (s, rest) := by
  induction s generalizing n with
  | nil =>
      cases n with
      | zero => cases h
      | succ n => rfl
  | cons c s ih =>
      cases n with
      | zero => cases h
      | succ n =>
          rw [List.flatMap_cons, List.append_assoc, chars_escape, ih (Nat.lt_of_succ_lt_succ h)]
          rfl

theorem escape_ne_nil (c : Char) : escape c ≠ [] := by
  unfold escape
  split_ifs
  all_goals exact List.cons_ne_nil _ _

theorem length_le_flatMap_escape (s : List Char) : s.length ≤ (s.flatMap escape).length := by
  induction s with
  | nil => exact Nat.le_refl _
  | cons c s ih =>
      rw [List.flatMap_cons, List.length_append, List.length_cons]
      have hpos := List.length_pos_of_ne_nil (escape_ne_nil c)
      omega

/-- A printed string is read back. -/
theorem stringRest_print (s : String) (rest : List Char) :
    stringRest (s.toList.flatMap escape ++ quote :: rest) = some (s, rest) := by
  have hlen : s.toList.length < (s.toList.flatMap escape ++ quote :: rest).length + 1 := by
    have hle := length_le_flatMap_escape s.toList
    rw [List.length_append]
    omega
  unfold stringRest
  rw [chars_flatMap_escape s.toList hlen, Option.map_some, String.ofList_toList]

/-- Text that does not carry a number on. -/
def Ends (rest : List Char) : Prop := ∀ c, rest.head? = some c → isNumeric c = false

theorem ends_cons (h : isNumeric c = false) (rest : List Char) : Ends (c :: rest) :=
  fun _ hc => Option.some.inj hc ▸ h

theorem isNumeric_of_isDigit (h : c.isDigit = true) : isNumeric c = true := by
  unfold isNumeric
  simp [h]

theorem isBlank_of_isDigit (h : c.isDigit = true) : isBlank c = false := by
  have hne : ∀ c' : Char, c'.isDigit = false → c ≠ c' := by
    rintro c' hc' rfl
    exact Bool.false_ne_true (hc'.symm.trans h)
  unfold isBlank
  simp [hne ' ' (by decide), hne (Char.ofNat 9) (by decide), hne (Char.ofNat 10) (by decide),
    hne (Char.ofNat 13) (by decide)]

theorem isNumeric_of_isBlank (h : isBlank c = true) : isNumeric c = false := by
  unfold isBlank at h
  simp only [Bool.or_eq_true, decide_eq_true_eq] at h
  rcases h with ((rfl | rfl) | rfl) | rfl
  all_goals decide

theorem isDigit_toDigits (h : c ∈ Nat.toDigits 10 n) : c.isDigit = true :=
  Nat.isDigit_of_mem_toDigits (by decide) (by decide) h

/-- Only zero starts with the digit zero. -/
theorem length_toDigits_of_head (h : (Nat.toDigits 10 n).head? = some '0') :
    (Nat.toDigits 10 n).length = 1 := by
  induction n using Nat.strongRecOn with
  | ind n ih =>
      by_cases hn : n < 10
      · rw [Nat.toDigits_of_lt_base hn]
        rfl
      · rw [Nat.toDigits_of_base_le (by decide) (Nat.le_of_not_lt hn)] at h
        have hne : Nat.toDigits 10 (n / 10) ≠ [] := Nat.toDigits_ne_nil
        have hhead : (Nat.toDigits 10 (n / 10)).head? = some '0' := by
          rwa [List.head?_append_of_ne_nil _ hne] at h
        have hone := ih (n / 10) (by omega) hhead
        -- a number of one digit that starts with zero is zero
        rw [List.length_eq_one_iff] at hone
        obtain ⟨d, hd⟩ := hone
        rw [hd] at hhead
        obtain rfl : d = '0' := Option.some.inj hhead
        have hzero : n / 10 = 0 := by
          rw [← Nat.ofDigitChars_ten_toDigits (n := n / 10), hd]
          rfl
        omega

theorem natural_toDigits (n : Nat) : natural (Nat.toDigits 10 n) = some n := by
  unfold natural
  rw [if_pos, Nat.ofDigitChars_ten_toDigits]
  refine ⟨Nat.toDigits_ne_nil, ?_, length_toDigits_of_head⟩
  exact List.all_eq_true.mpr fun c hc => isDigit_toDigits hc

variable {rest : List Char}

theorem takeWhile_toDigits (n : Nat) (h : Ends rest) :
    (Nat.toDigits 10 n ++ rest).takeWhile isNumeric = Nat.toDigits 10 n ∧
      (Nat.toDigits 10 n ++ rest).dropWhile isNumeric = rest := by
  have hall : ∀ c ∈ Nat.toDigits 10 n, isNumeric c = true :=
    fun c hc => isNumeric_of_isDigit (isDigit_toDigits hc)
  have hrest : rest.takeWhile isNumeric = [] ∧ rest.dropWhile isNumeric = rest := by
    cases rest with
    | nil => exact ⟨rfl, rfl⟩
    | cons c rest =>
        have hc := h c rfl
        simp [hc]
  rw [List.takeWhile_append_of_pos hall, List.dropWhile_append_of_pos hall, hrest.1, hrest.2]
  exact ⟨List.append_nil _, rfl⟩

/-- A printed integer is read back, where the text after it does not carry it on. -/
theorem number_print (n : Int) (h : Ends rest) :
    number (printInt n ++ rest) = some (.int n, rest) := by
  cases n with
  | ofNat n =>
      obtain ⟨htake, hdrop⟩ := takeWhile_toDigits n h
      have hdigit : ¬ (Nat.toDigits 10 n ++ rest).head? = some '-' := by
        rw [List.head?_append_of_ne_nil _ Nat.toDigits_ne_nil]
        intro hhead
        have hdash := isDigit_toDigits (List.mem_of_mem_head? hhead)
        exact absurd hdash (by decide)
      unfold number printInt
      simp only [hdigit, if_false, htake, hdrop, natural_toDigits]
      rfl
  | negSucc n =>
      obtain ⟨htake, hdrop⟩ := takeWhile_toDigits (n + 1) h
      unfold number printInt
      simp only [List.cons_append, List.head?_cons, if_true, List.tail_cons, htake, hdrop,
        natural_toDigits]
      rfl

/-! ### Reading what was printed: values -/

/-- A printed value starts with a character that is not blank and closes nothing. -/
theorem stringify_head (v : Json) :
    ∃ c cs, v.stringify = c :: cs ∧ isBlank c = false ∧ c ≠ ']' := by
  have hdigits : ∀ n, ∃ c cs, Nat.toDigits 10 n = c :: cs ∧ c.isDigit = true := by
    intro n
    obtain ⟨c, cs, heq⟩ := List.exists_cons_of_ne_nil (Nat.toDigits_ne_nil (n := n) (b := 10))
    exact ⟨c, cs, heq, isDigit_toDigits (heq ▸ List.mem_cons_self)⟩
  cases v with
  | null => exact ⟨_, _, rfl, by decide, by decide⟩
  | bool b =>
      cases b with
      | true => exact ⟨_, _, rfl, by decide, by decide⟩
      | false => exact ⟨_, _, rfl, by decide, by decide⟩
  | int n =>
      cases n with
      | ofNat n =>
          obtain ⟨c, cs, heq, hdigit⟩ := hdigits n
          refine ⟨c, cs, heq, ?_, ?_⟩
          · exact isBlank_of_isDigit hdigit
          · rintro rfl
            exact absurd hdigit (by decide)
      | negSucc n => exact ⟨_, _, rfl, by decide, by decide⟩
  | str s => exact ⟨_, _, rfl, by decide, by decide⟩
  | arr xs =>
      cases xs with
      | nil => exact ⟨_, _, rfl, by decide, by decide⟩
      | cons x xs => exact ⟨_, _, rfl, by decide, by decide⟩
  | obj ms =>
      cases ms with
      | nil => exact ⟨_, _, rfl, by decide, by decide⟩
      | cons k x ms => exact ⟨_, _, rfl, by decide, by decide⟩

theorem value_cons (h : isBlank c = false) (n : Nat) (rest : List Char) :
    value (n + 1) (c :: rest) =
      if c = quote then (stringRest rest).map fun r => (.str r.1, r.2)
      else if c = '[' then
        match eat ']' rest with
        | some rest => some (.arr .nil, rest)
        | none =>
            match value n rest with
            | some (x, rest) => (elements n rest).map fun r => (.arr (.cons x r.1), r.2)
            | none => none
      else if c = '{' then
        match eat '}' rest with
        | some rest => some (.obj .nil, rest)
        | none =>
            match member n rest with
            | some ((k, x), rest) => (members n rest).map fun r => (.obj (.cons k x r.1), r.2)
            | none => none
      else if c = 'n' then literal ['n', 'u', 'l', 'l'] .null (c :: rest)
      else if c = 't' then literal ['t', 'r', 'u', 'e'] (.bool true) (c :: rest)
      else if c = 'f' then literal ['f', 'a', 'l', 's', 'e'] (.bool false) (c :: rest)
      else number (c :: rest) := by
  rw [value, blank_cons h]

/-- An integer is read by its first character. -/
theorem value_number (h : c.isDigit = true ∨ c = '-') (n : Nat) (rest : List Char) :
    value (n + 1) (c :: rest) = number (c :: rest) := by
  have hne : ∀ c' : Char, c'.isDigit = false → c' ≠ '-' → c ≠ c' := by
    rintro c' hdigit hdash rfl
    rcases h with h | h
    · exact Bool.false_ne_true (hdigit.symm.trans h)
    · exact hdash h
  have hblank : isBlank c = false := by
    rcases h with h | rfl
    · exact isBlank_of_isDigit h
    · decide
  rw [value_cons hblank, if_neg (hne quote (by decide) (by decide)),
    if_neg (hne '[' (by decide) (by decide)), if_neg (hne '{' (by decide) (by decide)),
    if_neg (hne 'n' (by decide) (by decide)), if_neg (hne 't' (by decide) (by decide)),
    if_neg (hne 'f' (by decide) (by decide))]

theorem value_printInt (i : Int) (n : Nat) (h : Ends rest) :
    value (n + 1) (printInt i ++ rest) = some (.int i, rest) := by
  rw [← number_print i h]
  cases i with
  | ofNat m =>
      obtain ⟨c, cs, heq⟩ := List.exists_cons_of_ne_nil (Nat.toDigits_ne_nil (n := m) (b := 10))
      have hprint : printInt (Int.ofNat m) = c :: cs := heq
      rw [hprint, List.cons_append]
      exact value_number (.inl (isDigit_toDigits (heq ▸ List.mem_cons_self))) n _
  | negSucc m => exact value_number (.inr rfl) n _

/-- A printed member is read back, where its value is. -/
theorem member_print (k : String) {x : Json} {cs rest : List Char}
    (h : value n cs = some (x, rest)) :
    member (n + 1) (printString k ++ ':' :: cs) = some ((k, x), rest) := by
  have hstring : printString k ++ ':' :: cs =
      quote :: (k.toList.flatMap escape ++ quote :: ':' :: cs) := by
    simp [printString]
  rw [hstring, member, eat_self (by decide)]
  simp only
  rw [stringRest_print]
  simp only
  rw [eat_self (by decide)]
  simp only
  rw [h, Option.map_some]

theorem ends_stringifyRest (xs : Jsons) (rest : List Char) : Ends (xs.stringifyRest ++ rest) := by
  cases xs with
  | nil => exact ends_cons (by decide) _
  | cons x xs => exact ends_cons (by decide) _

theorem ends_stringifyRest_members (ms : Members) (rest : List Char) :
    Ends (ms.stringifyRest ++ rest) := by
  cases ms with
  | nil => exact ends_cons (by decide) _
  | cons k x ms => exact ends_cons (by decide) _

end Json

/-! The recursion is that of the printer; the fuel covers what has been printed. -/

mutual

/-- **A printed value is read back.** -/
theorem Json.value_stringify : ∀ (v : Json) (n : Nat) (rest : List Char),
    v.stringify.length ≤ n → Json.Ends rest →
      Json.value n (v.stringify ++ rest) = some (v, rest)
  | v, 0, rest, hn, _ => by
      obtain ⟨c, cs, heq, -⟩ := Json.stringify_head v
      rw [heq] at hn
      cases hn
  | .null, n + 1, rest, _, _ => by rfl
  | .bool true, n + 1, rest, _, _ => by rfl
  | .bool false, n + 1, rest, _, _ => by rfl
  | .int i, n + 1, rest, _, hrest => Json.value_printInt i n hrest
  | .str s, n + 1, rest, _, _ => by
      have hstring : Json.stringify (.str s) ++ rest =
          Json.quote :: (s.toList.flatMap Json.escape ++ Json.quote :: rest) := by
        simp [Json.stringify, Json.printString]
      rw [hstring, Json.value_cons (by decide), if_pos rfl, Json.stringRest_print, Option.map_some]
  | .arr .nil, n + 1, rest, _, _ => by rfl
  | .arr (.cons x xs), n + 1, rest, hn, _ => by
      have hlen : x.stringify.length ≤ n ∧ xs.stringifyRest.length ≤ n := by
        simp only [Json.stringify, List.length_cons, List.length_append] at hn
        omega
      have harr : Json.stringify (.arr (.cons x xs)) ++ rest =
          '[' :: (x.stringify ++ (xs.stringifyRest ++ rest)) := by
        simp [Json.stringify]
      obtain ⟨c, cs, heq, hblank, hne⟩ := Json.stringify_head x
      have hclose : Json.eat ']' (x.stringify ++ (xs.stringifyRest ++ rest)) = none := by
        rw [heq, List.cons_append]
        exact Json.eat_ne hblank hne _
      have hx := Json.value_stringify x n _ hlen.1 (Json.ends_stringifyRest xs rest)
      have hxs := Json.elements_stringify xs n rest hlen.2
      rw [harr, Json.value_cons (by decide), if_neg (by decide), if_pos rfl, hclose]
      simp only
      rw [hx]
      simp only
      rw [hxs, Option.map_some]
  | .obj .nil, n + 1, rest, _, _ => by rfl
  | .obj (.cons k x ms), n + 1, rest, hn, _ => by
      have hlen : x.stringify.length + 1 ≤ n ∧ ms.stringifyRest.length ≤ n := by
        simp only [Json.stringify, List.length_cons, List.length_append] at hn
        omega
      have hobj : Json.stringify (.obj (.cons k x ms)) ++ rest =
          '{' :: (Json.printString k ++ ':' :: (x.stringify ++ (ms.stringifyRest ++ rest))) := by
        simp [Json.stringify]
      have hclose : Json.eat '}' (Json.printString k ++
          ':' :: (x.stringify ++ (ms.stringifyRest ++ rest))) = none :=
        Json.eat_ne (by decide) (by decide) _
      obtain ⟨m, rfl⟩ : ∃ m, n = m + 1 := ⟨n - 1, by omega⟩
      have hx := Json.value_stringify x m _ (by omega) (Json.ends_stringifyRest_members ms rest)
      have hms := Json.members_stringify ms (m + 1) rest hlen.2
      rw [hobj, Json.value_cons (by decide), if_neg (by decide), if_neg (by decide), if_pos rfl,
        hclose]
      simp only
      rw [Json.member_print k hx]
      simp only
      rw [hms, Option.map_some]

theorem Json.elements_stringify : ∀ (xs : Jsons) (n : Nat) (rest : List Char),
    xs.stringifyRest.length ≤ n → Json.elements n (xs.stringifyRest ++ rest) = some (xs, rest)
  | .nil, 0, _, hn => nomatch hn
  | .cons _ _, 0, _, hn => nomatch hn
  | .nil, n + 1, rest, _ => by rfl
  | .cons x xs, n + 1, rest, hn => by
      have hlen : x.stringify.length ≤ n ∧ xs.stringifyRest.length ≤ n := by
        simp only [Jsons.stringifyRest, List.length_cons, List.length_append] at hn
        omega
      have hcons : Jsons.stringifyRest (.cons x xs) ++ rest =
          ',' :: (x.stringify ++ (xs.stringifyRest ++ rest)) := by
        simp [Jsons.stringifyRest]
      have hx := Json.value_stringify x n _ hlen.1 (Json.ends_stringifyRest xs rest)
      have hxs := Json.elements_stringify xs n rest hlen.2
      rw [hcons, Json.elements, Json.eat_ne (by decide) (by decide), Json.eat_self (by decide)]
      simp only
      rw [hx]
      simp only
      rw [hxs, Option.map_some]

theorem Json.members_stringify : ∀ (ms : Members) (n : Nat) (rest : List Char),
    ms.stringifyRest.length ≤ n → Json.members n (ms.stringifyRest ++ rest) = some (ms, rest)
  | .nil, 0, _, hn => nomatch hn
  | .cons _ _ _, 0, _, hn => nomatch hn
  | .nil, n + 1, rest, _ => by rfl
  | .cons k x ms, n + 1, rest, hn => by
      have hlen : x.stringify.length + 1 ≤ n ∧ ms.stringifyRest.length ≤ n := by
        simp only [Members.stringifyRest, List.length_cons, List.length_append] at hn
        omega
      have hcons : Members.stringifyRest (.cons k x ms) ++ rest =
          ',' :: (Json.printString k ++ ':' :: (x.stringify ++ (ms.stringifyRest ++ rest))) := by
        simp [Members.stringifyRest]
      obtain ⟨m, rfl⟩ : ∃ m, n = m + 1 := ⟨n - 1, by omega⟩
      have hx := Json.value_stringify x m _ (by omega) (Json.ends_stringifyRest_members ms rest)
      have hms := Json.members_stringify ms (m + 1) rest hlen.2
      rw [hcons, Json.members, Json.eat_ne (by decide) (by decide), Json.eat_self (by decide)]
      simp only
      rw [Json.member_print k hx]
      simp only
      rw [hms, Option.map_some]

end

namespace Json

/-- **A printed document is read back**, with blanks after it or without. -/
theorem parse_stringify (v : Json) (rest : List Char) (h : blank rest = []) :
    parse (v.stringify ++ rest) = some v := by
  have hends : Ends rest := by
    intro c hc
    cases rest with
    | nil => cases hc
    | cons c' rest =>
        obtain rfl := Option.some.inj hc
        have hblank : isBlank c' = true := by
          by_contra hnot
          rw [blank_cons (Bool.eq_false_iff.mpr hnot)] at h
          cases h
        exact isNumeric_of_isBlank hblank
  have hfuel : v.stringify.length ≤ (v.stringify ++ rest).length + 1 := by
    rw [List.length_append]
    omega
  unfold parse
  rw [value_stringify v _ rest hfuel hends]
  exact if_pos h

/-! ### One line -/

def newline : Char := Char.ofNat 10

theorem newline_notMem_escape (c : Char) : newline ∉ escape c := by
  have hhex : ∀ n < 16, newline ≠ hexDigit n := by decide
  have hletters : newline ∉ [backslash, quote, 'b', 'f', 'n', 'r', 't', 'u', '0'] := by decide
  simp only [List.mem_cons, List.not_mem_nil, or_false, not_or] at hletters
  obtain ⟨hbackslash, hquote, hb, hf, hn, hr, ht, hu, hzero⟩ := hletters
  unfold escape
  split_ifs with h₁ h₂ h₃ h₄ h₅ h₆ h₇ h₈
  · simp [hbackslash, hquote]
  · simp [hbackslash]
  · simp [hbackslash, hb]
  · simp [hbackslash, hf]
  · simp [hbackslash, hn]
  · simp [hbackslash, hr]
  · simp [hbackslash, ht]
  · simp [hbackslash, hu, hzero, hhex (c.toNat / 16) (by omega), hhex (c.toNat % 16) (by omega)]
  · rw [List.mem_singleton]
    exact fun heq => h₅ heq.symm

theorem newline_notMem_printString (s : String) : newline ∉ printString s := by
  intro hmem
  unfold printString at hmem
  rcases List.mem_cons.mp hmem with hquote | hrest
  · exact absurd hquote (by decide)
  · rcases List.mem_append.mp hrest with hchars | hquote
    · obtain ⟨c, -, hc⟩ := List.mem_flatMap.mp hchars
      exact newline_notMem_escape c hc
    · exact absurd (List.mem_singleton.mp hquote) (by decide)

theorem newline_notMem_printInt (n : Int) : newline ∉ printInt n := by
  have hdigits : ∀ n, newline ∉ Nat.toDigits 10 n :=
    fun n hmem => absurd (isDigit_toDigits hmem) (by decide)
  cases n with
  | ofNat n => exact hdigits n
  | negSucc n => exact List.not_mem_cons_of_ne_of_not_mem (by decide) (hdigits (n + 1))

end Json

mutual

/-- **A printed document is on one line.** -/
theorem Json.newline_notMem_stringify : ∀ v : Json, Json.newline ∉ v.stringify
  | .null | .bool true | .bool false | .arr .nil | .obj .nil => by decide
  | .int n => Json.newline_notMem_printInt n
  | .str s => Json.newline_notMem_printString s
  | .arr (.cons x xs) => by
      have hx := Json.newline_notMem_stringify x
      have hxs := Json.newline_notMem_elements xs
      have hopen : Json.newline ≠ '[' := by decide
      simp [Json.stringify, hx, hxs, hopen]
  | .obj (.cons k x ms) => by
      have hk := Json.newline_notMem_printString k
      have hx := Json.newline_notMem_stringify x
      have hms := Json.newline_notMem_members ms
      have hopen : Json.newline ≠ '{' ∧ Json.newline ≠ ':' := by decide
      simp [Json.stringify, hk, hx, hms, hopen]

theorem Json.newline_notMem_elements : ∀ xs : Jsons, Json.newline ∉ xs.stringifyRest
  | .nil => by decide
  | .cons x xs => by
      have hx := Json.newline_notMem_stringify x
      have hxs := Json.newline_notMem_elements xs
      have hcomma : Json.newline ≠ ',' := by decide
      simp [Jsons.stringifyRest, hx, hxs, hcomma]

theorem Json.newline_notMem_members : ∀ ms : Members, Json.newline ∉ ms.stringifyRest
  | .nil => by decide
  | .cons k x ms => by
      have hk := Json.newline_notMem_printString k
      have hx := Json.newline_notMem_stringify x
      have hms := Json.newline_notMem_members ms
      have hcomma : Json.newline ≠ ',' ∧ Json.newline ≠ ':' := by decide
      simp [Members.stringifyRest, hk, hx, hms, hcomma]

end

/-! ### Objects -/

def Members.ofList : List (String × Json) → Members
  | [] => .nil
  | (k, x) :: ms => .cons k x (ofList ms)

/-- The last member so named. -/
def Members.get? (k : String) : Members → Option Json
  | .nil => none
  | .cons k' x ms => (ms.get? k).or (if k' = k then some x else none)

namespace Json

def prop? (k : String) : Json → Option Json
  | .obj ms => ms.get? k
  | _ => none

def str? : Json → Option String
  | .str s => some s
  | _ => none

def int? : Json → Option Int
  | .int n => some n
  | _ => none

def bool? : Json → Option Bool
  | .bool b => some b
  | _ => none

/-- Those properties that are defined. -/
def defined : List (String × Option Json) → List (String × Json)
  | [] => []
  | (_, none) :: fs => defined fs
  | (k, some x) :: fs => (k, x) :: defined fs

/-- An object of some properties; one that is undefined is left out. -/
def record (fs : List (String × Option Json)) : Json := .obj (.ofList (defined fs))

variable {fs : List (String × Option Json)}

theorem get?_defined_of_notMem {k : String}
    (h : k ∉ fs.map Prod.fst) : (Members.ofList (defined fs)).get? k = none := by
  induction fs with
  | nil => rfl
  | cons f fs ih =>
      obtain ⟨k', x⟩ := f
      obtain ⟨hne, hfs⟩ := not_or.mp (fun hmem => h (List.mem_cons.mpr hmem))
      cases x with
      | none => exact ih hfs
      | some x =>
          rw [defined, Members.ofList, Members.get?, ih hfs, if_neg (Ne.symm hne)]
          rfl

/-- A property of a record is what it was given. -/
theorem prop?_record {k : String} {x : Option Json}
    (h : (fs.map Prod.fst).Nodup) (hmem : (k, x) ∈ fs) : (record fs).prop? k = x := by
  change (Members.ofList (defined fs)).get? k = x
  induction fs with
  | nil => cases hmem
  | cons f fs ih =>
      obtain ⟨k', x'⟩ := f
      obtain ⟨hk', hfs⟩ := List.nodup_cons.mp h
      rcases List.mem_cons.mp hmem with heq | hrest
      · obtain ⟨rfl, rfl⟩ := Prod.mk.inj heq
        have hnone := get?_defined_of_notMem hk'
        cases x with
        | none => exact hnone
        | some x =>
            rw [defined, Members.ofList, Members.get?, hnone, if_pos rfl]
            rfl
      · have hne : k' ≠ k := by
          rintro rfl
          exact hk' (List.mem_map.mpr ⟨_, hrest, rfl⟩)
        cases x' with
        | none => exact ih hfs hrest
        | some x' =>
            rw [defined, Members.ofList, Members.get?, ih hfs hrest, if_neg hne]
            exact Option.or_none

end Json

/-! ### As bytes -/

namespace Utf8

/-- The bytes of a text. -/
def encode (cs : List Char) : List UInt8 := cs.flatMap String.utf8EncodeChar

def decode (bytes : List UInt8) : Option (List Char) :=
  bytes.toByteArray.utf8Decode?.map Array.toList

theorem decode_encode (cs : List Char) : decode (encode cs) = some cs := by
  have hbytes : (encode cs).toByteArray = cs.utf8Encode := rfl
  unfold decode
  rw [hbytes, List.utf8Decode?_utf8Encode]
  rfl

theorem encode_append (cs ds : List Char) : encode (cs ++ ds) = encode cs ++ encode ds :=
  List.flatMap_append

/-- The byte 10 is the newline. -/
theorem eq_newline_of_mem (h : (10 : UInt8) ∈ String.utf8EncodeChar c) :
    c = Json.newline := by
  have hbyte : ∀ n, (10 : UInt8) = UInt8.ofNat n → n % 256 = 10 := by
    intro n hn
    have htoNat := congrArg UInt8.toNat hn
    rw [UInt8.toNat_ofNat'] at htoNat
    exact htoNat.symm
  have hlarge : ∀ n, 128 ≤ n → n < 256 → (10 : UInt8) ≠ UInt8.ofNat n := by
    intro n hlow hhigh hn
    have hten := hbyte n hn
    omega
  unfold String.utf8EncodeChar at h
  simp only at h
  split_ifs at h with h₁ h₂ h₃
  · have hten := hbyte _ (List.mem_singleton.mp h)
    have hval : c.toNat = 10 := by
      change c.val.toNat % 256 = 10 at hten
      change c.val.toNat = 10
      omega
    rw [← Char.ofNat_toNat c, hval]
    rfl
  -- every byte of a longer character is at least 128
  · simp only [List.mem_cons, List.not_mem_nil, or_false] at h
    rcases h with h | h
    all_goals exact (hlarge _ (by omega) (by omega) h).elim
  · simp only [List.mem_cons, List.not_mem_nil, or_false] at h
    rcases h with h | h | h
    all_goals exact (hlarge _ (by omega) (by omega) h).elim
  · simp only [List.mem_cons, List.not_mem_nil, or_false] at h
    rcases h with h | h | h | h
    all_goals exact (hlarge _ (by omega) (by omega) h).elim

/-- Only a newline has the byte 10. -/
theorem newline_notMem_encode {cs : List Char} (h : Json.newline ∉ cs) :
    (10 : UInt8) ∉ encode cs := by
  intro hmem
  obtain ⟨c, hc, hbyte⟩ := List.mem_flatMap.mp hmem
  exact h (eq_newline_of_mem hbyte ▸ hc)

end Utf8

end Runir
