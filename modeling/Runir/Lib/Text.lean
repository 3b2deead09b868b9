import Mathlib.Data.Rat.Floor
import Runir.Lib.Regex

/-!
# Library — Text

String operations as JavaScript defines them, on strings read as lists of characters: white
space, trimming, searching, splitting, lower-casing over a Unicode character database, and
`toFixed` on the numbers the model keeps exact.
-/

namespace Runir

/-- What the Unicode character database says of a character: its full lower-case mapping, the two
properties the final-sigma rule reads, and the general categories patterns ask for. -/
structure Unicode where
  lower : Char → List Char
  cased : Char → Bool
  caseIgnorable : Char → Bool
  isLu : Char → Bool
  isL : Char → Bool
  isN : Char → Bool

namespace Unicode

/-- The database cut down to ASCII. -/
def ascii : Unicode where
  lower c := [Regex.foldCase c]
  cased := Regex.isAlphaChar
  caseIgnorable c := c == '\'' || c == '.' || c == ':' || c == '^' || c == '`'
  isLu := Regex.isUpperChar
  isL := Regex.isAlphaChar
  isN := Regex.isDigitChar

/-- Whether a cased character comes next, case-ignorable ones aside. -/
def casedNext (u : Unicode) : List Char → Bool
  | [] => false
  | c :: cs => if u.caseIgnorable c then casedNext u cs else u.cased c

/-- `toLowerCase` from a place whose earlier characters are `seen`, nearest first.  `Σ` becomes
`ς` at the end of a word. -/
def lowerFrom (u : Unicode) (seen : List Char) : List Char → List Char
  | [] => []
  | c :: cs =>
      (if c == 'Σ' && casedNext u seen && !casedNext u cs then ['ς'] else u.lower c) ++
        lowerFrom u (c :: seen) cs

def toLowerCase (u : Unicode) (s : String) : String := String.ofList (lowerFrom u [] s.toList)

end Unicode

namespace Text

/-- `\s`, which is also what `trim` removes. -/
def isSpace (c : Char) : Bool :=
  let n := c.toNat
  decide (9 ≤ n ∧ n ≤ 13) || n == 32 || n == 0xA0 || n == 0x1680 ||
    decide (0x2000 ≤ n ∧ n ≤ 0x200A) || n == 0x2028 || n == 0x2029 || n == 0x202F ||
    n == 0x205F || n == 0x3000 || n == 0xFEFF

def trimChars (cs : List Char) : List Char :=
  ((cs.dropWhile isSpace).reverse.dropWhile isSpace).reverse

def trim (s : String) : String := String.ofList (trimChars s.toList)

/-- `text.replace(/\s+/g, " ")`. -/
def collapseChars : List Char → List Char
  | [] => []
  | [c] => if isSpace c then [' '] else [c]
  | c :: d :: cs =>
      if isSpace c then
        if isSpace d then collapseChars (d :: cs) else ' ' :: collapseChars (d :: cs)
      else c :: collapseChars (d :: cs)

def collapse (s : String) : String := String.ofList (collapseChars s.toList)

/-- `s.indexOf(t)`, with `none` for `-1`. -/
def indexOfChars (needle : List Char) : List Char → Option Nat
  | [] => if needle.isEmpty then some 0 else none
  | c :: cs =>
      if needle.isPrefixOf (c :: cs) then some 0 else (indexOfChars needle cs).map (· + 1)

def indexOf (s t : String) : Option Nat := indexOfChars t.toList s.toList

/-- `s.includes(t)`. -/
def includes (s t : String) : Bool := (indexOf s t).isSome

def startsWith (s t : String) : Bool := t.toList.isPrefixOf s.toList

/-- `s.slice(n)`. -/
def sliceFrom (s : String) (n : Nat) : String := String.ofList (s.toList.drop n)

/-- `s.slice(0, n)`. -/
def sliceTo (s : String) (n : Nat) : String := String.ofList (s.toList.take n)

/-- `s.length`, in UTF-16 code units. -/
def length (s : String) : Nat :=
  s.toList.foldl (fun n c => n + if c.toNat < 0x10000 then 1 else 2) 0

theorem length_pos {s : String} (h : s ≠ "") : 0 < length s := by
  have hfold : ∀ (cs : List Char) (n : Nat),
      n ≤ cs.foldl (fun n c => n + if c.toNat < 0x10000 then 1 else 2) n := by
    intro cs
    induction cs with
    | nil => intro n; exact Nat.le_refl n
    | cons c cs ih => intro n; exact Nat.le_trans (Nat.le_add_right _ _) (ih _)
  rw [length]
  cases hs : s.toList with
  | nil => exact absurd (String.ext_iff.mpr hs) h
  | cons c cs =>
      rw [List.foldl_cons]
      refine Nat.lt_of_lt_of_le ?_ (hfold cs _)
      split
      · decide
      · decide

def takeUnits : Nat → List Char → List Char
  | _, [] => []
  | n, c :: cs =>
      let units := if c.toNat < 0x10000 then 1 else 2
      if n < units then [] else c :: takeUnits (n - units) cs

/-- `s.slice(0, n)`, where `n` counts UTF-16 code units and a split pair is dropped. -/
def sliceUnits (s : String) (n : Nat) : String := String.ofList (takeUnits n s.toList)

/-- `s.split(c)`. -/
def splitOnChars (sep : Char) : List Char → List (List Char)
  | [] => [[]]
  | c :: cs =>
      if c == sep then [] :: splitOnChars sep cs
      else
        match splitOnChars sep cs with
        | [] => [[c]]
        | w :: ws => (c :: w) :: ws

def splitOn (s : String) (sep : Char) : List String :=
  (splitOnChars sep s.toList).map String.ofList

/-- `s.split(re)`. -/
def split (r : Regex) (s : String) : List String := (r.split s.toList).map String.ofList

/-- `s.slice(0, n).length` where `n` counts code points. -/
def unitsBefore (s : String) (n : Nat) : Nat := length (sliceTo s n)

/-- `s.replace(re, "")` for a pattern that is not global. -/
def dropFirst (r : Regex) (s : String) : String :=
  match r.exec s.toList with
  | none => s
  | some m => String.ofList (m.skipped ++ m.rest)

/-- `re.test(s)`. -/
def test (r : Regex) (s : String) : Bool := r.matchIn s.toList

/-- The texts of all matches of a global pattern. -/
def matches' (r : Regex) (s : String) : List String :=
  (r.all s.toList).map fun m => String.ofList m.text

/-- `parts.join(sep)`. -/
def join (sep : String) : List String → String
  | [] => ""
  | [s] => s
  | s :: ss => s ++ sep ++ join sep ss

/-- The empty string and `undefined` are falsy. -/
def truthy (s : String) : Bool := !(s == "")

/-- `n` in at least `width` digits. -/
def pad (width : Nat) (n : Nat) : String :=
  let ds := (toString n).toList
  String.ofList (List.replicate (width - ds.length) '0' ++ ds)

/-- `x.toFixed(k)` for `0 < k` and `|x| < 10²¹`: the nearest multiple of `10⁻ᵏ`, of two the one
farther from zero. -/
def toFixed (k : Nat) (x : ℚ) : String :=
  let n := (⌊|x| * 10 ^ k + 1 / 2⌋).toNat
  let digits := toString (n / 10 ^ k) ++ "." ++ pad k (n % 10 ^ k)
  if x < 0 then "-" ++ digits else digits

end Text

/-- `[...new Set(xs)]`: the first occurrence of each value, in order. -/
def distinct {α : Type*} [DecidableEq α] (xs : List α) : List α :=
  xs.foldl (fun seen x => if x ∈ seen then seen else seen ++ [x]) []

theorem mem_distinct {α : Type*} [DecidableEq α] {xs : List α} {x : α} :
    x ∈ distinct xs ↔ x ∈ xs := by
  have hgen : ∀ (ys seen : List α), x ∈ ys.foldl (fun seen y => if y ∈ seen then seen
      else seen ++ [y]) seen ↔ x ∈ seen ∨ x ∈ ys := by
    intro ys
    induction ys with
    | nil => simp
    | cons y ys ih =>
        intro seen
        rw [List.foldl_cons, ih]
        by_cases hy : y ∈ seen
        · rw [if_pos hy, List.mem_cons]
          constructor
          · rintro (h | h)
            · exact Or.inl h
            · exact Or.inr (Or.inr h)
          · rintro (h | rfl | h)
            · exact Or.inl h
            · exact Or.inl hy
            · exact Or.inr h
        · rw [if_neg hy, List.mem_append, List.mem_singleton, List.mem_cons, or_assoc]
  exact (hgen xs []).trans (by simp)

end Runir
