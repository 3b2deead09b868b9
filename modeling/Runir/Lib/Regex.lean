import Mathlib.Data.List.Basic
import Mathlib.Data.List.TakeWhile

/-!
# Library — Regex

A backtracking matcher over characters, in the list-of-successes style: `Regex.run r p` lists
the places `r` can end at from `p`, in the order a backtracking engine tries them, so that its
head is the match such an engine reports.  A place carries the character before it (`\b`, `^`
and one-character lookbehinds read it) and the groups captured so far.
-/

namespace Runir

/-- Patterns.  `test` is a zero-width condition on the characters before and after the place;
`look` is a lookahead, negative when its flag is `true`. -/
inductive Regex where
  | empty
  | cls (p : Char → Bool)
  | seq (r s : Regex)
  | alt (r s : Regex)
  | star (r : Regex)
  | group (n : Nat) (r : Regex)
  | test (p : Option Char → Option Char → Bool)
  | look (negated : Bool) (r : Regex)

namespace Regex

/-- A place in a text. -/
structure Place where
  before : Option Char
  rest : List Char
  groups : List (Nat × List Char)

/-- The places reached by one or more rounds of `step` and by none, longest first.  A round that
consumes nothing is refused, so `fuel` bounds the rounds by the length of the text. -/
def rounds (step : Place → List Place) : Nat → Place → List Place
  | 0, p => [p]
  | fuel + 1, p =>
      ((step p).filter fun q => q.rest.length < p.rest.length).flatMap (rounds step fuel) ++ [p]

/-- The places `r` can end at from `p`, in backtracking order. -/
def run : Regex → Place → List Place
  | .empty, p => [p]
  | .cls c, p =>
      match p.rest with
      | [] => []
      | x :: xs => if c x then [⟨some x, xs, p.groups⟩] else []
  | .seq r s, p => (run r p).flatMap (run s)
  | .alt r s, p => run r p ++ run s p
  | .star r, p => rounds (run r) p.rest.length p
  | .group n r, p =>
      (run r p).map fun q =>
        ⟨q.before, q.rest, (n, p.rest.take (p.rest.length - q.rest.length)) :: q.groups⟩
  | .test c, p => if c p.before p.rest.head? then [p] else []
  | .look negated r, p => if (run r p).isEmpty == negated then [p] else []

/-- A match: what precedes it, its text, the groups and what follows it. -/
structure Match where
  skipped : List Char
  text : List Char
  groups : List (Nat × List Char)
  before : Option Char
  rest : List Char

/-- `m[n]`, absent when the group took no part in the match. -/
def Match.group? (m : Match) (n : Nat) : Option (List Char) := m.groups.lookup n

/-- The leftmost match in `rest`, whose preceding character is `before`. -/
def find (r : Regex) (before : Option Char) : List Char → Option Match
  | [] =>
      ((run r ⟨before, [], []⟩).head?).map fun q => ⟨[], [], q.groups, q.before, q.rest⟩
  | x :: xs =>
      match (run r ⟨before, x :: xs, []⟩).head? with
      | some q =>
          some ⟨[], (x :: xs).take ((x :: xs).length - q.rest.length), q.groups, q.before, q.rest⟩
      | none => (find r (some x) xs).map fun m => { m with skipped := x :: m.skipped }

/-- The successive matches from a place; after an empty match the search moves one character
on. -/
def allFrom (r : Regex) : Nat → Option Char → List Char → List Match
  | 0, _, _ => []
  | fuel + 1, before, rest =>
      match find r before rest with
      | none => []
      | some m =>
          match m.text, m.rest with
          | [], [] => [m]
          | [], x :: xs => m :: allFrom r fuel (some x) xs
          | _ :: _, _ => m :: allFrom r fuel m.before m.rest

/-- `re.exec(text)`. -/
def exec (r : Regex) (text : List Char) : Option Match := find r none text

/-- `re.test(text)`. -/
def matchIn (r : Regex) (text : List Char) : Bool := (exec r text).isSome

/-- Every match of a global pattern, left to right. -/
def all (r : Regex) (text : List Char) : List Match := allFrom r (text.length + 1) none text

/-- `text.replace(re, f)` for a global pattern. -/
def replaceFrom (r : Regex) (f : Match → List Char) : Nat → Option Char → List Char → List Char
  | 0, _, rest => rest
  | fuel + 1, before, rest =>
      match find r before rest with
      | none => rest
      | some m =>
          match m.text, m.rest with
          | [], [] => m.skipped ++ f m
          | [], x :: xs => m.skipped ++ f m ++ x :: replaceFrom r f fuel (some x) xs
          | _ :: _, _ => m.skipped ++ f m ++ replaceFrom r f fuel m.before m.rest

def replaceAll (r : Regex) (f : Match → List Char) (text : List Char) : List Char :=
  replaceFrom r f (text.length + 1) none text

/-- `text.replace(re, f)` for a global pattern and an `f` that keeps a state. -/
def replaceStepFrom {σ : Type} (r : Regex) (f : Match → σ → List Char × σ) :
    Nat → Option Char → List Char → σ → List Char × σ
  | 0, _, rest, s => (rest, s)
  | fuel + 1, before, rest, s =>
      match find r before rest with
      | none => (rest, s)
      | some m =>
          let (new, s) := f m s
          match m.text, m.rest with
          | [], [] => (m.skipped ++ new, s)
          | [], x :: xs =>
              let (tail, s) := replaceStepFrom r f fuel (some x) xs s
              (m.skipped ++ new ++ x :: tail, s)
          | _ :: _, _ =>
              let (tail, s) := replaceStepFrom r f fuel m.before m.rest s
              (m.skipped ++ new ++ tail, s)

def replaceStep {σ : Type} (r : Regex) (f : Match → σ → List Char × σ) (text : List Char) (s : σ) :
    List Char × σ :=
  replaceStepFrom r f (text.length + 1) none text s

/-- `text.split(re)` for a pattern with no empty match and no group. -/
def splitFrom (r : Regex) : Nat → Option Char → List Char → List (List Char)
  | 0, _, rest => [rest]
  | fuel + 1, before, rest =>
      match find r before rest with
      | none => [rest]
      | some m =>
          match m.text with
          | [] => [rest]
          | _ :: _ => m.skipped :: splitFrom r fuel m.before m.rest

def split (r : Regex) (text : List Char) : List (List Char) :=
  splitFrom r (text.length + 1) none text

/-! ### Derived patterns -/

def seqs : List Regex → Regex
  | [] => .empty
  | [r] => r
  | r :: rs => .seq r (seqs rs)

/-- `r₁|r₂|…`. -/
def alts : List Regex → Regex
  | [] => .cls fun _ => false
  | [r] => r
  | r :: rs => .alt r (alts rs)

/-- `r?`. -/
def opt (r : Regex) : Regex := .alt r .empty

/-- `r+`. -/
def plus (r : Regex) : Regex := .seq r (.star r)

/-- `r{n}`. -/
def exactly (n : Nat) (r : Regex) : Regex := seqs (List.replicate n r)

/-- `r{0,n}`. -/
def upTo : Nat → Regex → Regex
  | 0, _ => .empty
  | n + 1, r => opt (.seq r (upTo n r))

/-- `r{m,n}`. -/
def between (m n : Nat) (r : Regex) : Regex := .seq (exactly m r) (upTo (n - m) r)

/-- `r{m,}`. -/
def atLeast (m : Nat) (r : Regex) : Regex := .seq (exactly m r) (.star r)

def chr (c : Char) : Regex := .cls (· == c)

/-- The characters of `s`, one after another. -/
def lit (s : String) : Regex := seqs (s.toList.map chr)

/-- `[s]`. -/
def oneOf (s : String) : Regex := .cls fun c => s.toList.contains c

/-- ASCII letters in either case, for patterns with the `i` flag. -/
def foldCase (c : Char) : Char := if 'A' ≤ c ∧ c ≤ 'Z' then Char.ofNat (c.toNat + 32) else c

/-- `lit s` under the `i` flag, for an `s` in lower case. -/
def liti (s : String) : Regex := seqs (s.toList.map fun x => .cls fun c => foldCase c == x)

def isDigitChar (c : Char) : Bool := decide ('0' ≤ c) && decide (c ≤ '9')
def isLowerChar (c : Char) : Bool := decide ('a' ≤ c) && decide (c ≤ 'z')
def isUpperChar (c : Char) : Bool := decide ('A' ≤ c) && decide (c ≤ 'Z')
def isAlphaChar (c : Char) : Bool := isLowerChar c || isUpperChar c

/-- `\w`. -/
def isWordChar (c : Char) : Bool := isAlphaChar c || isDigitChar c || c == '_'

/-- `\d`. -/
def digit : Regex := .cls isDigitChar

/-- `\w`. -/
def word : Regex := .cls isWordChar

/-- `\b`. -/
def bound : Regex :=
  .test fun before after => before.any isWordChar != after.any isWordChar

end Regex

end Runir
