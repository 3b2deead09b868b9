import Runir.Lib.Text
import Runir.Lib.Value

/-!
# Library — Host

What JavaScript leaves to the machine it runs on, and the date functions the language does fix.

* `Host`: the Unicode database, the collation `localeCompare` uses, the date forms
  `Date.parse` reads beyond its own, the rounding of `Math.sqrt`, the printing of numbers, and
  how the database prints the instant of a transaction.
* `toISOString` and `dateParse`: civil dates of the proleptic Gregorian calendar, in
  milliseconds since the epoch.
-/

namespace Runir

/-! ### Dates -/

namespace Date

/-- Days since the epoch of a civil date. -/
def daysFromCivil (y m d : Int) : Int :=
  let y := if m ≤ 2 then y - 1 else y
  let era := y / 400
  let yoe := y - era * 400
  let doy := (153 * (if m > 2 then m - 3 else m + 9) + 2) / 5 + d - 1
  let doe := yoe * 365 + yoe / 4 - yoe / 100 + doy
  era * 146097 + doe - 719468

/-- The civil date of a day since the epoch. -/
def civilFromDays (days : Int) : Int × Int × Int :=
  let z := days + 719468
  let era := z / 146097
  let doe := z - era * 146097
  let yoe := (doe - doe / 1460 + doe / 36524 - doe / 146096) / 365
  let doy := doe - (365 * yoe + yoe / 4 - yoe / 100)
  let mp := (5 * doy + 2) / 153
  let d := doy - (153 * mp + 2) / 5 + 1
  let m := if mp < 10 then mp + 3 else mp - 9
  (yoe + era * 400 + if m ≤ 2 then 1 else 0, m, d)

def yearString (y : Int) : String :=
  if 0 ≤ y ∧ y ≤ 9999 then Text.pad 4 y.toNat
  else (if y < 0 then "-" else "+") ++ Text.pad 6 y.natAbs

/-- `new Date(ms).toISOString()`. -/
def toISOString (ms : Int) : String :=
  let (y, m, d) := civilFromDays (ms / 86400000)
  let t := (ms % 86400000).toNat
  yearString y ++ "-" ++ Text.pad 2 m.toNat ++ "-" ++ Text.pad 2 d.toNat ++ "T" ++
    Text.pad 2 (t / 3600000) ++ ":" ++ Text.pad 2 (t / 60000 % 60) ++ ":" ++
    Text.pad 2 (t / 1000 % 60) ++ "." ++ Text.pad 3 (t % 1000) ++ "Z"

def digits? (cs : List Char) : Option Nat :=
  if cs.all Regex.isDigitChar then some (cs.foldl (fun n c => n * 10 + (c.toNat - 48)) 0)
  else none

def isLeap (y : Nat) : Bool := y % 4 == 0 && (y % 100 != 0 || y % 400 == 0)

def daysInMonth (y m : Nat) : Nat :=
  if m == 2 then (if isLeap y then 29 else 28)
  else if m == 4 || m == 6 || m == 9 || m == 11 then 30
  else 31

/-- The form `toISOString` writes, `YYYY-MM-DDTHH:mm:ss.sssZ`. -/
def parseISO (s : String) : Option Int :=
  match s.toList with
  | [y₁, y₂, y₃, y₄, '-', m₁, m₂, '-', d₁, d₂, 'T', h₁, h₂, ':', n₁, n₂, ':', s₁, s₂, '.',
      f₁, f₂, f₃, 'Z'] => do
    let y ← digits? [y₁, y₂, y₃, y₄]
    let m ← digits? [m₁, m₂]
    let d ← digits? [d₁, d₂]
    let h ← digits? [h₁, h₂]
    let n ← digits? [n₁, n₂]
    let sec ← digits? [s₁, s₂]
    let f ← digits? [f₁, f₂, f₃]
    if 1 ≤ m ∧ m ≤ 12 ∧ 1 ≤ d ∧ d ≤ daysInMonth y m ∧ h ≤ 23 ∧ n ≤ 59 ∧ sec ≤ 59 then
      some (daysFromCivil y m d * 86400000 + ((h * 60 + n) * 60 + sec : Nat) * 1000 + f)
    else none
  | _ => none

example : parseISO (toISOString 1709210096789) = some 1709210096789 := by decide

end Date

/-! ### The host -/

structure Host where
  unicode : Unicode
  localeCompare : String → String → Ordering
  parseDate : String → Option Int
  sqrt : ℚ → ℚ
  numberToString : ℚ → String
  datetimeString : Int → String := Date.toISOString

/-- A host that knows ASCII, exact square roots and whole numbers. -/
def Host.ascii : Host where
  unicode := .ascii
  localeCompare a b := compare a b
  parseDate _ := none
  sqrt q := (Nat.sqrt q.num.toNat : ℚ) / (Nat.sqrt q.den : ℚ)
  numberToString q := toString q.num

/-- `Date.parse(s)`, with `none` for `NaN`. -/
def Host.dateParse (host : Host) (s : String) : Option Int :=
  match Date.parseISO s with
  | some ms => some ms
  | none => host.parseDate s

/-! ### Printing values -/

mutual

/-- `String(v)`. -/
def Host.stringOf (host : Host) : Value → String
  | .null => "null"
  | .bool b => if b then "true" else "false"
  | .num q => host.numberToString q
  | .big n => toString n
  | .str s => s
  | .arr xs => Text.join "," (host.stringsOf xs)
  | .obj _ => "[object Object]"

/-- The elements of an array as `join` prints them: `null` prints as nothing. -/
def Host.stringsOf (host : Host) : Values → List String
  | .nil => []
  | .cons .null xs => "" :: host.stringsOf xs
  | .cons x xs => host.stringOf x :: host.stringsOf xs

end

end Runir
