import Runir.Lib.Anchored
import Runir.Lib.Calendar
import Runir.Lib.Decimal
import Runir.Lib.Words

/-!
# Domain — Minni timestamps

`parseMinniTimestamp` and `compareMinniTimestamps` of `src/domain/memory/minni-summary-contract.ts`.

* `Timestamp`: a text of the accepted form whose numbers denote a date, a time and an offset.
* `Timestamp.instant`: the seconds from 1970-01-01T00:00:00Z to it, counted day by day, with the
  fraction.
* `isSome_parseMinniTimestamp_iff`, `parseMinniTimestamp_text`: what is accepted, and what it is
  read as.
* `compareMinniTimestamps_text`: the comparison is that of the instants.
-/

namespace Runir.Minni
open Regex Decimal Date

/-! ### The source -/

def maxReferenceUtf8Bytes : Nat := 256

/-- `boundedString(value, maxBytes, true)`. -/
def boundedString (value : String) (maxBytes : Nat) : Bool :=
  decide (value.utf8ByteSize ≤ maxBytes) && (Text.truthy value && Text.trim value == value)

/-- What stands between `^` and `$` in `MINNI_TIMESTAMP_PATTERN`. -/
def timestampPattern : Regex :=
  seqs [.group 1 (exactly 4 digit), chr '-', .group 2 (exactly 2 digit), chr '-',
    .group 3 (exactly 2 digit), chr 'T', .group 4 (exactly 2 digit), chr ':',
    .group 5 (exactly 2 digit), chr ':', .group 6 (exactly 2 digit),
    opt (.seq (chr '.') (.group 7 (plus digit))),
    .group 8 (.alt (chr 'Z')
      (seqs [oneOf "+-", exactly 2 digit, chr ':', exactly 2 digit]))]

def daysFromCivil (year month day : ℤ) : ℤ :=
  let adjustedYear := year - if month ≤ 2 then 1 else 0
  let era := adjustedYear / 400
  let yearOfEra := adjustedYear - era * 400
  let monthPrime := month + if month > 2 then -3 else 9
  let dayOfYear := (153 * monthPrime + 2) / 5 + day - 1
  let dayOfEra := yearOfEra * 365 + yearOfEra / 4 - yearOfEra / 100 + dayOfYear
  era * 146097 + dayOfEra - 719468

def daysInMonth (year month : Nat) : Nat :=
  if month = 2 then
    if year % 4 = 0 ∧ (year % 100 ≠ 0 ∨ year % 400 = 0) then 29 else 28
  else if [4, 6, 9, 11].contains month then 30 else 31

structure ParsedMinniTimestamp where
  epochSeconds : ℤ
  fraction : List Char
  deriving DecidableEq

/-- `Number(match[n])`. -/
def groupNumber (m : Match) (n : Nat) : Nat := value ((m.group? n).getD [])

/-- The offset of a zone, in seconds; absent where it is out of range. -/
def offsetSeconds (zone : List Char) : Option ℤ :=
  if zone = ['Z'] then some 0
  else
    let offsetHours := value ((zone.take 3).drop 1)
    let offsetMinutes := value ((zone.take 6).drop 4)
    if offsetHours > 23 ∨ offsetMinutes > 59 then none
    else
      let sign : ℤ := if zone.head? = some '-' then -1 else 1
      some (sign * (offsetHours * 60 + offsetMinutes) * 60)

def parseMinniTimestamp (text : String) : Option ParsedMinniTimestamp :=
  if !boundedString text maxReferenceUtf8Bytes then none
  else
    (exec (anchored timestampPattern) text.toList).bind fun m =>
      let year := groupNumber m 1
      let month := groupNumber m 2
      let day := groupNumber m 3
      let hour := groupNumber m 4
      let minute := groupNumber m 5
      let second := groupNumber m 6
      if month < 1 ∨ month > 12 ∨ day < 1 ∨ day > daysInMonth year month ∨ hour > 23 ∨
          minute > 59 ∨ second > 59 then none
      else
        (offsetSeconds ((m.group? 8).getD [])).map fun offset =>
          { epochSeconds := daysFromCivil year month day * 86400 +
              ((hour * 3600 + minute * 60 + second : Nat) - offset)
            fraction := dropZeros ((m.group? 7).getD []) }

/-- `-1`, `0` or `1`; absent where one of the texts is not accepted. -/
def compareMinniTimestamps (left right : String) : Option ℤ := do
  let parsedLeft ← parseMinniTimestamp left
  let parsedRight ← parseMinniTimestamp right
  if parsedLeft.epochSeconds ≠ parsedRight.epochSeconds then
    return if parsedLeft.epochSeconds < parsedRight.epochSeconds then -1 else 1
  else
    let scale := max parsedLeft.fraction.length parsedRight.fraction.length
    let leftFraction := value (padZeros scale parsedLeft.fraction)
    let rightFraction := value (padZeros scale parsedRight.fraction)
    if leftFraction = rightFraction then return 0
    else return if leftFraction < rightFraction then -1 else 1

/-! ### Texts of the form -/

/-- `Z`, or a sign with hours and minutes. -/
inductive Zone where
  | utc
  | offset (negative : Bool) (hours minutes : Numeral 2)

def Zone.chars : Zone → List Char
  | .utc => ['Z']
  | .offset negative hours minutes =>
      (if negative then '-' else '+') :: (hours.digits ++ ':' :: minutes.digits)

/-- `.digits`, where there are any. -/
structure Fraction where
  digits : List Char
  ne_nil : digits ≠ []
  digit : ∀ c ∈ digits, isDigitChar c = true

/-- A text of the form `YYYY-MM-DDThh:mm:ss[.digits](Z|±hh:mm)`. -/
structure Written where
  year : Numeral 4
  month : Numeral 2
  day : Numeral 2
  hour : Numeral 2
  minute : Numeral 2
  second : Numeral 2
  fraction : Option Fraction
  zone : Zone

namespace Written

def fractionDigits (w : Written) : List Char := (w.fraction.map Fraction.digits).getD []

def tail (w : Written) : List Char :=
  ((w.fraction.map fun f => '.' :: f.digits).getD []) ++ w.zone.chars

def chars (w : Written) : List Char :=
  w.year.digits ++ '-' :: (w.month.digits ++ '-' :: (w.day.digits ++ 'T' ::
    (w.hour.digits ++ ':' :: (w.minute.digits ++ ':' :: (w.second.digits ++ w.tail)))))

def text (w : Written) : String := String.ofList w.chars

end Written

/-! ### What the pattern reads -/

/-- No zone begins with a digit or a point. -/
theorem Zone.head_chars (zone : Zone) :
    ∀ x, zone.chars.head? = some x → isDigitChar x = false ∧ (x == '.') = false := by
  intro x hx
  cases zone with
  | utc =>
      cases hx
      decide
  | offset negative hours minutes =>
      cases negative with
      | false => cases hx; decide
      | true => cases hx; decide

theorem head_zone (zone : Zone) (b : Option Char) (g : List (Nat × List Char)) :
    ∃ b', Head (.group 8 (.alt (chr 'Z')
        (seqs [oneOf "+-", exactly 2 digit, chr ':', exactly 2 digit])))
      ⟨b, zone.chars, g⟩ ⟨b', [], (8, zone.chars) :: g⟩ := by
  have hgroup : ∀ {b' : Option Char}, Head (.alt (chr 'Z')
      (seqs [oneOf "+-", exactly 2 digit, chr ':', exactly 2 digit]))
      ⟨b, zone.chars, g⟩ ⟨b', [], g⟩ → Head (.group 8 (.alt (chr 'Z')
        (seqs [oneOf "+-", exactly 2 digit, chr ':', exactly 2 digit])))
      ⟨b, zone.chars, g⟩ ⟨b', [], (8, zone.chars) :: g⟩ := by
    intro b' h
    have hwhole := h.group (n := 8)
    simp only [List.length_nil, Nat.sub_zero, List.take_length] at hwhole
    exact hwhole
  cases zone with
  | utc => exact ⟨_, hgroup (Head.alt_left (head_cls rfl))⟩
  | offset negative hours minutes =>
      have hsign : Head (oneOf "+-")
          ⟨b, Zone.chars (.offset negative hours minutes), g⟩
          ⟨some (if negative then '-' else '+'), hours.digits ++ ':' :: minutes.digits, g⟩ := by
        cases negative with
        | false => exact head_cls rfl
        | true => exact head_cls rfl
      have hminutes : Head (exactly 2 digit) ⟨some ':', minutes.digits, g⟩
          ⟨lastOf (some ':') minutes.digits, [], g⟩ := by
        have h := head_exactly_cls (v := []) minutes.length_eq minutes.digit (some ':') g
        rwa [List.append_nil] at h
      refine ⟨_, hgroup (Head.alt_right (run_cls_of_not fun x hx => ?_)
        (hsign.seq ((head_exactly_cls hours.length_eq hours.digit _ g).seq
          ((head_cls rfl).seq hminutes))))⟩
      cases negative with
      | false => cases hx; rfl
      | true => cases hx; rfl

theorem head_fraction (w : Written) (b : Option Char) (g : List (Nat × List Char)) :
    ∃ b', Head (opt (.seq (chr '.') (.group 7 (plus digit)))) ⟨b, w.tail, g⟩
      ⟨b', w.zone.chars, ((w.fraction.map fun f => (7, f.digits)).toList) ++ g⟩ := by
  rw [Written.tail]
  cases w.fraction with
  | none =>
      refine ⟨b, Head.alt_right (run_seq_of_nil (run_cls_of_not fun x hx => ?_)) rfl⟩
      exact (w.zone.head_chars x hx).2
  | some f =>
      obtain ⟨x, u, hdigits⟩ := List.exists_cons_of_ne_nil f.ne_nil
      have hall := f.digit
      rw [hdigits] at hall
      obtain ⟨hx, hu⟩ := List.forall_mem_cons.mp hall
      have hpoint : Head (chr '.') ⟨b, '.' :: (x :: u ++ w.zone.chars), g⟩
          ⟨some '.', x :: u ++ w.zone.chars, g⟩ := head_cls rfl
      have hgroup := head_group_plus_cls 7 hx hu (fun y hy => (w.zone.head_chars y hy).1)
        (some '.') g
      refine ⟨lastOf (some '.') (x :: u), ?_⟩
      simp only [Option.map_some, Option.getD_some, Option.toList_some, hdigits]
      exact Head.alt_left (hpoint.seq hgroup)

/-- **The pattern reads the parts of a text of the form.** -/
theorem exec_chars (w : Written) :
    ∃ m, exec (anchored timestampPattern) w.chars = some m ∧
      m.groups = (8, w.zone.chars) :: (((w.fraction.map fun f => (7, f.digits)).toList) ++
        [(6, w.second.digits), (5, w.minute.digits), (4, w.hour.digits), (3, w.day.digits),
          (2, w.month.digits), (1, w.year.digits)]) := by
  have hnumber : ∀ {n : Nat} (k : Nat) (d : Numeral n) (b : Option Char) (rest : List Char)
      (g : List (Nat × List Char)), Head (.group k (exactly n digit)) ⟨b, d.digits ++ rest, g⟩
        ⟨lastOf b d.digits, rest, (k, d.digits) :: g⟩ :=
    fun k d b rest g => head_group_exactly_cls k d.length_eq d.digit b g
  have hsep : ∀ (c : Char) (b : Option Char) (rest : List Char) (g : List (Nat × List Char)),
      Head (chr c) ⟨b, c :: rest, g⟩ ⟨some c, rest, g⟩ :=
    fun c b rest g => head_cls (beq_self_eq_true c)
  obtain ⟨b, hfraction⟩ := head_fraction w (lastOf (some ':') w.second.digits)
    [(6, w.second.digits), (5, w.minute.digits), (4, w.hour.digits), (3, w.day.digits),
      (2, w.month.digits), (1, w.year.digits)]
  obtain ⟨b', hzone⟩ := head_zone w.zone b (((w.fraction.map fun f => (7, f.digits)).toList) ++
    [(6, w.second.digits), (5, w.minute.digits), (4, w.hour.digits), (3, w.day.digits),
      (2, w.month.digits), (1, w.year.digits)])
  refine exec_anchored_of_head (b := b') ?_
  exact (hnumber 1 w.year _ _ _).seq ((hsep '-' _ _ _).seq ((hnumber 2 w.month _ _ _).seq
    ((hsep '-' _ _ _).seq ((hnumber 3 w.day _ _ _).seq ((hsep 'T' _ _ _).seq
    ((hnumber 4 w.hour _ _ _).seq ((hsep ':' _ _ _).seq ((hnumber 5 w.minute _ _ _).seq
    ((hsep ':' _ _ _).seq ((hnumber 6 w.second _ _ _).seq (hfraction.seq hzone)))))))))))

variable {u : List Char}

theorem consumes_chr_iff {c : Char} : Consumes (chr c) u ↔ u = [c] := by
  simp [chr, Consumes]

theorem consumes_number_iff {n : Nat} :
    Consumes (exactly n digit) u ↔ ∃ d : Numeral n, d.digits = u := by
  refine consumes_exactly_cls_iff.trans ⟨fun ⟨hlength, hdigit⟩ => ⟨⟨u, hlength, hdigit⟩, rfl⟩, ?_⟩
  rintro ⟨d, rfl⟩
  exact ⟨d.length_eq, d.digit⟩

theorem exists_zone (h : Consumes (.alt (chr 'Z')
    (seqs [oneOf "+-", exactly 2 digit, chr ':', exactly 2 digit])) u) :
    ∃ zone : Zone, zone.chars = u := by
  rcases h with h | ⟨_, _, rfl, ⟨c, rfl, hc⟩, _, _, rfl, hhours, _, _, rfl, hcolon, hminutes⟩
  · rw [consumes_chr_iff] at h
    exact ⟨.utc, h.symm⟩
  · obtain ⟨hours, rfl⟩ := consumes_number_iff.mp hhours
    obtain ⟨minutes, rfl⟩ := consumes_number_iff.mp hminutes
    rw [consumes_chr_iff] at hcolon
    subst hcolon
    have hsign : c = '+' ∨ c = '-' := by simpa using hc
    rcases hsign with rfl | rfl
    · exact ⟨.offset false hours minutes, rfl⟩
    · exact ⟨.offset true hours minutes, rfl⟩

theorem exists_fraction (h : Consumes (opt (.seq (chr '.') (.group 7 (plus digit)))) u) :
    ∃ fraction : Option Fraction, ((fraction.map fun f => '.' :: f.digits).getD []) = u := by
  rcases h with ⟨_, _, rfl, hpoint, hdigits⟩ | rfl
  · rw [consumes_chr_iff] at hpoint
    subst hpoint
    obtain ⟨hne, hdigit⟩ := consumes_plus_cls_iff.mp hdigits
    exact ⟨some ⟨_, hne, hdigit⟩, rfl⟩
  · exact ⟨none, rfl⟩

/-- **The pattern reads nothing else.** -/
theorem exists_written (h : Consumes timestampPattern u) :
    ∃ w : Written, w.chars = u := by
  obtain ⟨_, _, rfl, hyear, _, _, rfl, h₁, _, _, rfl, hmonth, _, _, rfl, h₂, _, _, rfl, hday,
    _, _, rfl, h₃, _, _, rfl, hhour, _, _, rfl, h₄, _, _, rfl, hminute, _, _, rfl, h₅,
    _, _, rfl, hsecond, _, _, rfl, hfraction, hzone⟩ := h
  obtain ⟨year, rfl⟩ := consumes_number_iff.mp hyear
  obtain ⟨month, rfl⟩ := consumes_number_iff.mp hmonth
  obtain ⟨day, rfl⟩ := consumes_number_iff.mp hday
  obtain ⟨hour, rfl⟩ := consumes_number_iff.mp hhour
  obtain ⟨minute, rfl⟩ := consumes_number_iff.mp hminute
  obtain ⟨second, rfl⟩ := consumes_number_iff.mp hsecond
  rw [consumes_chr_iff] at h₁ h₂ h₃ h₄ h₅
  subst h₁ h₂ h₃ h₄ h₅
  obtain ⟨fraction, rfl⟩ := exists_fraction hfraction
  obtain ⟨zone, rfl⟩ := exists_zone hzone
  exact ⟨⟨year, month, day, hour, minute, second, fraction, zone⟩, rfl⟩

/-! ### Timestamps -/

/-- `+hh:mm` and `-hh:mm`, in seconds. -/
def Zone.seconds : Zone → ℤ
  | .utc => 0
  | .offset negative hours minutes =>
      (if negative then -1 else 1) * (hours.toNat * 3600 + minutes.toNat * 60)

/-- An offset up to 23:59. -/
def Zone.InRange : Zone → Prop
  | .utc => True
  | .offset _ hours minutes => hours.toNat ≤ 23 ∧ minutes.toNat ≤ 59

/-- The numbers denote a date of the calendar, a time up to 23:59:59 and an offset up to 23:59, and
the text is short enough to be read. -/
structure Timestamp extends Written where
  month_valid : 1 ≤ month.toNat ∧ month.toNat ≤ 12
  day_valid : 1 ≤ day.toNat ∧ day.toNat ≤ Date.daysInMonth year.toNat month.toNat
  hour_valid : hour.toNat ≤ 23
  minute_valid : minute.toNat ≤ 59
  second_valid : second.toNat ≤ 59
  zone_valid : zone.InRange
  bounded : toWritten.text.utf8ByteSize ≤ maxReferenceUtf8Bytes

namespace Timestamp

/-- The whole seconds from 1970-01-01T00:00:00Z to the second the timestamp names. -/
def secondsSinceEpoch (t : Timestamp) : ℤ :=
  ((dayNumber t.year.toNat t.month.toNat t.day.toNat : ℤ) - dayNumber 1970 1 1) * 86400 +
    (t.hour.toNat * 3600 + t.minute.toNat * 60 + t.second.toNat) - t.zone.seconds

/-- The instant, in seconds from 1970-01-01T00:00:00Z. -/
def instant (t : Timestamp) : ℚ := t.secondsSinceEpoch + Decimal.fraction t.fractionDigits

end Timestamp

theorem daysFromCivil_eq_date (year month day : ℤ) :
    daysFromCivil year month day = Date.daysFromCivil year month day := by
  unfold daysFromCivil Date.daysFromCivil
  by_cases hearly : month ≤ 2
  · have hmonth : ¬month > 2 := not_lt.mpr hearly
    simp only [if_pos hearly, if_neg hmonth]
  · have hmonth : month > 2 := not_le.mp hearly
    simp only [if_neg hearly, if_pos hmonth, Int.sub_zero, ← sub_eq_add_neg]

theorem daysInMonth_eq_date (year month : Nat) :
    daysInMonth year month = Date.daysInMonth year month := by
  unfold daysInMonth Date.daysInMonth
  by_cases hfebruary : month = 2
  · simp only [hfebruary, beq_self_eq_true, if_true]
    exact if_congr isLeap_iff.symm rfl rfl
  · simp [hfebruary, or_assoc]

/-- The zone is read as its offset, and refused where that is out of range. -/
theorem offsetSeconds_chars (zone : Zone) :
    (zone.InRange → offsetSeconds zone.chars = some zone.seconds) ∧
      (¬zone.InRange → offsetSeconds zone.chars = none) := by
  cases zone with
  | utc => exact ⟨fun _ => rfl, fun h => absurd trivial h⟩
  | offset negative hours minutes =>
      obtain ⟨h₁, h₂, hhours⟩ := List.length_eq_two.mp hours.length_eq
      obtain ⟨m₁, m₂, hminutes⟩ := List.length_eq_two.mp minutes.length_eq
      have hne : Zone.chars (.offset negative hours minutes) ≠ ['Z'] := by
        rw [Zone.chars, hhours]
        simp
      have htake : value (((Zone.chars (.offset negative hours minutes)).take 3).drop 1) =
          hours.toNat := by
        rw [Zone.chars, Numeral.toNat, hhours]
        rfl
      have hdrop : value (((Zone.chars (.offset negative hours minutes)).take 6).drop 4) =
          minutes.toNat := by
        rw [Zone.chars, Numeral.toNat, hhours, hminutes]
        rfl
      have hsign : (if (Zone.chars (.offset negative hours minutes)).head? = some '-' then (-1 : ℤ)
          else 1) = if negative then -1 else 1 := by
        cases negative with
        | false => rfl
        | true => rfl
      simp only [offsetSeconds, if_neg hne, htake, hdrop, hsign, Zone.InRange, Zone.seconds]
      constructor
      · rintro ⟨hh, hm⟩
        rw [if_neg (by omega)]
        congr 1
        ring
      · intro hrange
        rw [if_pos (by omega)]

/-! ### What is accepted -/

theorem isSpace_of_digit {c : Char} (h : isDigitChar c = true) : Text.isSpace c = false := by
  simp only [isDigitChar, Bool.and_eq_true, decide_eq_true_eq] at h
  have h₁ : 48 ≤ c.toNat := h.1
  have h₂ : c.toNat ≤ 57 := h.2
  simp only [Text.isSpace, Bool.or_eq_false_iff, decide_eq_false_iff_not, beq_eq_false_iff_ne]
  omega

theorem Zone.getLast_chars (zone : Zone) : ∃ c ∈ zone.chars.getLast?, Text.isSpace c = false := by
  cases zone with
  | utc => exact ⟨'Z', rfl, by decide⟩
  | offset negative hours minutes =>
      obtain ⟨m₁, m₂, hminutes⟩ := List.length_eq_two.mp minutes.length_eq
      refine ⟨m₂, ?_, isSpace_of_digit (minutes.digit m₂ (by simp [hminutes]))⟩
      rw [Option.mem_def, Zone.chars, hminutes, List.getLast?_cons]
      simp

/-- A text of the form has no space around it. -/
theorem trim_text (w : Written) : Text.trim w.text = w.text := by
  have htrim : Text.trimChars w.chars = w.chars := by
    rw [Text.trimChars_eq]
    refine Text.trimWith_of_ends (fun c hc => ?_) fun c hc => ?_
    · obtain ⟨y, ys, hyear⟩ : ∃ y ys, w.year.digits = y :: ys := by
        refine List.exists_cons_of_length_pos ?_
        rw [w.year.length_eq]
        decide
      rw [Written.chars, hyear] at hc
      cases hc
      exact isSpace_of_digit (w.year.digit c (by simp [hyear]))
    · obtain ⟨d, hd, hspace⟩ := w.zone.getLast_chars
      have hlast : w.chars.getLast? = some d := by
        simp only [Written.chars, Written.tail, List.getLast?_append, List.getLast?_cons,
          Option.mem_def.mp hd, Option.some_or, Option.getD_some]
      rw [hlast] at hc
      cases hc
      exact hspace
  rw [Text.trim, Written.text, String.toList_ofList, htrim]

theorem boundedString_text (w : Written) :
    boundedString w.text maxReferenceUtf8Bytes =
      decide (w.text.utf8ByteSize ≤ maxReferenceUtf8Bytes) := by
  have htruthy : Text.truthy w.text = true := by
    have hne : w.text ≠ "" := by
      intro h
      have hlist := congrArg String.toList h
      rw [Written.text, String.toList_ofList] at hlist
      obtain ⟨y, ys, hyear⟩ : ∃ y ys, w.year.digits = y :: ys := by
        refine List.exists_cons_of_length_pos ?_
        rw [w.year.length_eq]
        decide
      rw [Written.chars, hyear] at hlist
      cases hlist
    simpa [Text.truthy] using hne
  rw [boundedString, htruthy, trim_text, beq_self_eq_true, Bool.and_true, Bool.and_true]

/-- What is made of a text of the form that is short enough. -/
theorem parseMinniTimestamp_text {w : Written}
    (hbounded : w.text.utf8ByteSize ≤ maxReferenceUtf8Bytes) :
    parseMinniTimestamp w.text =
      if w.month.toNat < 1 ∨ w.month.toNat > 12 ∨ w.day.toNat < 1 ∨
          w.day.toNat > daysInMonth w.year.toNat w.month.toNat ∨ w.hour.toNat > 23 ∨
          w.minute.toNat > 59 ∨ w.second.toNat > 59 then none
      else
        (offsetSeconds w.zone.chars).map fun offset =>
          { epochSeconds := daysFromCivil w.year.toNat w.month.toNat w.day.toNat * 86400 +
              ((w.hour.toNat * 3600 + w.minute.toNat * 60 + w.second.toNat : Nat) - offset)
            fraction := dropZeros w.fractionDigits } := by
  obtain ⟨m, hexec, hgroups⟩ := exec_chars w
  have h₁ : groupNumber m 1 = w.year.toNat := by
    rw [groupNumber, Match.group?, hgroups]; cases w.fraction <;> rfl
  have h₂ : groupNumber m 2 = w.month.toNat := by
    rw [groupNumber, Match.group?, hgroups]; cases w.fraction <;> rfl
  have h₃ : groupNumber m 3 = w.day.toNat := by
    rw [groupNumber, Match.group?, hgroups]; cases w.fraction <;> rfl
  have h₄ : groupNumber m 4 = w.hour.toNat := by
    rw [groupNumber, Match.group?, hgroups]; cases w.fraction <;> rfl
  have h₅ : groupNumber m 5 = w.minute.toNat := by
    rw [groupNumber, Match.group?, hgroups]; cases w.fraction <;> rfl
  have h₆ : groupNumber m 6 = w.second.toNat := by
    rw [groupNumber, Match.group?, hgroups]; cases w.fraction <;> rfl
  have h₇ : (m.group? 7).getD [] = w.fractionDigits := by
    rw [Match.group?, hgroups, Written.fractionDigits]; cases w.fraction <;> rfl
  have h₈ : (m.group? 8).getD [] = w.zone.chars := by
    rw [Match.group?, hgroups]; rfl
  have hchars : w.text.toList = w.chars := String.toList_ofList
  simp only [parseMinniTimestamp, boundedString_text, decide_eq_true hbounded, Bool.not_true,
    Bool.false_eq_true, if_false, hchars, hexec, Option.bind_some, h₁, h₂, h₃, h₄, h₅, h₆, h₇, h₈]

/-- **A timestamp is read as the instant it denotes.** -/
theorem parseMinniTimestamp_timestamp (t : Timestamp) :
    parseMinniTimestamp t.text =
      some ⟨t.secondsSinceEpoch, dropZeros t.fractionDigits⟩ := by
  have hdays := daysInMonth_eq_date t.year.toNat t.month.toNat
  have hmonth := t.month_valid
  have hday := t.day_valid
  have hhour := t.hour_valid
  have hminute := t.minute_valid
  have hsecond := t.second_valid
  have hseconds : daysFromCivil t.year.toNat t.month.toNat t.day.toNat * 86400 +
      ((t.hour.toNat * 3600 + t.minute.toNat * 60 + t.second.toNat : Nat) - t.zone.seconds) =
      t.secondsSinceEpoch := by
    rw [daysFromCivil_eq_date, daysFromCivil_eq hmonth.1 hmonth.2 hday.1, ← add_sub_assoc,
      Timestamp.secondsSinceEpoch, Nat.cast_add, Nat.cast_add, Nat.cast_mul, Nat.cast_mul]
    rfl
  rw [parseMinniTimestamp_text t.bounded, if_neg (by rw [hdays]; omega),
    (offsetSeconds_chars t.zone).1 t.zone_valid, Option.map_some, hseconds]

/-- **What is accepted is a timestamp.** -/
theorem exists_timestamp {text : String} (h : (parseMinniTimestamp text).isSome = true) :
    ∃ t : Timestamp, t.text = text := by
  obtain ⟨p, hp⟩ := Option.isSome_iff_exists.mp h
  have hparse := hp
  rw [parseMinniTimestamp] at hparse
  split at hparse
  · cases hparse
  next hbound =>
    obtain ⟨m, hexec, -⟩ := Option.bind_eq_some_iff.mp hparse
    obtain ⟨w, hw⟩ := exists_written (consumes_of_exec_anchored hexec)
    have htext : w.text = text := by rw [Written.text, hw, String.ofList_toList]
    subst htext
    have hbounded : w.text.utf8ByteSize ≤ maxReferenceUtf8Bytes := by
      rw [boundedString_text] at hbound
      simpa using hbound
    rw [parseMinniTimestamp_text hbounded] at hp
    split at hp
    · cases hp
    next hvalid =>
      obtain ⟨offset, hoffset, -⟩ := Option.map_eq_some_iff.mp hp
      have hzone : w.zone.InRange := by
        by_contra hnot
        rw [(offsetSeconds_chars w.zone).2 hnot] at hoffset
        cases hoffset
      rw [daysInMonth_eq_date] at hvalid
      refine ⟨⟨w, ?_, ?_, ?_, ?_, ?_, hzone, hbounded⟩, rfl⟩
      all_goals omega

theorem isSome_parseMinniTimestamp_iff (text : String) :
    (parseMinniTimestamp text).isSome = true ↔ ∃ t : Timestamp, t.text = text := by
  refine ⟨exists_timestamp, ?_⟩
  rintro ⟨t, rfl⟩
  rw [parseMinniTimestamp_timestamp]
  rfl

/-! ### The order -/

theorem Timestamp.fraction_lt_one (t : Timestamp) : Decimal.fraction t.fractionDigits < 1 := by
  refine Decimal.fraction_lt_one fun c hc => ?_
  rw [Written.fractionDigits] at hc
  cases hfraction : t.fraction with
  | none => simp [hfraction] at hc
  | some f =>
      rw [hfraction] at hc
      exact f.digit c hc

/-- A later second is a later instant, whatever the fractions. -/
theorem Timestamp.instant_lt_of_seconds_lt {t u : Timestamp}
    (h : t.secondsSinceEpoch < u.secondsSinceEpoch) : t.instant < u.instant := by
  have hsucc : (t.secondsSinceEpoch : ℚ) + 1 ≤ u.secondsSinceEpoch := by exact_mod_cast h
  have hlt := t.fraction_lt_one
  have hnonneg := Decimal.fraction_nonneg u.fractionDigits
  rw [instant, instant]
  linarith only [hsucc, hlt, hnonneg]

/-- `-1`, `0` or `1`, as the order of two numbers. -/
def orderOf (l r : ℚ) : ℤ := if l < r then -1 else if l = r then 0 else 1

/-- **The comparison is that of the instants.** -/
theorem compareMinniTimestamps_timestamp (t u : Timestamp) :
    compareMinniTimestamps t.text u.text = some (orderOf t.instant u.instant) := by
  simp only [compareMinniTimestamps, parseMinniTimestamp_timestamp, Option.bind_eq_bind,
    Option.bind_some]
  rcases lt_trichotomy t.secondsSinceEpoch u.secondsSinceEpoch with hlt | heq | hlt
  · have hinstant := Timestamp.instant_lt_of_seconds_lt hlt
    rw [if_pos hlt.ne, if_pos hlt, orderOf, if_pos hinstant]
    rfl
  · have hl : (dropZeros t.fractionDigits).length ≤
        max (dropZeros t.fractionDigits).length (dropZeros u.fractionDigits).length :=
      le_max_left _ _
    have hr : (dropZeros u.fractionDigits).length ≤
        max (dropZeros t.fractionDigits).length (dropZeros u.fractionDigits).length :=
      le_max_right _ _
    have hlt := value_padZeros_lt_iff hl hr
    have hinj := value_padZeros_inj hl hr
    rw [fraction_dropZeros, fraction_dropZeros] at hlt hinj
    have hlt' : t.instant < u.instant ↔
        Decimal.fraction t.fractionDigits < Decimal.fraction u.fractionDigits := by
      rw [Timestamp.instant, Timestamp.instant, heq]
      exact add_lt_add_iff_left _
    have heq' : t.instant = u.instant ↔
        Decimal.fraction t.fractionDigits = Decimal.fraction u.fractionDigits := by
      rw [Timestamp.instant, Timestamp.instant, heq]
      exact add_right_inj _
    rw [if_neg (not_not_intro heq), orderOf]
    simp only [hinj, hlt, hlt', heq']
    rcases lt_trichotomy (Decimal.fraction t.fractionDigits) (Decimal.fraction u.fractionDigits)
      with h | h | h
    · rw [if_neg h.ne, if_pos h, if_pos h]
      rfl
    · rw [if_pos h, if_neg h.not_lt, if_pos h]
      rfl
    · rw [if_neg h.ne', if_neg h.not_gt, if_neg h.not_gt, if_neg h.ne']
      rfl
  · have hinstant := Timestamp.instant_lt_of_seconds_lt hlt
    rw [if_pos hlt.ne', if_neg hlt.not_gt, orderOf, if_neg hinstant.not_gt, if_neg hinstant.ne']
    rfl

example : compareMinniTimestamps "2024-02-29T12:00:00.1200+02:00" "2024-02-29T10:00:00.12Z" =
    some 0 := by decide +kernel

/-- The left timestamp is not after the right one, as the comparison has it. -/
def NotAfter (left right : String) : Prop :=
  ∃ c, compareMinniTimestamps left right = some c ∧ c ≤ 0

theorem notAfter_iff (t u : Timestamp) : NotAfter t.text u.text ↔ t.instant ≤ u.instant := by
  have hcompare := compareMinniTimestamps_timestamp t u
  have hle : orderOf t.instant u.instant ≤ 0 ↔ t.instant ≤ u.instant := by
    unfold orderOf
    rcases lt_trichotomy t.instant u.instant with h | h | h
    · simp [h, h.le]
    · simp [h]
    · simp [h.not_gt, h.ne', h.not_ge]
  constructor
  · rintro ⟨c, hc, hnonpos⟩
    rw [hcompare, Option.some.injEq] at hc
    exact hle.mp (hc ▸ hnonpos)
  · exact fun h => ⟨_, hcompare, hle.mpr h⟩

theorem orderOf_eq_zero_iff (l r : ℚ) : orderOf l r = 0 ↔ l = r := by
  unfold orderOf
  rcases lt_trichotomy l r with h | h | h
  · simp [h, h.ne]
  · simp [h]
  · simp [h.not_gt, h.ne']

/-- **Timestamps are read and ordered exactly.**  What is accepted are the timestamps; each is read
as the seconds from the epoch to it, with its fraction; and two of them compare as their instants
do, which is a total order in which only equal instants are the same. -/
theorem minniTimestamps_exact :
    (∀ text, (parseMinniTimestamp text).isSome = true ↔ ∃ t : Timestamp, t.text = text) ∧
    (∀ t : Timestamp, ∃ parsed, parseMinniTimestamp t.text = some parsed ∧
      parsed.epochSeconds = t.secondsSinceEpoch ∧
      Decimal.fraction parsed.fraction = Decimal.fraction t.fractionDigits) ∧
    (∀ t u : Timestamp,
      compareMinniTimestamps t.text u.text = some (orderOf t.instant u.instant)) ∧
    (∀ t u : Timestamp, compareMinniTimestamps t.text u.text = some 0 ↔ t.instant = u.instant) ∧
    (∀ t u : Timestamp, NotAfter t.text u.text ∨ NotAfter u.text t.text) ∧
    ∀ t u v : Timestamp, NotAfter t.text u.text → NotAfter u.text v.text →
      NotAfter t.text v.text := by
  refine ⟨isSome_parseMinniTimestamp_iff, fun t => ?_, compareMinniTimestamps_timestamp,
    fun t u => ?_, fun t u => ?_, fun t u v htu huv => ?_⟩
  · exact ⟨_, parseMinniTimestamp_timestamp t, rfl, fraction_dropZeros _⟩
  · rw [compareMinniTimestamps_timestamp, Option.some.injEq, orderOf_eq_zero_iff]
  · rw [notAfter_iff, notAfter_iff]
    exact le_total _ _
  · rw [notAfter_iff] at htu huv ⊢
    exact htu.trans huv

end Runir.Minni
