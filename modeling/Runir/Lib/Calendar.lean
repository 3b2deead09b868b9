import Mathlib.Tactic.IntervalCases
import Runir.Lib.Host

/-!
# Library — Calendar

The days of the proleptic Gregorian calendar counted one by one, and the closed form of the count.

* `dayNumber`: the days from the first of January of the year 0 to a date, as the sum of the lengths
  of the years and months before it.
* `daysBeforeYear_eq`: the years in closed form.
* `daysFromCivil_eq`: the closed form that starts its years in March counts the days since
  1970-01-01.
-/

namespace Runir.Date

def daysInYear (y : Nat) : Nat := if isLeap y then 366 else 365

def daysBeforeYear (y : Nat) : Nat := ((List.range y).map daysInYear).sum

def daysBeforeMonth (y m : Nat) : Nat :=
  ((List.range (m - 1)).map fun i => daysInMonth y (i + 1)).sum

/-- The days from 0000-01-01 to a date. -/
def dayNumber (y m d : Nat) : Nat := daysBeforeYear y + daysBeforeMonth y m + (d - 1)

theorem isLeap_iff {y : Nat} : isLeap y = true ↔ y % 4 = 0 ∧ (y % 100 ≠ 0 ∨ y % 400 = 0) := by
  simp [isLeap]

/-- The multiples of `k` below `n + 1`, and those below `n`. -/
theorem multiples_succ {k : Nat} (hk : 0 < k) (n : Nat) :
    (n + 1 + (k - 1)) / k = (n + (k - 1)) / k + if n % k = 0 then 1 else 0 := by
  have hsucc : n + 1 + (k - 1) = (n + (k - 1)) + 1 := by omega
  have hself : n + (k - 1) + 1 = n + k := by omega
  have hdvd : k ∣ n + (k - 1) + 1 ↔ n % k = 0 := by
    rw [hself, Nat.dvd_add_self_right, Nat.dvd_iff_mod_eq_zero]
  rw [hsucc, Nat.succ_div, if_congr hdvd rfl rfl]

/-- The leap years below `y + 1`, and those below `y`. -/
theorem leaps_succ (y : Nat) :
    (y + 4) / 4 + (y + 400) / 400 + (y + 99) / 100 =
      (y + 3) / 4 + (y + 399) / 400 + (y + 100) / 100 + if isLeap y then 1 else 0 := by
  have h4 := multiples_succ (show 0 < 4 by decide) y
  have h100 := multiples_succ (show 0 < 100 by decide) y
  have h400 := multiples_succ (show 0 < 400 by decide) y
  have hcentury : y % 400 = 0 → y % 100 = 0 := by omega
  have hfour : y % 100 = 0 → y % 4 = 0 := by omega
  simp only [isLeap_iff]
  simp only [Nat.add_assoc, Nat.reduceAdd, Nat.reduceSub] at h4 h100 h400
  rw [h4, h100, h400]
  by_cases h : y % 4 = 0
  · by_cases h' : y % 100 = 0
    · by_cases h'' : y % 400 = 0
      · simp only [h, h', h'', if_true, ne_eq, not_true_eq_false, or_true, and_self]
        omega
      · simp only [h, h', h'', if_true, if_false, ne_eq, not_true_eq_false, or_self, and_false]
        omega
    · have h'' : ¬y % 400 = 0 := fun h'' => h' (hcentury h'')
      simp only [h, h', h'', if_true, if_false, ne_eq, not_false_eq_true, or_false, and_self]
      omega
  · have h' : ¬y % 100 = 0 := fun h' => h (hfour h')
    have h'' : ¬y % 400 = 0 := fun h'' => h' (hcentury h'')
    simp only [h, h', h'', if_false, false_and]
    omega

theorem daysBeforeYear_eq (y : Nat) :
    daysBeforeYear y + (y + 99) / 100 = 365 * y + (y + 3) / 4 + (y + 399) / 400 := by
  induction y with
  | zero => rfl
  | succ y ih =>
      have hsucc : daysBeforeYear (y + 1) = daysBeforeYear y + daysInYear y := by
        rw [daysBeforeYear, List.range_succ, List.map_append, List.sum_append, List.map_singleton,
          List.sum_singleton]
        rfl
      have hyear : daysInYear y = 365 + if isLeap y then 1 else 0 := by
        rw [daysInYear]
        split
        · rfl
        · rfl
      have hleaps := leaps_succ y
      have h99 : y + 1 + 99 = y + 100 := rfl
      have h3 : y + 1 + 3 = y + 4 := rfl
      have h399 : y + 1 + 399 = y + 400 := rfl
      rw [hsucc, hyear, h99, h3, h399]
      linarith only [ih, hleaps]

/-- The months before, where February has its day more in a leap year. -/
theorem daysBeforeMonth_eq {y m : Nat} (h₁ : 1 ≤ m) (h₂ : m ≤ 12) :
    daysBeforeMonth y m =
      if m ≤ 2 then 31 * (m - 1)
      else (153 * (m - 3) + 2) / 5 + 59 + if isLeap y then 1 else 0 := by
  unfold daysBeforeMonth daysInMonth
  cases isLeap y with
  | false => interval_cases m <;> rfl
  | true => interval_cases m <;> rfl

/-- Years from March, counted by their place in the period of 400. -/
theorem days_of_era (y : ℤ) :
    y / 400 * 146097 + ((y - y / 400 * 400) * 365 + (y - y / 400 * 400) / 4 -
      (y - y / 400 * 400) / 100) = 365 * y + y / 4 - y / 100 + y / 400 := by
  have h4 : (y - y / 400 * 400) / 4 = y / 4 - 100 * (y / 400) := by omega
  have h100 : (y - y / 400 * 400) / 100 = y / 100 - 4 * (y / 400) := by omega
  rw [h4, h100]
  ring

/-- The years before, for a count that has come to the end of the year before. -/
theorem daysBeforeYear_eq_pred (y : Nat) :
    (daysBeforeYear y : ℤ) =
      365 * y + ((y : ℤ) - 1) / 4 - ((y : ℤ) - 1) / 100 + ((y : ℤ) - 1) / 400 + 1 := by
  have hyears := daysBeforeYear_eq y
  have h4 : ((y + 3) / 4 : Nat) = ((y : ℤ) - 1) / 4 + 1 := by omega
  have h100 : ((y + 99) / 100 : Nat) = ((y : ℤ) - 1) / 100 + 1 := by omega
  have h400 : ((y + 399) / 400 : Nat) = ((y : ℤ) - 1) / 400 + 1 := by omega
  have hcast : (daysBeforeYear y : ℤ) + ((y + 99) / 100 : Nat) =
      365 * y + ((y + 3) / 4 : Nat) + ((y + 399) / 400 : Nat) := by exact_mod_cast hyears
  rw [h4, h100, h400] at hcast
  linarith only [hcast]

/-- The years before, for a count that has come to the end of February. -/
theorem daysBeforeYear_eq_self (y : Nat) :
    (daysBeforeYear y : ℤ) + (if isLeap y then 1 else 0 : Nat) =
      365 * y + (y : ℤ) / 4 - (y : ℤ) / 100 + (y : ℤ) / 400 + 1 := by
  have hyears := daysBeforeYear_eq y
  have hleaps := leaps_succ y
  have hself : ∀ k : Nat, 0 < k → (((y + k) / k : Nat) : ℤ) = (y : ℤ) / k + 1 := by
    intro k hk
    rw [Nat.add_div_right y hk, Nat.cast_succ, Int.natCast_ediv]
  have h4 := hself 4 (by decide)
  have h100 := hself 100 (by decide)
  have h400 := hself 400 (by decide)
  have hcast : (daysBeforeYear y : ℤ) + ((y + 99) / 100 : Nat) =
      365 * y + ((y + 3) / 4 : Nat) + ((y + 399) / 400 : Nat) := by exact_mod_cast hyears
  have hcast' : ((y + 4) / 4 : Nat) + ((y + 400) / 400 : Nat) + ((y + 99) / 100 : Nat) =
      (((y + 3) / 4 : Nat) : ℤ) + ((y + 399) / 400 : Nat) + ((y + 100) / 100 : Nat) +
        (if isLeap y then 1 else 0 : Nat) := by exact_mod_cast hleaps
  rw [h4, h100, h400] at hcast'
  push_cast at hcast hcast' ⊢
  linarith only [hcast, hcast']

/-- **The closed form counts the days.** -/
theorem daysFromCivil_eq {y m d : Nat} (h₁ : 1 ≤ m) (h₂ : m ≤ 12) (hd : 1 ≤ d) :
    daysFromCivil y m d = (dayNumber y m d : ℤ) - dayNumber 1970 1 1 := by
  have hepoch : (dayNumber 1970 1 1 : ℤ) = 719528 := by
    have hyears : (daysBeforeYear 1970 : ℤ) = 719528 :=
      (daysBeforeYear_eq_pred 1970).trans (by norm_num)
    have hday : dayNumber 1970 1 1 = daysBeforeYear 1970 := by
      simp only [dayNumber, daysBeforeMonth, Nat.sub_self, List.range_zero, List.map_nil,
        List.sum_nil, Nat.add_zero]
    rw [hday, hyears]
  have hmonths := daysBeforeMonth_eq (y := y) h₁ h₂
  have hday : ((d - 1 : Nat) : ℤ) = d - 1 := by omega
  rw [hepoch, dayNumber, Nat.cast_add, Nat.cast_add, hday]
  by_cases hearly : m ≤ 2
  · rw [if_pos hearly] at hmonths
    have hm : (m : ℤ) ≤ 2 := by omega
    have hm' : ¬(m : ℤ) > 2 := by omega
    have hera := days_of_era ((y : ℤ) - 1)
    have hmarch : (153 * ((m : ℤ) + 9) + 2) / 5 = 31 * (m : ℤ) + 275 := by
      interval_cases m <;> rfl
    have hcast : (daysBeforeMonth y m : ℤ) = 31 * m - 31 := by omega
    rw [daysFromCivil, if_pos hm, if_neg hm', hmarch, daysBeforeYear_eq_pred, hcast]
    linarith only [hera]
  · rw [if_neg hearly] at hmonths
    have hm : ¬(m : ℤ) ≤ 2 := by omega
    have hm' : (m : ℤ) > 2 := by omega
    have hera := days_of_era (y : ℤ)
    have hyears := daysBeforeYear_eq_self y
    have hmarch : (((153 * (m - 3) + 2) / 5 : Nat) : ℤ) = (153 * ((m : ℤ) - 3) + 2) / 5 := by
      omega
    have hcast : (daysBeforeMonth y m : ℤ) =
        (153 * ((m : ℤ) - 3) + 2) / 5 + 59 + (if isLeap y then 1 else 0 : Nat) := by
      rw [← hmarch]
      exact_mod_cast hmonths
    rw [daysFromCivil, if_neg hm, if_pos hm', hcast]
    linarith only [hera, hyears]

end Runir.Date
