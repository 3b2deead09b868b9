import Mathlib.Algebra.Order.Field.Rat
import Mathlib.Data.List.DropRight
import Mathlib.Tactic.Positivity
import Mathlib.Tactic.Ring
import Runir.Lib.Regex

/-!
# Library — Decimals

Digits read as a whole number, `value`, and as what follows a decimal point, `fraction`.

* `value_append`, `value_lt`: a numeral by its parts, and its bound.
* `fraction_append_zeros`, `fraction_rdropWhile`: zeros at the end do not count.
* `value_padded_lt_iff`, `value_padded_inj`: fractions compare as their digits do once they are
  filled up to one length.
* `Numeral n`: so many digits.
-/

namespace Runir.Decimal
open Regex (isDigitChar)

def digitOf (c : Char) : Nat := c.toNat - 48

/-- `Number(ds)` and `BigInt(ds)` for digits, where no digits are `0`. -/
def value (ds : List Char) : Nat := ds.foldl (fun n c => n * 10 + digitOf c) 0

theorem foldl_eq (ds : List Char) (n : Nat) :
    ds.foldl (fun n c => n * 10 + digitOf c) n = n * 10 ^ ds.length + value ds := by
  induction ds generalizing n with
  | nil => simp [value]
  | cons c ds ih =>
      rw [value, List.foldl_cons, List.foldl_cons, ih, ih (0 * 10 + digitOf c), List.length_cons]
      ring

theorem value_append (ds es : List Char) :
    value (ds ++ es) = value ds * 10 ^ es.length + value es := by
  rw [value, List.foldl_append, foldl_eq]
  rfl

@[simp] theorem value_replicate_zero (n : Nat) : value (List.replicate n '0') = 0 := by
  induction n with
  | zero => rfl
  | succ n ih =>
      rw [List.replicate_succ', value_append, ih]
      rfl

theorem value_lt {ds : List Char} (h : ∀ c ∈ ds, isDigitChar c = true) :
    value ds < 10 ^ ds.length := by
  induction ds using List.reverseRecOn with
  | nil => simp [value]
  | append_singleton ds c ih =>
      have hrest := ih fun d hd => h d (List.mem_append_left _ hd)
      have hc : digitOf c ≤ 9 := by
        have hdigit := h c (List.mem_append_right _ (List.mem_singleton_self c))
        simp only [isDigitChar, Bool.and_eq_true, decide_eq_true_eq] at hdigit
        have hle : c.toNat ≤ 57 := hdigit.2
        rw [digitOf]
        omega
      have hlast : value [c] = digitOf c := by simp [value]
      rw [value_append, hlast, List.length_append, List.length_singleton, pow_succ]
      omega

/-! ### Fractions -/

/-- `0.ds`. -/
def fraction (ds : List Char) : ℚ := value ds / 10 ^ ds.length

theorem fraction_nonneg (ds : List Char) : 0 ≤ fraction ds := by
  unfold fraction
  positivity

theorem fraction_lt_one {ds : List Char} (h : ∀ c ∈ ds, isDigitChar c = true) : fraction ds < 1 := by
  rw [fraction, div_lt_one (by positivity)]
  exact_mod_cast value_lt h

@[simp] theorem fraction_append_zeros (ds : List Char) (n : Nat) :
    fraction (ds ++ List.replicate n '0') = fraction ds := by
  rw [fraction, fraction, value_append, value_replicate_zero, List.length_append,
    List.length_replicate, pow_add, Nat.add_zero, Nat.cast_mul, Nat.cast_pow]
  exact mul_div_mul_right _ _ (by positivity)

/-- `ds.replace(/0+$/, "")`. -/
def dropZeros (ds : List Char) : List Char := ds.rdropWhile (· == '0')

theorem exists_dropZeros (ds : List Char) :
    ∃ n, ds = dropZeros ds ++ List.replicate n '0' := by
  induction ds using List.reverseRecOn with
  | nil => exact ⟨0, rfl⟩
  | append_singleton ds c ih =>
      by_cases hc : c = '0'
      · subst hc
        obtain ⟨n, hn⟩ := ih
        refine ⟨n + 1, ?_⟩
        rw [dropZeros, List.rdropWhile_concat_pos _ _ _ rfl, List.replicate_succ', ← List.append_assoc]
        exact congrArg (· ++ ['0']) hn
      · refine ⟨0, ?_⟩
        rw [dropZeros, List.rdropWhile_concat_neg _ _ _ (by simpa using hc), List.replicate_zero,
          List.append_nil]

theorem fraction_dropZeros (ds : List Char) : fraction (dropZeros ds) = fraction ds := by
  obtain ⟨n, hn⟩ := exists_dropZeros ds
  conv_rhs => rw [hn]
  rw [fraction_append_zeros]

/-- `ds.padEnd(scale, "0")`. -/
def padZeros (scale : Nat) (ds : List Char) : List Char :=
  ds ++ List.replicate (scale - ds.length) '0'

theorem value_padZeros {ds : List Char} {scale : Nat} (h : ds.length ≤ scale) :
    (value (padZeros scale ds) : ℚ) = fraction ds * 10 ^ scale := by
  have hlength : (padZeros scale ds).length = scale := by
    rw [padZeros, List.length_append, List.length_replicate]
    omega
  have hfraction : fraction (padZeros scale ds) = fraction ds := fraction_append_zeros _ _
  rw [← hfraction, fraction, hlength, div_mul_cancel₀ _ (by positivity)]

section
variable {ds es : List Char} {scale : Nat} (hds : ds.length ≤ scale) (hes : es.length ≤ scale)
include hds hes

/-- **Filled up to one length, digits compare as the fractions do.** -/
theorem value_padZeros_lt_iff :
    value (padZeros scale ds) < value (padZeros scale es) ↔ fraction ds < fraction es := by
  rw [← @Nat.cast_lt ℚ, value_padZeros hds, value_padZeros hes]
  exact mul_lt_mul_iff_left₀ (by positivity)

theorem value_padZeros_inj :
    value (padZeros scale ds) = value (padZeros scale es) ↔ fraction ds = fraction es := by
  rw [← Nat.cast_inj (R := ℚ), value_padZeros hds, value_padZeros hes]
  exact mul_left_inj' (by positivity)

end

/-! ### Numerals of a length -/

/-- `\d{n}`. -/
structure Numeral (n : Nat) where
  digits : List Char
  length_eq : digits.length = n
  digit : ∀ c ∈ digits, isDigitChar c = true
  deriving DecidableEq

def Numeral.toNat {n : Nat} (d : Numeral n) : Nat := value d.digits

end Runir.Decimal
