import Runir.Writes.Signals

/-!
# Writes — Value changes

When `wouldSupersedeTexts` takes one text for a correction of another.  It reads the normal forms
only, and reads them both ways; of two texts with one normal form it says so exactly where that form
names both members of an opposing pair (`wouldSupersedeTexts_difference_iff`).
-/

namespace Runir

open Regex

/-- `opposingPairs`. -/
def opposingPairs : List (String × String) :=
  [("enabled", "disabled"), ("enable", "disable"), ("true", "false"), ("on", "off"), ("yes", "no"),
    ("present", "missing")]

/-- The text names both members of an opposing pair. -/
def NamesBoth (host : Host) (text : String) : Prop :=
  ∃ pair ∈ opposingPairs, Text.test (wholeWord pair.1) (normalizeText host text) = true ∧
    Text.test (wholeWord pair.2) (normalizeText host text) = true

variable {host : Host} {a b : String}

theorem hasOpposingStateFlip_iff :
    hasOpposingStateFlip host a b = true ↔
      ∃ pair ∈ opposingPairs,
        Text.test (wholeWord pair.1) (normalizeText host a) = true ∧
            Text.test (wholeWord pair.2) (normalizeText host b) = true ∨
          Text.test (wholeWord pair.2) (normalizeText host a) = true ∧
            Text.test (wholeWord pair.1) (normalizeText host b) = true := by
  simp only [hasOpposingStateFlip, List.any_eq_true, Bool.or_eq_true, Bool.and_eq_true]
  rfl

theorem hasOpposingStateFlip_comm : hasOpposingStateFlip host a b = hasOpposingStateFlip host b a := by
  have himp : ∀ x y, hasOpposingStateFlip host x y = true → hasOpposingStateFlip host y x = true := by
    intro x y h
    obtain ⟨pair, hmem, hflip⟩ := hasOpposingStateFlip_iff.mp h
    exact hasOpposingStateFlip_iff.mpr ⟨pair, hmem, hflip.symm.imp And.symm And.symm⟩
  exact Bool.eq_iff_iff.mpr ⟨himp a b, himp b a⟩

/-- Of two texts with one normal form the one flips the other where that form names both members. -/
theorem hasOpposingStateFlip_of_normal_eq (h : normalizeText host a = normalizeText host b) :
    hasOpposingStateFlip host a b = true ↔ NamesBoth host a := by
  rw [hasOpposingStateFlip_iff, ← h]
  refine exists_congr fun pair => and_congr_right fun _ => ?_
  rw [and_comm (a := Text.test (wholeWord pair.2) _ = true), or_self]

theorem deriveStatementKey_of_normal_eq (h : normalizeText host a = normalizeText host b) :
    deriveStatementKey host a = deriveStatementKey host b := by
  unfold deriveStatementKey
  rw [h]

theorem extractStatementValue_of_normal_eq (h : normalizeText host a = normalizeText host b) :
    extractStatementValue host a = extractStatementValue host b := by
  unfold extractStatementValue
  rw [h]

theorem wouldSupersedeTexts_comm : wouldSupersedeTexts host a b = wouldSupersedeTexts host b a := by
  unfold wouldSupersedeTexts
  dsimp only
  rw [hasOpposingStateFlip_comm]
  have hkeys : ∀ x y : String, (x = "" ∨ y = "" ∨ x ≠ y) ↔ (y = "" ∨ x = "" ∨ y ≠ x) := by
    intro x y
    rw [or_left_comm, ne_comm]
  have hvalues : ∀ x y : String, (x = "" ∨ y = "" ∨ x = y) ↔ (y = "" ∨ x = "" ∨ y = x) := by
    intro x y
    rw [or_left_comm, eq_comm (a := x) (b := y)]
  simp only [hkeys (deriveStatementKey host a), hvalues (extractStatementValue host a),
    Bool.or_comm (Text.includes (extractStatementValue host a) _)]

theorem wouldSupersedeTexts_of_normal_eq (h : normalizeText host a = normalizeText host b) :
    wouldSupersedeTexts host a b = true ↔ deriveStatementKey host a ≠ "" ∧ NamesBoth host a := by
  have hflip := hasOpposingStateFlip_of_normal_eq h
  unfold wouldSupersedeTexts
  dsimp only
  rw [← deriveStatementKey_of_normal_eq h, ← extractStatementValue_of_normal_eq h]
  by_cases hkey : deriveStatementKey host a = ""
  · simp [hkey]
  · by_cases hboth : NamesBoth host a
    · simp [hkey, hboth, hflip.mpr hboth]
    · simp [hkey, hboth, Bool.eq_false_iff.mpr (mt hflip.mp hboth)]

/-- **A correction is read both ways, and a text corrects none of its own normal form exactly where
it has no statement key or does not name both members of an opposing pair.** -/
theorem wouldSupersedeTexts_difference_iff (host : Host) (a b : String) :
    (wouldSupersedeTexts host a b = wouldSupersedeTexts host b a ∧
        (normalizeText host a = normalizeText host b → wouldSupersedeTexts host a b = false)) ↔
      (normalizeText host a = normalizeText host b →
        deriveStatementKey host a = "" ∨ ¬NamesBoth host a) := by
  rw [and_iff_right wouldSupersedeTexts_comm]
  refine forall_congr' fun h => ?_
  rw [← Bool.not_eq_true, wouldSupersedeTexts_of_normal_eq h, not_and_or, not_not]

/-- A text that names both members corrects itself. -/
theorem wouldSupersedeTexts_self :
    ¬∀ (host : Host) (a b : String), normalizeText host a = normalizeText host b →
      wouldSupersedeTexts host a b = false := by
  intro hall
  have hself := hall Host.ascii "The lamp is on at night and off by day" _ rfl
  exact absurd hself (by decide +kernel)

end Runir
