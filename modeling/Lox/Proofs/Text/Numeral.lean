import Lox.Text.Numeral
import Mathlib.Data.Nat.Digits.Defs

/-! Integers with a text.
An integer has a text when it is below a power of ten, so that integers nearer to zero have one,
too, and so has every integer that a numeral writes.
-/

namespace Lox.Text

theorem isShort_iff {n : Int} : isShort n = true ↔ n.natAbs < 10 ^ maxDigits := by
  rw [isShort, decide_eq_true_iff]
  exact Nat.length_toDigits_le_iff (by decide) (by decide)

theorem isShort_of_natAbs_le {n other : Int} (short : isShort other = true)
    (h : n.natAbs ≤ other.natAbs)
    : isShort n = true :=
  isShort_iff.mpr (h.trans_lt (isShort_iff.mp short))

theorem isShort_pow (power : Nat) (h : power < maxDigits) : isShort (10 ^ power : Nat) = true :=
  isShort_iff.mpr (Nat.pow_lt_pow_right (by decide) h)

/-- The first integer without a text. -/
theorem not_isShort_pow : isShort (10 ^ maxDigits : Nat) = false := by
  rw [← Bool.not_eq_true, isShort_iff, Int.natAbs_natCast]
  exact lt_irrefl _

theorem isShort_neg {n : Int} (short : isShort n = true) : isShort (-n) = true :=
  isShort_of_natAbs_le short (Int.natAbs_neg n).le

theorem digitValue_lt {c : Char} {value : Nat} (h : digitValue? c = some value) : value < 10 := by
  obtain ⟨start, found, rfl⟩ := Option.map_eq_some_iff.mp h
  have within := List.find?_some found
  simp only [Bool.and_eq_true, decide_eq_true_eq] at within
  omega

theorem ne_underscore_of_digit {c : Char} {value : Nat} (h : digitValue? c = some value)
    : c ≠ '_' := by
  rintro rfl
  have none : digitValue? '_' = none := by decide
  rw [none] at h
  cases h

/-- Each digit makes a number ten times as large at most, by induction on the digits. -/
theorem digitsFrom_lt {value bound n : Nat} {digits : List Char} (small : value < 10 ^ bound)
    (h : digitsFrom? value digits = some n)
    : n < 10 ^ (bound + digits.countP (· ≠ '_')) := by
  have grown {c : Char} {digit value bound : Nat} (small : value < 10 ^ bound)
      (known : digitValue? c = some digit)
      : 10 * value + digit < 10 ^ (bound + 1) := by
    have below := digitValue_lt known
    rw [Nat.pow_succ]
    omega
  fun_induction digitsFrom? value digits generalizing bound n with
  | case1 =>
      cases h
      exact small
  | case2 value c rest ih | case3 value c rest _ ih =>
      obtain ⟨digit, known, later⟩ := Option.bind_eq_some_iff.mp h
      have bounded := ih digit (grown small known) later
      simpa [ne_underscore_of_digit known, Nat.add_assoc, Nat.add_comm] using bounded

theorem natural_lt {n : Nat} {digits : List Char} (h : natural? digits = some n)
    : n < 10 ^ digits.countP (· ≠ '_') := by
  cases digits with
  | nil => cases h
  | cons c rest =>
      obtain ⟨digit, known, later⟩ := Option.bind_eq_some_iff.mp h
      have small : digit < 10 ^ 1 := by simpa using digitValue_lt known
      have bounded := digitsFrom_lt small later
      simpa [ne_underscore_of_digit known, Nat.add_comm] using bounded

theorem isShort_of_unsigned {n : Nat} {text : List Char} (h : unsigned text = .ok n)
    : isShort n = true := by
  unfold unsigned at h
  dsimp only at h
  split at h
  case h_1 => cases h
  case h_2 found =>
    split at h
    case isTrue => cases h
    case isFalse few =>
      split at h <;> cases h
      refine isShort_iff.mpr ((natural_lt found).trans_le ?_)
      exact Nat.pow_le_pow_right (by decide) (not_lt.mp few)

/-- The integer that a numeral writes has a text. -/
theorem isShort_of_integer {n : Int} {text : List Char} (h : integer text = .ok n)
    : isShort n = true := by
  have signed {digits : List Char} {sign : Nat → Int} (h : (unsigned digits).map sign = .ok n)
      : ∃ size : Nat, isShort size = true ∧ n = sign size := by
    cases found : unsigned digits with
    | error =>
        rw [found] at h
        cases h
    | ok size =>
        rw [found] at h
        cases h
        exact ⟨size, isShort_of_unsigned found, rfl⟩
  unfold integer at h
  split at h
  case h_1 =>
    obtain ⟨size, short, rfl⟩ := signed h
    exact isShort_neg short
  case h_2 | h_3 =>
    obtain ⟨size, short, rfl⟩ := signed h
    exact short

end Lox.Text
