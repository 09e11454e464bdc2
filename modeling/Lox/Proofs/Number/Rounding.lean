import Mathlib

/-! Rounding to doubles is rounding to the nearest one.
A mantissa with its residual bits tells where a rational lies between two whole numbers. Shifting
keeps that knowledge, and the rounded mantissa is the nearest whole number, the even one of two
equally near. So every rational around a double is rounded to that double.
-/

namespace Lox.Number

open Float.Model Float.Model.UnpackedFloat

/-- The mantissa is the whole part of `x`, and the bits compare what is left with one half. -/
def Locates (extended : ExtendedMantissa) (x : ℚ) : Prop :=
  match extended with
  | ⟨mantissa, false, false⟩ => x = mantissa
  | ⟨mantissa, false, true⟩ => (mantissa : ℚ) < x ∧ x < mantissa + 1 / 2
  | ⟨mantissa, true, false⟩ => x = mantissa + 1 / 2
  | ⟨mantissa, true, true⟩ => (mantissa : ℚ) + 1 / 2 < x ∧ x < mantissa + 1

variable {extended : ExtendedMantissa} {x q : ℚ}

theorem Locates.floor (h : Locates extended x)
    : (extended.mantissa : ℚ) ≤ x ∧ x < extended.mantissa + 1 := by
  obtain ⟨mantissa, round, sticky⟩ := extended
  cases round <;> cases sticky <;> simp only [Locates] at h
  · constructor <;> linarith
  · constructor <;> linarith [h.1, h.2]
  · constructor <;> linarith
  · constructor <;> linarith [h.1, h.2]

/-- A shift by one bit halves the number: the lowest bit of the mantissa is the new round bit. -/
theorem Locates.shiftRightOne (h : Locates extended x)
    : Locates extended.shiftRightOne (x / 2) := by
  obtain ⟨mantissa, round, sticky⟩ := extended
  obtain ⟨half, rfl | rfl⟩ : ∃ half, mantissa = 2 * half ∨ mantissa = 2 * half + 1 :=
    ⟨mantissa / 2, by omega⟩
  · have quotient : 2 * half / 2 = half := by omega
    have parity : (2 * half % 2 != 0) = false := by simp
    cases round <;> cases sticky <;>
      simp only [Locates, ExtendedMantissa.shiftRightOne, quotient, parity, Bool.or_false,
        Bool.or_true] at h ⊢ <;> push_cast at h
    · linarith
    · constructor <;> linarith [h.1, h.2]
    · constructor <;> linarith
    · constructor <;> linarith [h.1, h.2]
  · have quotient : (2 * half + 1) / 2 = half := by omega
    have parity : ((2 * half + 1) % 2 != 0) = true := by simp [Nat.add_mod]
    cases round <;> cases sticky <;>
      simp only [Locates, ExtendedMantissa.shiftRightOne, quotient, parity, Bool.or_false,
        Bool.or_true] at h ⊢ <;> push_cast at h
    · linarith
    · constructor <;> linarith [h.1, h.2]
    · constructor <;> linarith
    · constructor <;> linarith [h.1, h.2]

theorem Locates.shiftRight (h : Locates extended x) (count : Nat)
    : Locates (extended >>> count) (x / 2 ^ count) := by
  induction count with
  | zero => simpa [HShiftRight.hShiftRight, Nat.repeat] using h
  | succ count ih =>
      have next := ih.shiftRightOne
      rw [div_div, ← pow_succ] at next
      exact next

/-- The whole number is nearest to `x`, and even if another one is equally near. -/
structure Nearest (x : ℚ) (n : Nat) : Prop where
  low : (n : ℚ) - 1 / 2 ≤ x
  high : x ≤ n + 1 / 2
  even : x = n - 1 / 2 ∨ x = n + 1 / 2 → n % 2 = 0

theorem Locates.nearest (h : Locates extended x) : Nearest x extended.roundedMantissa := by
  obtain ⟨mantissa, round, sticky⟩ := extended
  cases round <;> cases sticky <;>
    simp only [Locates] at h <;>
    simp only [ExtendedMantissa.roundedMantissa, ExtendedMantissa.accuracy,
      Accuracy.roundToNearestEven]
  · refine ⟨by linarith, by linarith, ?_⟩
    rintro (same | same) <;> linarith
  · refine ⟨by linarith [h.1], by linarith [h.2], ?_⟩
    rintro (same | same) <;> linarith [h.1, h.2]
  · obtain even | odd := Nat.mod_two_eq_zero_or_one mantissa
    · rw [even, Nat.add_zero]
      exact ⟨by linarith, by linarith, fun _ => even⟩
    · rw [odd]
      refine ⟨by push_cast; linarith, by push_cast; linarith, fun _ => by omega⟩
  · refine ⟨by push_cast; linarith [h.1], by push_cast; linarith [h.2], ?_⟩
    push_cast
    rintro (same | same) <;> linarith [h.1, h.2]

theorem Nearest.le {m n : Nat} (first : Nearest x m) (second : Nearest x n) : n ≤ m := by
  by_contra less
  have gap : (m : ℚ) + 1 ≤ n := by exact_mod_cast Nat.lt_of_not_le less
  have above : x = m + 1 / 2 := by linarith [first.high, second.low]
  have below : x = n - 1 / 2 := by linarith [first.high, second.low]
  have next : (n : ℚ) = m + 1 := by linarith
  have next : n = m + 1 := by exact_mod_cast next
  have even := first.even (.inr above)
  have odd := second.even (.inl below)
  omega

theorem Nearest.unique {m n : Nat} (first : Nearest x m) (second : Nearest x n) : m = n :=
  Nat.le_antisymm (second.le first) (first.le second)

-----------------------------------------------------------------------------------------
-- Rationals around a double
-----------------------------------------------------------------------------------------

/-- A mantissa and an exponent as doubles have them: no bit too many, and too few only where the
exponent is the smallest one.
-/
structure Canonical (mantissa : Nat) (exponent : Int) : Prop where
  positive : 0 < mantissa
  small : mantissa < 2 ^ 53
  low : -1074 ≤ exponent
  full : exponent = -1074 ∨ 2 ^ 52 ≤ mantissa

/-- How far below a double numbers are rounded to it, in units of its last place. It is half as far
where the next double below has a smaller exponent.
-/
def gapBelow (mantissa : Nat) (exponent : Int) : ℚ :=
  if mantissa = 2 ^ 52 ∧ -1074 < exponent then 1 / 4 else 1 / 2

/-- The rational `q` is rounded to `mantissa * 2 ^ exponent`. -/
structure Around (q : ℚ) (mantissa : Nat) (exponent : Int) : Prop where
  low : (mantissa : ℚ) - gapBelow mantissa exponent ≤ q / 2 ^ exponent
  high : q / 2 ^ exponent ≤ mantissa + 1 / 2
  even : q / 2 ^ exponent = mantissa - gapBelow mantissa exponent
    ∨ q / 2 ^ exponent = mantissa + 1 / 2 → mantissa % 2 = 0

theorem around_of_lt {mantissa : Nat} {exponent : Int}
    (low : (mantissa : ℚ) - gapBelow mantissa exponent < q / 2 ^ exponent)
    (high : q / 2 ^ exponent < mantissa + 1 / 2)
    : Around q mantissa exponent where
  low := le_of_lt low
  high := le_of_lt high
  even := by
    rintro (same | same)
    · exact (ne_of_gt low same).elim
    · exact (ne_of_lt high same).elim

theorem gapBelow_le (mantissa : Nat) (exponent : Int)
    : 1 / 4 ≤ gapBelow mantissa exponent ∧ gapBelow mantissa exponent ≤ 1 / 2 := by
  unfold gapBelow
  split <;> norm_num

variable {mantissa : Nat} {exponent : Int}

theorem Around.nearest (around : Around q mantissa exponent)
    : Nearest (q / 2 ^ exponent) mantissa := by
  have gap := (gapBelow_le mantissa exponent).2
  refine ⟨by linarith [around.low], around.high, ?_⟩
  rintro (same | same)
  · refine around.even (.inl ?_)
    linarith [around.low]
  · exact around.even (.inr same)

/-- Below the smallest mantissa of an exponent, numbers are rounded to it as they are to twice that
mantissa with the exponent before.
-/
theorem Around.nearest_double (around : Around q (2 ^ 52) exponent) (low : -1074 < exponent)
    (below : q / 2 ^ exponent < 2 ^ 52)
    : Nearest (q / 2 ^ (exponent - 1)) (2 ^ 53) := by
  have gap : gapBelow (2 ^ 52) exponent = 1 / 4 := if_pos ⟨rfl, low⟩
  have near := around.low
  have double : q / 2 ^ (exponent - 1) = 2 * (q / 2 ^ exponent) := by
    rw [zpow_sub_one₀ (by norm_num)]
    field_simp
  rw [gap] at near
  rw [double]
  push_cast at near
  refine ⟨?_, ?_, fun _ => by norm_num⟩
  · push_cast
    linarith
  · push_cast
    linarith

-----------------------------------------------------------------------------------------
-- The exponent that is rounded to
-----------------------------------------------------------------------------------------

/-- The exponent of the double for a number with the given mantissa and exponent. -/
theorem targetExponent_eq (mantissa : Nat) (exponent : Int)
    : Format.binary64.targetExponent (totalExponent mantissa exponent)
      = max (mantissa.log2 + exponent - 52) (-1074) := by
  simp only [Format.targetExponent, totalExponent, Format.mantissaBits, Format.minExponent]
  norm_num
  omega

theorem lt_zpow_add {k e : Int} (h : q / 2 ^ e < 2 ^ k) : q < 2 ^ (k + e) := by
  rw [zpow_add₀ (by norm_num)]
  exact (div_lt_iff₀ (by positivity)).mp h

theorem zpow_add_le {k e : Int} (h : 2 ^ k ≤ q / 2 ^ e) : 2 ^ (k + e) ≤ q := by
  rw [zpow_add₀ (by norm_num)]
  exact (le_div_iff₀ (by positivity)).mp h

theorem lt_of_zpow_le {a b : Int} (low : 2 ^ a ≤ q) (high : q < 2 ^ b) : a < b :=
  (zpow_lt_zpow_iff_right₀ (by norm_num)).mp (lt_of_le_of_lt low high)

variable {m : Nat} {e : Int}

theorem lt_of_floor (high : q / 2 ^ e < m + 1) : q < 2 ^ ((m.log2 + 1 : Int) + e) := by
  have bound : (m : ℚ) + 1 ≤ 2 ^ (m.log2 + 1) := by
    exact_mod_cast Nat.succ_le_of_lt (Nat.lt_log2_self (n := m))
  refine lt_zpow_add ?_
  exact_mod_cast lt_of_lt_of_le high bound

theorem le_of_floor (positive : m ≠ 0) (low : (m : ℚ) ≤ q / 2 ^ e)
    : 2 ^ ((m.log2 : Int) + e) ≤ q := by
  have bound : (2 : ℚ) ^ m.log2 ≤ m := by exact_mod_cast Nat.log2_self_le positive
  refine zpow_add_le ?_
  exact_mod_cast le_trans bound low

theorem Around.lt_zpow (around : Around q mantissa exponent)
    (canonical : Canonical mantissa exponent)
    : q < 2 ^ (53 + exponent) := by
  have bound : (mantissa : ℚ) + 1 ≤ 2 ^ 53 := by exact_mod_cast canonical.small
  refine lt_zpow_add ?_
  exact_mod_cast lt_of_le_of_lt around.high (by linarith)

theorem Around.zpow_le (around : Around q mantissa exponent) (full : 2 ^ 52 ≤ mantissa)
    : 2 ^ (51 + exponent) ≤ q := by
  have gap := (gapBelow_le mantissa exponent).2
  have bound : (2 : ℚ) ^ 52 ≤ mantissa := by exact_mod_cast full
  have near := around.low
  have half : (2 : ℚ) ^ (51 : Int) = 2 ^ 52 / 2 := by norm_num
  refine zpow_add_le ?_
  rw [half]
  linarith

/-- Just below the smallest mantissa of an exponent there is no other double around. -/
theorem Around.eq_of_lt (around : Around q mantissa exponent) (full : 2 ^ 52 ≤ mantissa)
    (below : q / 2 ^ exponent < 2 ^ 52)
    : mantissa = 2 ^ 52 := by
  have gap := (gapBelow_le mantissa exponent).2
  have near := around.low
  by_contra other
  have next : 2 ^ 52 + 1 ≤ mantissa := by omega
  have next : (2 : ℚ) ^ 52 + 1 ≤ mantissa := by exact_mod_cast next
  linarith

/-- A number around a double is rounded with the exponent of that double, or with the exponent
before it from just below the smallest mantissa.
-/
theorem Around.targetExponent (around : Around q mantissa exponent)
    (canonical : Canonical mantissa exponent)
    (low : (m : ℚ) ≤ q / 2 ^ e) (high : q / 2 ^ e < m + 1)
    (enough : e ≤ Format.binary64.targetExponent (totalExponent m e))
    : Format.binary64.targetExponent (totalExponent m e) = exponent
      ∨ Format.binary64.targetExponent (totalExponent m e) = exponent - 1
        ∧ mantissa = 2 ^ 52 ∧ -1074 < exponent ∧ q / 2 ^ exponent < 2 ^ 52 := by
  have first := canonical.low
  have above := lt_of_floor high
  rw [targetExponent_eq] at enough ⊢
  by_cases zero : m = 0
  · -- A number without a whole bit is around no double but those of the smallest exponent.
    subst zero
    rw [Nat.log2_zero] at enough above ⊢
    left
    rcases canonical.full with small | full
    · omega
    · have order := lt_of_zpow_le (around.zpow_le full) above
      omega
  · have below := le_of_floor zero low
    have order := lt_of_zpow_le below (around.lt_zpow canonical)
    by_cases small : exponent = -1074
    · left
      omega
    · have full := canonical.full.resolve_left small
      by_cases less : q / 2 ^ exponent < 2 ^ 52
      · have within := lt_of_zpow_le below (lt_zpow_add (k := 52) (by exact_mod_cast less))
        have order := lt_of_zpow_le (around.zpow_le full) above
        exact .inr ⟨by omega, around.eq_of_lt full less, by omega, less⟩
      · have bottom := zpow_add_le (k := 52) (by exact_mod_cast not_lt.mp less)
        have order := lt_of_zpow_le bottom above
        left
        omega

theorem log2_lt_of_canonical (canonical : Canonical mantissa exponent) : mantissa.log2 < 53 :=
  (Nat.log2_lt (Nat.ne_of_gt canonical.positive)).mpr canonical.small

/-- A mantissa that has no bit too many stays as it is. -/
theorem shiftToTargetExponent_canonical (canonical : Canonical mantissa exponent)
    : shiftToTargetExponent Format.binary64 mantissa exponent .exact
      = (⟨mantissa, false, false⟩, exponent) := by
  have bits := log2_lt_of_canonical canonical
  have low := canonical.low
  have amount : (Format.binary64.targetExponent (totalExponent mantissa exponent)
      - exponent).toNat = 0 := by
    rw [targetExponent_eq]
    omega
  simp only [shiftToTargetExponent, shiftToExponent, amount]
  rw [Int.natCast_zero, Int.add_zero]
  rfl

/-- A mantissa that rounding gave one bit too many loses that bit. -/
theorem shiftToTargetExponent_carry (low : -1074 ≤ exponent - 1)
    : shiftToTargetExponent Format.binary64 (2 ^ 53) (exponent - 1) .exact
      = (⟨2 ^ 52, false, false⟩, exponent) := by
  have amount : (Format.binary64.targetExponent (totalExponent (2 ^ 53) (exponent - 1))
      - (exponent - 1)).toNat = 1 := by
    rw [targetExponent_eq, Nat.log2_two_pow]
    omega
  simp only [shiftToTargetExponent, shiftToExponent, amount]
  refine Prod.ext rfl ?_
  change exponent - 1 + 1 = exponent
  omega

/-- Numbers around a double are rounded to it, whatever mantissa tells where they lie. -/
theorem roundWithAccuracy_eq {accuracy : Accuracy} (sign : Sign)
    (canonical : Canonical mantissa exponent)
    (around : Around q mantissa exponent)
    (located : Locates (ExtendedMantissa.ofMantissaAndAccuracy m accuracy) (q / 2 ^ e))
    (enough : e ≤ Format.binary64.targetExponent (totalExponent m e))
    : roundWithAccuracy Format.binary64 sign m e accuracy
      = .finite sign mantissa exponent canonical.positive := by
  have whole : (ExtendedMantissa.ofMantissaAndAccuracy m accuracy).mantissa = m := by
    unfold ExtendedMantissa.ofMantissaAndAccuracy
    split <;> rfl
  have floor := located.floor
  rw [whole] at floor
  have target := around.targetExponent canonical floor.1 floor.2 enough
  generalize goal : Format.binary64.targetExponent (totalExponent m e) = t at target enough
  have shifted : shiftToTargetExponent Format.binary64 m e accuracy
      = (ExtendedMantissa.ofMantissaAndAccuracy m accuracy >>> (t - e).toNat, t) := by
    simp only [shiftToTargetExponent, shiftToExponent, goal]
    refine Prod.ext rfl ?_
    change e + ((t - e).toNat : Int) = t
    omega
  have scale : q / 2 ^ e / 2 ^ (t - e).toNat = q / 2 ^ t := by
    rw [div_div, ← zpow_natCast, ← zpow_add₀ (by norm_num)]
    congr 2
    omega
  have nearest := (located.shiftRight (t - e).toNat).nearest
  rw [scale] at nearest
  unfold roundWithAccuracy
  rw [shifted]
  rcases target with rfl | ⟨rfl, rfl, low, below⟩
  · have rounded := nearest.unique around.nearest
    simp only [rounded, shiftToTargetExponent_canonical canonical]
    rw [dif_neg (Nat.ne_of_gt canonical.positive)]
  · have rounded := nearest.unique (around.nearest_double low below)
    simp only [rounded, shiftToTargetExponent_carry (show -1074 ≤ exponent - 1 by omega)]
    rw [dif_neg (by decide)]

end Lox.Number
