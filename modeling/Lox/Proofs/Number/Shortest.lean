import Lox.Proofs.Number.Double

/-! The shortest decimal of a double is rounded to that double.
A decimal that the interval covers is around the double. The search always finds one, since among
the decimals of seventeen digits a neighbour of the double is near enough.
-/

namespace Lox

theorem wholePower_pos {base : Nat} (positive : 0 < base) (k : Int) : 0 < wholePower base k :=
  Nat.pow_pos positive

/-- A power of either sign, as a quotient of two whole ones. -/
theorem cast_wholePower (base : Nat) (positive : 0 < base) (k : Int)
    : (wholePower base k : ℚ) = base ^ k * wholePower base (-k) := by
  have unit : (base : ℚ) ≠ 0 := by exact_mod_cast Nat.ne_of_gt positive
  have whole : ∀ k, (wholePower base k : ℚ) = (base : ℚ) ^ (k.toNat : Int) := by
    intro k
    rw [zpow_natCast, wholePower, Nat.pow_eq, Nat.cast_pow]
  rw [whole, whole, ← zpow_add₀ unit]
  congr 1
  omega

namespace Decimal

theorem trim_value (coefficient : Nat) (exponent : Int)
    : (trim coefficient exponent).value = coefficient * 10 ^ exponent := by
  fun_induction trim coefficient exponent with
  | case1 => simp [value]
  | case2 coefficient exponent _ last ih =>
      have whole : (coefficient : ℚ) = (coefficient / 10 : Nat) * 10 := by
        exact_mod_cast (Nat.div_mul_cancel (Nat.dvd_of_mod_eq_zero last)).symm
      rw [ih, zpow_add₀ (by norm_num), zpow_one, whole]
      ring
  | case3 => rfl

end Decimal

namespace RoundingInterval

open Number

variable {mantissa : Nat} {exponent : Int}

theorem denominator_pos (mantissa : Nat) (exponent : Int)
    : 0 < (ofBinary mantissa exponent).denominator :=
  Nat.mul_pos (by decide) (wholePower_pos (by decide) _)

theorem cast_value (mantissa : Nat) (exponent : Int)
    : ((ofBinary mantissa exponent).value : ℚ)
      = mantissa * 2 ^ exponent * (ofBinary mantissa exponent).denominator := by
  have unit := cast_wholePower 2 (by decide) exponent
  simp only [ofBinary]
  push_cast at unit ⊢
  rw [unit]
  ring

theorem cast_lower (positive : 0 < mantissa) (exponent : Int)
    : ((ofBinary mantissa exponent).lower : ℚ)
      = (mantissa - gapBelow mantissa exponent) * 2 ^ exponent
        * (ofBinary mantissa exponent).denominator := by
  have unit := cast_wholePower 2 (by decide) exponent
  have bottom : wholePower 2 52 = 2 ^ 52 := rfl
  have enough : wholePower 2 exponent ≤ mantissa * wholePower 2 exponent :=
    Nat.le_mul_of_pos_left _ positive
  simp only [ofBinary, gapBelow, bottom]
  push_cast at unit
  split
  · rw [Nat.cast_sub (by rw [Nat.mul_assoc]; omega)]
    push_cast
    rw [unit]
    ring
  · rw [Nat.cast_sub (by rw [Nat.mul_assoc]; omega)]
    push_cast
    rw [unit]
    ring

theorem cast_upper (mantissa : Nat) (exponent : Int)
    : ((ofBinary mantissa exponent).upper : ℚ)
      = (mantissa + 1 / 2) * 2 ^ exponent * (ofBinary mantissa exponent).denominator := by
  have unit := cast_wholePower 2 (by decide) exponent
  simp only [ofBinary]
  push_cast at unit ⊢
  rw [unit]
  ring

/-- Fractions are compared over one denominator. -/
theorem scaled_le_iff {n denominator : Nat} {x : ℚ} (multiple : Nat) (power : Int)
    (positive : 0 < denominator) (value : (n : ℚ) = x * 2 ^ exponent * denominator)
    : (n * wholePower 10 (-power) ≤ multiple * wholePower 10 power * denominator
        ↔ x ≤ multiple * 10 ^ power / 2 ^ exponent)
      ∧ (multiple * wholePower 10 power * denominator ≤ n * wholePower 10 (-power)
        ↔ multiple * 10 ^ power / 2 ^ exponent ≤ x) := by
  have ten := cast_wholePower 10 (by decide) power
  have scale : (0 : ℚ) < wholePower 10 (-power) * denominator := by
    exact_mod_cast Nat.mul_pos (wholePower_pos (by decide) _) positive
  have left : (n : ℚ) * wholePower 10 (-power)
      = x * 2 ^ exponent * (wholePower 10 (-power) * denominator) := by
    rw [value]
    ring
  have right : (multiple : ℚ) * wholePower 10 power * denominator
      = multiple * 10 ^ power * (wholePower 10 (-power) * denominator) := by
    push_cast at ten
    rw [ten]
    ring
  constructor
  · rw [← @Nat.cast_le ℚ, le_div_iff₀ (by positivity)]
    push_cast
    rw [left, right, mul_le_mul_iff_left₀ scale]
  · rw [← @Nat.cast_le ℚ, div_le_iff₀ (by positivity)]
    push_cast
    rw [left, right, mul_le_mul_iff_left₀ scale]

/-- The interval covers exactly the decimals that are around the double. -/
theorem covers_iff (positive : 0 < mantissa) (multiple : Nat) (power : Int)
    : (ofBinary mantissa exponent).covers multiple power = true
      ↔ Around (multiple * 10 ^ power) mantissa exponent := by
  have low := scaled_le_iff multiple power
    (denominator_pos mantissa exponent) (cast_lower positive exponent)
  have high := scaled_le_iff multiple power
    (denominator_pos mantissa exponent) (cast_upper mantissa exponent)
  unfold covers
  simp only
  split
  case isTrue closed =>
    have even : mantissa % 2 = 0 := of_decide_eq_true closed
    rw [decide_eq_true_iff, low.1, high.2]
    exact ⟨fun inside => ⟨inside.1, inside.2, fun _ => even⟩,
      fun around => ⟨around.low, around.high⟩⟩
  case isFalse opened =>
    have odd : mantissa % 2 ≠ 0 := fun even => opened (decide_eq_true even)
    rw [decide_eq_true_iff, ← not_le, ← not_le, low.2, high.1]
    constructor
    · rintro ⟨above, below⟩
      refine ⟨le_of_not_ge above, le_of_not_ge below, ?_⟩
      rintro (same | same)
      · exact (above (le_of_eq same)).elim
      · exact (below (le_of_eq same.symm)).elim
    · intro around
      refine ⟨fun least => odd (around.even (.inl ?_)), fun most => odd (around.even (.inr ?_))⟩
      · exact le_antisymm least around.low
      · exact le_antisymm around.high most

-----------------------------------------------------------------------------------------
-- The search
-----------------------------------------------------------------------------------------

theorem around_of_candidate (positive : 0 < mantissa) {multiple : Nat} {power : Int}
    (h : (ofBinary mantissa exponent).candidate power = some multiple)
    : Around (multiple * 10 ^ power) mantissa exponent := by
  rw [← covers_iff positive]
  unfold candidate at h
  simp only at h
  split at h
  case h_1 first second =>
    obtain rfl := Option.some.inj h
    split
    · exact first
    · exact second
  case h_2 first _ =>
    obtain rfl := Option.some.inj h
    exact first
  case h_3 _ second =>
    obtain rfl := Option.some.inj h
    exact second
  case h_4 => cases h

/-- The digits of a positive number tell which powers of ten it lies between. -/
theorem toDigits_bounds {n : Nat} (positive : 0 < n)
    : 10 ^ ((Nat.toDigits 10 n).length - 1) ≤ n ∧ n < 10 ^ (Nat.toDigits 10 n).length := by
  have some : 0 < (Nat.toDigits 10 n).length := Nat.length_toDigits_pos
  constructor
  · by_cases one : (Nat.toDigits 10 n).length - 1 = 0
    · rw [one]
      exact positive
    · by_contra less
      have short :=
        (Nat.length_toDigits_le_iff (by decide) (Nat.pos_of_ne_zero one)).mpr (not_le.mp less)
      omega
  · exact (Nat.length_toDigits_le_iff (by decide) some).mp (le_refl _)

/-- The value has no fewer digits before its point than the magnitude says. -/
theorem zpow_magnitude_le {interval : RoundingInterval} (some : 0 < interval.value)
    (unit : 0 < interval.denominator)
    : (10 : ℚ) ^ (interval.magnitude - 1) * interval.denominator ≤ interval.value := by
  unfold magnitude
  simp only
  generalize guess : ((Nat.toDigits 10 interval.value).length : Int)
    - (Nat.toDigits 10 interval.denominator).length = g
  split
  case isTrue reached =>
    have scale : (0 : ℚ) < wholePower 10 (-g) := by
      exact_mod_cast wholePower_pos (by decide) (-g)
    have ten := cast_wholePower 10 (by decide) g
    have reached : (interval.denominator : ℚ) * wholePower 10 g
        ≤ interval.value * wholePower 10 (-g) := by
      exact_mod_cast reached
    rw [ten, ← mul_assoc, mul_le_mul_iff_left₀ scale] at reached
    rw [Int.add_sub_cancel, mul_comm]
    exact_mod_cast reached
  case isFalse =>
    obtain ⟨bottom, -⟩ := toDigits_bounds some
    obtain ⟨-, top⟩ := toDigits_bounds unit
    have length : 0 < (Nat.toDigits 10 interval.value).length := Nat.length_toDigits_pos
    have top : (interval.denominator : ℚ)
        ≤ 10 ^ (Nat.toDigits 10 interval.denominator).length := by
      exact_mod_cast Nat.le_of_lt top
    have bottom : (10 : ℚ) ^ ((Nat.toDigits 10 interval.value).length - 1) ≤ interval.value := by
      exact_mod_cast bottom
    calc (10 : ℚ) ^ (g - 1) * interval.denominator
        ≤ 10 ^ (g - 1) * 10 ^ (Nat.toDigits 10 interval.denominator).length :=
          mul_le_mul_of_nonneg_left top (by positivity)
      _ = 10 ^ ((Nat.toDigits 10 interval.value).length - 1) := by
          rw [← zpow_natCast, ← zpow_natCast, ← zpow_add₀ (by norm_num)]
          congr 1
          omega
      _ ≤ interval.value := bottom

/-- The multiple below the value, and the next one above it. -/
theorem floor_bounds (mantissa : Nat) (exponent power : Int)
    : ((ofBinary mantissa exponent).floor power : ℚ) * 10 ^ power ≤ mantissa * 2 ^ exponent
      ∧ mantissa * 2 ^ exponent
        < (((ofBinary mantissa exponent).floor power + 1 : Nat) : ℚ) * 10 ^ power := by
  have positive := denominator_pos mantissa exponent
  have unit : 0 < wholePower 10 power * (ofBinary mantissa exponent).denominator :=
    Nat.mul_pos (wholePower_pos (by decide) _) positive
  have scaled := scaled_le_iff ((ofBinary mantissa exponent).floor power) power positive
    (cast_value mantissa exponent)
  have next := scaled_le_iff ((ofBinary mantissa exponent).floor power + 1) power positive
    (cast_value mantissa exponent)
  constructor
  · rw [← div_le_iff₀ (by positivity), ← scaled.2, Nat.mul_assoc]
    exact Nat.div_mul_le_self _ _
  · rw [← lt_div_iff₀ (by positivity), ← not_le, ← next.2, not_le, Nat.mul_assoc,
      Nat.mul_comm (_ + 1)]
    exact Nat.lt_mul_div_succ _ unit

/-- A double lies between two numbers. If they are near each other, as the seventeenth digits of the
double are, one of them is rounded to it.
-/
theorem around_or_around (canonical : Canonical mantissa exponent) {q step : ℚ}
    (below : q ≤ mantissa * 2 ^ exponent) (above : mantissa * 2 ^ exponent < q + step)
    (fine : 10 ^ 16 * step ≤ mantissa * 2 ^ exponent)
    : Around q mantissa exponent ∨ Around (q + step) mantissa exponent := by
  have unit : (0 : ℚ) < 2 ^ exponent := by positivity
  have small : (mantissa : ℚ) < 2 ^ 53 := by exact_mod_cast canonical.small
  have gap := (gapBelow_le mantissa exponent).1
  rw [← div_le_iff₀ unit] at below
  rw [← lt_div_iff₀ unit, add_div] at above
  rw [← div_le_iff₀ unit, mul_div_assoc] at fine
  by_cases near : (mantissa : ℚ) - gapBelow mantissa exponent < q / 2 ^ exponent
  · exact .inl (around_of_lt near (by linarith))
  · right
    refine around_of_lt (by rw [add_div]; linarith) ?_
    rw [add_div]
    -- Otherwise the step is longer than the whole interval around the double.
    by_contra far
    unfold gapBelow at near
    split at near
    case isTrue least =>
      have mantissa_eq : (mantissa : ℚ) = 2 ^ 52 := by exact_mod_cast least.1
      linarith
    case isFalse => linarith

/-- Among the decimals of seventeen digits one is around the double. -/
theorem candidate_ne_none (canonical : Canonical mantissa exponent)
    : (ofBinary mantissa exponent).candidate ((ofBinary mantissa exponent).magnitude - 17)
      ≠ none := by
  have unit := denominator_pos mantissa exponent
  have scale : (0 : ℚ) < (ofBinary mantissa exponent).denominator := by exact_mod_cast unit
  have positive : (0 : ℚ) < mantissa := by exact_mod_cast canonical.positive
  have value := cast_value mantissa exponent
  have some : (0 : ℚ) < (ofBinary mantissa exponent).value := by
    rw [value]
    positivity
  have digits := zpow_magnitude_le (by exact_mod_cast some) unit
  rw [value, mul_le_mul_iff_left₀ scale] at digits
  generalize (ofBinary mantissa exponent).magnitude = magnitude at digits
  obtain ⟨below, above⟩ := floor_bounds mantissa exponent (magnitude - 17)
  have next : ∀ n : Nat, ((n + 1 : Nat) : ℚ) * 10 ^ (magnitude - 17)
      = n * 10 ^ (magnitude - 17) + 10 ^ (magnitude - 17) := by
    intro n
    push_cast
    ring
  have fine : (10 : ℚ) ^ 16 * 10 ^ (magnitude - 17) = 10 ^ (magnitude - 1) := by
    rw [← zpow_natCast, ← zpow_add₀ (by norm_num)]
    congr 1
    norm_num
    omega
  rw [← fine] at digits
  rw [next] at above
  intro none
  unfold candidate at none
  simp only at none
  split at none
  case h_1 | h_2 | h_3 => cases none
  case h_4 far farther =>
    rcases around_or_around canonical below above digits with around | around
    · rw [(covers_iff canonical.positive _ _).mpr around] at far
      cases far
    · rw [← next] at around
      rw [(covers_iff canonical.positive _ _).mpr around] at farther
      cases farther

/-- The shortest decimal of a double is rounded to the double. -/
theorem shortest_around (canonical : Canonical mantissa exponent)
    : Around (ofBinary mantissa exponent).shortest.value mantissa exponent := by
  have last := candidate_ne_none canonical
  unfold shortest
  simp only
  split
  case h_1 multiple power found =>
    obtain ⟨_, _, reached⟩ := List.exists_of_findSome?_eq_some found
    obtain ⟨_, candidate, same⟩ := Option.map_eq_some_iff.mp reached
    obtain ⟨rfl, rfl⟩ := Prod.mk.inj same
    rw [Decimal.trim_value]
    exact around_of_candidate canonical.positive candidate
  case h_2 none =>
    have absent := List.findSome?_eq_none_iff.mp none ((ofBinary mantissa exponent).magnitude - 17)
      (List.mem_map.mpr ⟨16, by decide, by norm_num; omega⟩)
    exact (last (Option.map_eq_none_iff.mp absent)).elim

end RoundingInterval

/-- A decimal that is rounded to a positive double is not zero. -/
theorem Decimal.coefficient_pos {d : Decimal} {mantissa : Nat} {exponent : Int}
    (positive : 0 < mantissa) (around : Number.Around d.value mantissa exponent)
    : 0 < d.coefficient := by
  have near := around.low
  have gap := (Number.gapBelow_le mantissa exponent).2
  have one : (1 : ℚ) ≤ mantissa := by exact_mod_cast positive
  refine Nat.pos_of_ne_zero fun zero => ?_
  rw [Decimal.value, zero] at near
  norm_num at near
  linarith

end Lox
