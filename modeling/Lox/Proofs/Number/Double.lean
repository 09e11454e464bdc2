import Lox.Number.Text
import Lox.Proofs.Number.Rounding

/-! The double of a decimal.
Packing undoes unpacking. Products and quotients are rounded to the double that they are around, and
so the double of a decimal is the one that its value is around.
-/

namespace Lox.Number

open Float.Model Float.Model.UnpackedFloat

theorem unpackSign_packComponents (sign : Sign) (exponent : BitVec 11) (mantissa : BitVec 52)
    : @unpackSign Format.binary64
        (packComponents Format.binary64 sign exponent mantissa) = sign.toBitVec := by
  simp only [unpackSign, packComponents, BitVec.extractLsb]
  ext i bound
  grind

theorem ofBitVec_toBitVec (sign : Sign) : Sign.ofBitVec sign.toBitVec = sign := by
  cases sign <;> rfl

theorem toBitVec_ofBitVec (bit : BitVec 1) : (Sign.ofBitVec bit).toBitVec = bit := by
  revert bit
  decide

/-- A packed double is made of its parts. -/
theorem packComponents_unpack (bits : BitVec 64)
    : packComponents Format.binary64 (Sign.ofBitVec (@unpackSign Format.binary64 bits))
        (@unpackExponent Format.binary64 bits)
        (@unpackMantissa Format.binary64 bits) = bits := by
  simp only [packComponents, toBitVec_ofBitVec, unpackSign, unpackExponent, unpackMantissa,
    BitVec.extractLsb]
  ext i bound
  grind

theorem toNat_one_append (mantissa : BitVec 52)
    : (1#1 ++ mantissa).toNat = 2 ^ 52 + mantissa.toNat := by
  rw [BitVec.toNat_append, ← Nat.shiftLeft_add_eq_or_of_lt mantissa.isLt]
  rfl

theorem log2_of_full {mantissa : Nat} (small : mantissa < 2 ^ 53) (full : 2 ^ 52 ≤ mantissa)
    : mantissa.log2 = 52 :=
  (Nat.log2_eq_iff (by omega)).mpr ⟨full, small⟩

theorem pack_full {sign : Sign} {mantissa : Nat} {exponent : Int} (positive : 0 < mantissa)
    (small : mantissa < 2 ^ 53) (full : 2 ^ 52 ≤ mantissa)
    (low : -1074 ≤ exponent) (high : exponent ≤ 971)
    : UnpackedFloat.pack Format.binary64 (.finite sign mantissa exponent positive)
      = packComponents Format.binary64 sign (BitVec.ofNat 11 (exponent + 1075).toNat)
        (BitVec.ofNat 52 mantissa) := by
  have biased : exponent + (Format.binary64.exponentBias : Int)
      + (Format.binary64.mantissaBitsWithoutImplicit : Int) = exponent + 1075 := by
    norm_num [Format.exponentBias]
    omega
  have bits : (52 : Nat) + 1 = Format.binary64.mantissaBits := rfl
  have range : ¬2 ^ Format.binary64.exponentBits ≤ (exponent + 1075).toNat + 1 := by
    norm_num
    omega
  unfold UnpackedFloat.pack
  simp only [biased, log2_of_full small full]
  rw [if_neg range, if_pos bits]

theorem pack_small {sign : Sign} {mantissa : Nat} (positive : 0 < mantissa)
    (small : mantissa < 2 ^ 52)
    : UnpackedFloat.pack Format.binary64 (.finite sign mantissa (-1074) positive)
      = packComponents Format.binary64 sign 0#11 (BitVec.ofNat 52 mantissa) := by
  have bits : mantissa.log2 + 1 ≠ Format.binary64.mantissaBits := by
    have less := (Nat.log2_lt (Nat.ne_of_gt positive)).mpr small
    norm_num [Format.mantissaBits]
    omega
  have range : ¬2 ^ Format.binary64.exponentBits
      ≤ (-1074 + (Format.binary64.exponentBias : Int)
        + (Format.binary64.mantissaBitsWithoutImplicit : Int)).toNat + 1 := by
    decide
  unfold UnpackedFloat.pack
  simp only
  rw [if_neg range, if_neg bits]

theorem ofNat_one_append (mantissa : BitVec 52)
    : BitVec.ofNat 52 (2 ^ 52 + mantissa.toNat) = mantissa := by
  refine BitVec.eq_of_toNat_eq ?_
  rw [BitVec.toNat_ofNat, Nat.add_mod_left, Nat.mod_eq_of_lt mantissa.isLt]

theorem normal_exponent {exponent : BitVec 11} (finite : exponent ≠ -1#11) (some : exponent ≠ 0#11)
    : 1 ≤ exponent.toNat ∧ exponent.toNat ≤ 2046 := by
  have bound := exponent.isLt
  have low : exponent.toNat ≠ 0 := fun zero => some (BitVec.eq_of_toNat_eq zero)
  have high : exponent.toNat ≠ 2047 := fun top => finite (BitVec.eq_of_toNat_eq top)
  omega

/-- Packing gives back the bits that were unpacked, by the cases of unpacking. -/
theorem pack_unpack_bits (bits : BitVec 64) (valid : Format.binary64.Valid bits)
    : UnpackedFloat.pack Format.binary64 (UnpackedFloat.unpack Format.binary64 bits) = bits := by
  have parts := packComponents_unpack bits
  unfold UnpackedFloat.unpack
  simp only
  split
  case isTrue last =>
    split
    case isTrue none =>
      rw [last, none] at parts
      exact parts
    case isFalse some => exact (valid.eq_packedNaN last some).symm
  case isFalse finite =>
    split
    case isTrue first =>
      split
      case isTrue none =>
        rw [first, none] at parts
        exact parts
      case isFalse some =>
        have exponent : ((@unpackExponent Format.binary64 bits).toNat : Int)
            - (Format.binary64.exponentBias + Format.binary64.mantissaBitsWithoutImplicit) + 1
            = -1074 := by
          rw [first]
          rfl
        simp only [exponent]
        rw [pack_small _ (BitVec.isLt _), BitVec.ofNat_toNat, BitVec.setWidth_eq]
        rw [first] at parts
        exact parts
    case isFalse some =>
      have range := normal_exponent finite some
      have small := (@unpackMantissa Format.binary64 bits).isLt
      have exponent : ((@unpackExponent Format.binary64 bits).toNat : Int)
          - (Format.binary64.exponentBias + Format.binary64.mantissaBitsWithoutImplicit)
          = (@unpackExponent Format.binary64 bits).toNat - 1075 := rfl
      have whole := toNat_one_append (@unpackMantissa Format.binary64 bits)
      have biased : ((@unpackExponent Format.binary64 bits).toNat - 1075 + 1075 : Int).toNat
          = (@unpackExponent Format.binary64 bits).toNat := by omega
      simp only [exponent]
      rw [pack_full _ (by omega) (by omega) (by omega) (by omega), biased, whole,
        ofNat_one_append, BitVec.ofNat_toNat, BitVec.setWidth_eq]
      exact parts

theorem pack_unpack (x : Float.Model) : Float.Model.pack x.unpack = x := by
  obtain ⟨bits, valid⟩ := x
  simp only [Float.Model.pack, Float.Model.unpack, Float.Model.mk.injEq]
  exact congrArg UInt64.ofBitVec (pack_unpack_bits _ valid)

theorem ofModel_pack {x : Float} {unpacked : UnpackedFloat} (h : x.toModel.unpack = unpacked)
    : Float.ofModel (Float.Model.pack unpacked) = x := by
  rw [← h, pack_unpack]

/-- An unpacked double is canonical, and its exponent is not too large. -/
theorem canonical_of_unpack {x : Float.Model} {sign : Sign} {mantissa : Nat} {exponent : Int}
    {positive : 0 < mantissa} (h : x.unpack = .finite sign mantissa exponent positive)
    : Canonical mantissa exponent ∧ exponent ≤ 971 := by
  unfold Float.Model.unpack UnpackedFloat.unpack at h
  simp only at h
  split at h
  case isTrue => split at h <;> cases h
  case isFalse finite =>
    have small : (@unpackMantissa Format.binary64 x.toBits.toBitVec).toNat < 2 ^ 52 :=
      BitVec.isLt _
    split at h
    case isTrue first =>
      split at h
      case isTrue => cases h
      case isFalse some =>
        obtain ⟨-, rfl, rfl⟩ := UnpackedFloat.finite.inj h
        rw [first]
        exact ⟨⟨positive, by omega, by decide, .inl rfl⟩, by decide⟩
    case isFalse some =>
      have range := normal_exponent finite some
      have whole := toNat_one_append (@unpackMantissa Format.binary64 x.toBits.toBitVec)
      obtain ⟨-, rfl, rfl⟩ := UnpackedFloat.finite.inj h
      have exponent : ((@unpackExponent Format.binary64 x.toBits.toBitVec).toNat : Int)
          - (Format.binary64.exponentBias + Format.binary64.mantissaBitsWithoutImplicit)
          = (@unpackExponent Format.binary64 x.toBits.toBitVec).toNat - 1075 := rfl
      rw [exponent]
      exact ⟨⟨positive, by omega, by omega, .inr (by omega)⟩, by omega⟩

/-- A double with a full mantissa is unpacked as it was packed. -/
theorem unpack_pack_full {sign : Sign} {mantissa : Nat} {exponent : Int} (positive : 0 < mantissa)
    (small : mantissa < 2 ^ 53) (full : 2 ^ 52 ≤ mantissa)
    (low : -1074 ≤ exponent) (high : exponent ≤ 971)
    : (Float.Model.pack (.finite sign mantissa exponent positive)).unpack
      = .finite sign mantissa exponent positive := by
  have biased : (BitVec.ofNat 11 (exponent + 1075).toNat).toNat = (exponent + 1075).toNat := by
    rw [BitVec.toNat_ofNat, Nat.mod_eq_of_lt (by omega)]
  have finite : BitVec.ofNat 11 (exponent + 1075).toNat ≠ -1#11 := by
    intro last
    have top := congrArg BitVec.toNat last
    rw [biased] at top
    norm_num at top
    omega
  have some : BitVec.ofNat 11 (exponent + 1075).toNat ≠ 0#11 := by
    intro first
    have bottom := congrArg BitVec.toNat first
    rw [biased] at bottom
    norm_num at bottom
    omega
  have whole : (1#1 ++ BitVec.ofNat 52 mantissa).toNat = mantissa := by
    rw [toNat_one_append, BitVec.toNat_ofNat]
    omega
  unfold Float.Model.unpack Float.Model.pack
  simp only [pack_full positive small full low high]
  unfold UnpackedFloat.unpack
  simp only [unpackExponent_packComponents, unpackMantissa_packComponents,
    unpackSign_packComponents, ofBitVec_toBitVec]
  rw [if_neg finite, if_neg some]
  simp only [whole, biased]
  congr 1
  change ((exponent + 1075).toNat : Int) - 1075 = exponent
  omega

/-- A double with the smallest exponent and a mantissa that is not full, likewise. -/
theorem unpack_pack_small {sign : Sign} {mantissa : Nat} (positive : 0 < mantissa)
    (small : mantissa < 2 ^ 52)
    : (Float.Model.pack (.finite sign mantissa (-1074) positive)).unpack
      = .finite sign mantissa (-1074) positive := by
  have whole : (BitVec.ofNat 52 mantissa).toNat = mantissa := by
    rw [BitVec.toNat_ofNat, Nat.mod_eq_of_lt small]
  have some : BitVec.ofNat 52 mantissa ≠ 0#52 := by
    intro none
    have zero := congrArg BitVec.toNat none
    rw [whole] at zero
    exact Nat.ne_of_gt positive zero
  unfold Float.Model.unpack Float.Model.pack
  simp only [pack_small positive small]
  unfold UnpackedFloat.unpack
  simp only [unpackExponent_packComponents, unpackMantissa_packComponents,
    unpackSign_packComponents, ofBitVec_toBitVec]
  rw [if_neg (by decide), if_pos trivial, dif_neg some]
  simp only [whole]
  rfl

theorem unpack_pack {sign : Sign} {mantissa : Nat} {exponent : Int}
    (canonical : Canonical mantissa exponent) (high : exponent ≤ 971)
    : (Float.Model.pack (.finite sign mantissa exponent canonical.positive)).unpack
      = .finite sign mantissa exponent canonical.positive := by
  by_cases full : 2 ^ 52 ≤ mantissa
  · exact unpack_pack_full _ canonical.small full canonical.low high
  · obtain rfl := canonical.full.resolve_right full
    exact unpack_pack_small _ (not_le.mp full)

-----------------------------------------------------------------------------------------
-- Products and quotients
-----------------------------------------------------------------------------------------

variable {q : ℚ} {mantissa m n : Nat} {exponent e f : Int}

theorem mul_eq (canonical : Canonical mantissa exponent) (around : Around q mantissa exponent)
    (mPositive : 0 < m) (nPositive : 0 < n)
    (value : q = m * 2 ^ e * (n * 2 ^ f))
    (enough : 2 ^ 52 ≤ m * n)
    : UnpackedFloat.mul Format.binary64 (.finite .positive m e mPositive)
        (.finite .positive n f nPositive)
      = .finite .positive mantissa exponent canonical.positive := by
  have bits : 52 ≤ (m * n).log2 := (Nat.le_log2 (by omega)).mpr enough
  refine roundWithAccuracy_eq (q := q) _ canonical around ?_ ?_
  · change q / 2 ^ (e + f) = (m * n : Nat)
    rw [value, zpow_add₀ (by norm_num)]
    push_cast
    field_simp
  · rw [targetExponent_eq]
    omega

/-- The quotient of whole numbers with its remainder tells where the rational quotient lies. -/
theorem locates_div (m : Nat) {n : Nat} (positive : 0 < n)
    : Locates (ExtendedMantissa.ofMantissaAndAccuracy (m / n) (accuracyOfFraction (m % n) n))
        (m / n) := by
  have unit : (0 : ℚ) < n := by exact_mod_cast positive
  have split : (m : ℚ) / n = (m / n : Nat) + (m % n : Nat) / n := by
    have whole : (m : ℚ) = n * (m / n : Nat) + (m % n : Nat) := by
      exact_mod_cast (Nat.div_add_mod m n).symm
    rw [div_eq_iff (ne_of_gt unit), add_mul, div_mul_cancel₀ _ (ne_of_gt unit)]
    linarith
  have less : ((m % n : Nat) : ℚ) < n := by exact_mod_cast Nat.mod_lt m positive
  rw [split]
  generalize m % n = rest at less
  unfold accuracyOfFraction
  split
  case isTrue zero =>
    subst zero
    simp [ExtendedMantissa.ofMantissaAndAccuracy, Locates]
  case isFalse more =>
    have some : (0 : ℚ) < rest := by exact_mod_cast Nat.pos_of_ne_zero more
    have fraction : 0 < (rest : ℚ) / n ∧ (rest : ℚ) / n < 1 :=
      ⟨by positivity, (div_lt_one unit).mpr less⟩
    cases order : compare (2 * rest) n with
    | lt =>
        have half : 2 * (rest : ℚ) < n := by exact_mod_cast Nat.compare_eq_lt.mp order
        have bound : (rest : ℚ) / n < 1 / 2 := by
          rw [div_lt_iff₀ unit]
          linarith
        simp only [ExtendedMantissa.ofMantissaAndAccuracy, Locates]
        constructor <;> linarith [fraction.1]
    | eq =>
        have half : 2 * (rest : ℚ) = n := by exact_mod_cast Nat.compare_eq_eq.mp order
        have same : (rest : ℚ) / n = 1 / 2 := by
          rw [div_eq_iff (ne_of_gt unit)]
          linarith
        simp only [ExtendedMantissa.ofMantissaAndAccuracy, Locates, same]
    | gt =>
        have half : (n : ℚ) < 2 * rest := by exact_mod_cast Nat.compare_eq_gt.mp order
        have bound : 1 / 2 < (rest : ℚ) / n := by
          rw [lt_div_iff₀ unit]
          linarith
        simp only [ExtendedMantissa.ofMantissaAndAccuracy, Locates]
        constructor <;> linarith [fraction.2]

theorem targetExponent_sub (m n : Nat) (e f : Int)
    : Format.binary64.targetExponent (totalExponent m e - totalExponent n f)
      = max (m.log2 + e - n.log2 - f - 53) (-1074) := by
  simp only [Format.targetExponent, totalExponent, Format.mantissaBits, Format.minExponent]
  norm_num
  omega

/-- A dividend that is shifted far enough has a quotient of at least 53 bits. -/
theorem le_log2_div {shift : Nat} (mPositive : 0 < m) (nPositive : 0 < n)
    (far : n.log2 + 53 ≤ m.log2 + shift)
    : 52 ≤ ((m <<< shift) / n).log2 := by
  have dividend : 2 ^ (m.log2 + shift) ≤ m <<< shift := by
    rw [Nat.shiftLeft_eq, Nat.pow_add]
    exact Nat.mul_le_mul_right _ (Nat.log2_self_le (Nat.ne_of_gt mPositive))
  have divisor : 2 ^ 52 * n ≤ 2 ^ (n.log2 + 53) := by
    have less := Nat.le_of_lt (Nat.lt_log2_self (n := n))
    calc 2 ^ 52 * n ≤ 2 ^ 52 * 2 ^ (n.log2 + 1) := Nat.mul_le_mul_left _ less
      _ = 2 ^ (n.log2 + 53) := by rw [← Nat.pow_add]; congr 1; omega
  have more : 2 ^ (n.log2 + 53) ≤ 2 ^ (m.log2 + shift) :=
    Nat.pow_le_pow_right (by decide) far
  have quotient : 2 ^ 52 ≤ (m <<< shift) / n :=
    (Nat.le_div_iff_mul_le nPositive).mpr (by omega)
  exact (Nat.le_log2 (by omega)).mpr quotient

theorem div_eq (canonical : Canonical mantissa exponent) (around : Around q mantissa exponent)
    (mPositive : 0 < m) (nPositive : 0 < n)
    (value : q = m * 2 ^ e / (n * 2 ^ f))
    : UnpackedFloat.div Format.binary64 (.finite .positive m e mPositive)
        (.finite .positive n f nPositive)
      = .finite .positive mantissa exponent canonical.positive := by
  have unit : (0 : ℚ) < n := by exact_mod_cast nPositive
  simp only [UnpackedFloat.div, divCore, targetExponent_sub]
  generalize target : min (e - f) (max (m.log2 + e - n.log2 - f - 53) (-1074)) = t
  generalize amount : (e - f - t).toNat = shift
  have scaled : q / 2 ^ t = ((m <<< shift : Nat) : ℚ) / n := by
    have power : (2 : ℚ) ^ (shift : Nat) = 2 ^ e / 2 ^ f / 2 ^ t := by
      rw [← zpow_natCast, ← zpow_sub₀ (by norm_num), ← zpow_sub₀ (by norm_num)]
      congr 1
      omega
    rw [value, Nat.shiftLeft_eq]
    push_cast
    rw [power]
    field_simp
  refine roundWithAccuracy_eq (q := q) _ canonical around ?_ ?_
  · rw [scaled]
    exact locates_div (m <<< shift) nPositive
  · rw [targetExponent_eq]
    by_cases low : t ≤ -1074
    · omega
    · have bits : 52 ≤ ((m <<< shift) / n).log2 := le_log2_div mPositive nPositive (by omega)
      omega

-----------------------------------------------------------------------------------------
-- Whole numbers and powers of ten
-----------------------------------------------------------------------------------------

/-- A whole number of at most 53 bits with its highest bit moved to the front. -/
def leftAligned (n : Nat) : Nat :=
  n <<< (52 - n.log2)

theorem leftAligned_pos (positive : 0 < n) : 0 < leftAligned n := by
  rw [leftAligned, Nat.shiftLeft_eq]
  positivity

theorem leftAligned_bounds (positive : 0 < n) (small : n < 2 ^ 53)
    : 2 ^ 52 ≤ leftAligned n ∧ leftAligned n < 2 ^ 53 := by
  have bits : n.log2 < 53 := (Nat.log2_lt (Nat.ne_of_gt positive)).mpr small
  have low := Nat.log2_self_le (Nat.ne_of_gt positive)
  have high := Nat.lt_log2_self (n := n)
  have scale : 2 ^ n.log2 * 2 ^ (52 - n.log2) = 2 ^ 52 := by
    rw [← Nat.pow_add]
    congr 1
    omega
  have next : 2 ^ (n.log2 + 1) * 2 ^ (52 - n.log2) = 2 ^ 53 := by
    rw [← Nat.pow_add]
    congr 1
    omega
  rw [leftAligned, Nat.shiftLeft_eq, ← scale, ← next]
  exact ⟨Nat.mul_le_mul_right _ low, Nat.mul_lt_mul_of_pos_right high (Nat.two_pow_pos _)⟩

theorem canonical_leftAligned (positive : 0 < n) (small : n < 2 ^ 53) (low : -1074 ≤ e)
    : Canonical (leftAligned n) e where
  positive := leftAligned_pos positive
  small := (leftAligned_bounds positive small).2
  low := low
  full := .inr (leftAligned_bounds positive small).1

theorem leftAligned_value (n : Nat)
    : (leftAligned n : ℚ) * 2 ^ (-((52 - n.log2 : Nat) : Int)) = n := by
  rw [leftAligned, Nat.shiftLeft_eq, zpow_neg, zpow_natCast]
  push_cast
  field_simp

theorem around_self (mantissa : Nat) (exponent : Int)
    : Around (mantissa * 2 ^ exponent) mantissa exponent := by
  have gap := (gapBelow_le mantissa exponent).1
  have same : (mantissa : ℚ) * 2 ^ exponent / 2 ^ exponent = mantissa := by field_simp
  exact around_of_lt (by linarith) (by linarith)

/-- Whole numbers of at most 53 bits are doubles. -/
theorem unpack_toFloat (positive : 0 < n) (small : n < 2 ^ 53)
    : n.toUInt64.toFloat.toModel.unpack
      = .finite .positive (leftAligned n) (-((52 - n.log2 : Nat) : Int))
          (leftAligned_pos positive) := by
  have bits : n.log2 < 53 := (Nat.log2_lt (Nat.ne_of_gt positive)).mpr small
  have canonical : Canonical (leftAligned n) (-((52 - n.log2 : Nat) : Int)) :=
    canonical_leftAligned positive small (by omega)
  have same : n.toUInt64.toNat = n := by
    rw [Nat.toUInt64_eq, UInt64.toNat_ofNat', Nat.mod_eq_of_lt (by omega)]
  have target : Format.binary64.targetExponent (totalExponent n 0) = n.log2 - 52 := by
    rw [targetExponent_eq]
    omega
  have amount : ((0 : Int) - (n.log2 - 52)).toNat = 52 - n.log2 := by omega
  have exponent : (0 : Int) - (52 - n.log2 : Nat) = -((52 - n.log2 : Nat) : Int) := by omega
  have rounded : UnpackedFloat.round Format.binary64 .positive n 0
      = .finite .positive (leftAligned n) (-((52 - n.log2 : Nat) : Int)) canonical.positive := by
    unfold UnpackedFloat.round
    simp only [target, decreaseExponent, amount, exponent]
    refine roundWithAccuracy_eq _ canonical (around_self _ _) ?_ ?_
    · change _ / _ = (leftAligned n : ℚ)
      field_simp
    · rw [targetExponent_eq, ← leftAligned,
        log2_of_full canonical.small (leftAligned_bounds positive small).1]
      omega
  change (Float.Model.pack (UnpackedFloat.ofNat Format.binary64 n.toUInt64.toNat)).unpack = _
  rw [same, UnpackedFloat.ofNat, UnpackedFloat.ofInt, UnpackedFloat.normalize,
    Int.compare_eq_gt.mpr (by omega)]
  simp only [Int.toNat_natCast, rounded]
  exact unpack_pack_full _ canonical.small (leftAligned_bounds positive small).1 canonical.low
    (by omega)

/-- The powers of ten in the table, by evaluation. -/
theorem powerOfTen_eq
    : ∀ power : Fin Float.exactlyRepresentablePowersOfTen.size,
      Float.exactlyRepresentablePowersOfTen[power.val]
        = .ofModel (.pack (.finite .positive (leftAligned (5 ^ power.val))
            (power.val + -((52 - (5 ^ power.val).log2 : Nat) : Int))
            (leftAligned_pos (Nat.pow_pos (Nat.succ_pos 4))))) := by
  decide

theorem unpack_powerOfTen {power : Nat} (h : power < Float.exactlyRepresentablePowersOfTen.size)
    : Float.exactlyRepresentablePowersOfTen[power].toModel.unpack
      = .finite .positive (leftAligned (5 ^ power))
          (power + -((52 - (5 ^ power).log2 : Nat) : Int))
          (leftAligned_pos (Nat.pow_pos (Nat.succ_pos 4))) := by
  have short : power ≤ 22 := Nat.le_of_lt_succ h
  have small : 5 ^ power < 2 ^ 53 :=
    Nat.lt_of_le_of_lt (Nat.pow_le_pow_right (by decide) short) (by decide)
  have bounds := leftAligned_bounds (n := 5 ^ power) (by positivity) small
  rw [powerOfTen_eq ⟨power, h⟩]
  simp only
  exact unpack_pack_full _ bounds.2 bounds.1 (by omega) (by omega)

end Lox.Number

namespace Lox.Decimal

open Float.Model Float.Model.UnpackedFloat Number

/-- The number that a decimal is. -/
def value (d : Decimal) : ℚ :=
  d.coefficient * 10 ^ d.exponent

variable {d : Decimal} {mantissa : Nat} {exponent : Int}

theorem ofScientific_fast {n power : Nat} {q : ℚ} {negative : Bool}
    (positive : 0 < n) (small : n < 2 ^ 53) (short : power ≤ 22)
    (canonical : Canonical mantissa exponent) (around : Around q mantissa exponent)
    (value : q = if negative then (n : ℚ) / 10 ^ power else n * 10 ^ power)
    : Float.ofScientific n negative power
      = .ofModel (.pack (.finite .positive mantissa exponent canonical.positive)) := by
  have first := unpack_toFloat positive small
  have inside : power < Float.exactlyRepresentablePowersOfTen.size := Nat.lt_succ_of_le short
  have second := unpack_powerOfTen inside
  have full := (leftAligned_bounds positive small).1
  have ten : (leftAligned (5 ^ power) : ℚ) * 2 ^ (power + -((52 - (5 ^ power).log2 : Nat) : Int))
      = 10 ^ power := by
    rw [zpow_add₀ (by norm_num), mul_left_comm, leftAligned_value, zpow_natCast]
    push_cast
    rw [← mul_pow]
    norm_num
  unfold Float.ofScientific
  rw [dif_pos ⟨small, short⟩]
  cases negative with
  | true =>
      simp only [if_true] at value ⊢
      refine congrArg Float.ofModel (congrArg Float.Model.pack ?_)
      rw [first, second]
      refine div_eq canonical around _ _ ?_
      rw [leftAligned_value, ten, value]
  | false =>
      simp only [Bool.false_eq_true, if_false] at value ⊢
      refine congrArg Float.ofModel (congrArg Float.Model.pack ?_)
      rw [first, second]
      refine mul_eq canonical around _ _ ?_ ?_
      · rw [leftAligned_value, ten, value]
      · exact Nat.le_trans full (Nat.le_mul_of_pos_right _ (leftAligned_pos (by positivity)))

theorem ofScientific_slow {n : Nat} {power : Int} {q : ℚ}
    (positive : 0 < n)
    (canonical : Canonical mantissa exponent) (around : Around q mantissa exponent)
    (value : q = n * 10 ^ power)
    (high : power ≤ 2 ^ 11) (low : -(2 ^ 11 + n.log2) ≤ power)
    : UnpackedFloat.ofScientific Format.binary64 n power
      = .finite .positive mantissa exponent canonical.positive := by
  unfold UnpackedFloat.ofScientific
  rw [dif_neg (Nat.ne_of_gt positive), if_neg (not_lt.mpr high), if_neg (not_lt.mpr low)]
  have bits : Format.binary64.mantissaBits = 53 := rfl
  split
  case isTrue whole =>
    refine mul_eq canonical around _ _ ?_ ?_
    · have ten : (10 : ℚ) ^ power = 10 ^ power.toNat := by
        rw [← zpow_natCast]
        congr 1
        omega
      rw [value, ten, bits, Nat.shiftLeft_eq, zpow_neg, zpow_natCast]
      push_cast
      field_simp
      norm_num
    · rw [bits, Nat.shiftLeft_eq]
      have ten : 0 < 10 ^ power.toNat := by positivity
      nlinarith
  case isFalse fraction =>
    refine div_eq canonical around _ _ ?_
    have ten : (10 : ℚ) ^ power = 1 / 10 ^ (-power).toNat := by
      rw [← zpow_natCast, one_div, ← zpow_neg]
      congr 1
      omega
    rw [value, ten]
    push_cast
    ring

theorem two_zpow_le_ten_zpow {k : Int} (h : 0 ≤ k) : (2 : ℚ) ^ k ≤ 10 ^ k :=
  zpow_le_zpow_left₀ h (by norm_num) (by norm_num)

/-- The power of ten of a decimal around a double is not beyond the powers of doubles. -/
theorem exponent_bounds (canonical : Canonical mantissa exponent) (high : exponent ≤ 971)
    (around : Around d.value mantissa exponent) (positive : 0 < d.coefficient)
    : d.exponent ≤ 2 ^ 11 ∧ -(2 ^ 11 + d.coefficient.log2) ≤ d.exponent := by
  have one : (1 : ℚ) ≤ d.coefficient := by exact_mod_cast positive
  constructor
  · by_contra large
    have top := around.lt_zpow canonical
    have bottom : (2 : ℚ) ^ d.exponent ≤ d.value := by
      have power : (2 : ℚ) ^ d.exponent ≤ 10 ^ d.exponent := two_zpow_le_ten_zpow (by omega)
      have unit : (0 : ℚ) < 10 ^ d.exponent := by positivity
      unfold Decimal.value
      nlinarith
    have order := lt_of_zpow_le bottom top
    omega
  · by_contra small
    have top : d.value < 2 ^ ((d.coefficient.log2 + 1 : Int) + d.exponent) := by
      have bound : (d.coefficient : ℚ) < 2 ^ (d.coefficient.log2 + 1) := by
        exact_mod_cast Nat.lt_log2_self (n := d.coefficient)
      have power : (10 : ℚ) ^ d.exponent ≤ 2 ^ d.exponent := by
        have inverse := two_zpow_le_ten_zpow (k := -d.exponent) (by omega)
        rw [zpow_neg, zpow_neg] at inverse
        exact (inv_le_inv₀ (by positivity) (by positivity)).mp inverse
      have unit : (0 : ℚ) < 10 ^ d.exponent := by positivity
      rw [zpow_add₀ (by norm_num)]
      unfold Decimal.value
      refine lt_of_lt_of_le (mul_lt_mul_of_pos_right bound unit) ?_
      exact_mod_cast mul_le_mul_of_nonneg_left power (by positivity)
    have bottom : (2 : ℚ) ^ (-1 + exponent) ≤ d.value := by
      have one : (1 : ℚ) ≤ mantissa := by exact_mod_cast canonical.positive
      have gap := (gapBelow_le mantissa exponent).2
      refine zpow_add_le (le_trans ?_ around.low)
      norm_num
      linarith
    have order := lt_of_zpow_le bottom top
    have first := canonical.low
    omega

/-- The double of a decimal is the one that its value is around. -/
theorem toFloat_eq {x : Float} {sign : Sign} {xPositive : 0 < mantissa}
    (unpacked : x.toModel.unpack = .finite sign mantissa exponent xPositive)
    (positive : 0 < d.coefficient) (around : Around d.value mantissa exponent)
    : d.toFloat = .ofModel (.pack (.finite .positive mantissa exponent xPositive)) := by
  obtain ⟨canonical, high⟩ := canonical_of_unpack unpacked
  obtain ⟨top, bottom⟩ := exponent_bounds canonical high around positive
  unfold Decimal.toFloat
  by_cases fast : d.coefficient < 2 ^ 53 ∧ d.exponent.natAbs ≤ 22
  · refine ofScientific_fast positive fast.1 fast.2 canonical around ?_
    unfold Decimal.value
    by_cases negative : d.exponent < 0
    · have power : d.exponent = -(d.exponent.natAbs : Int) := by omega
      simp only [negative, decide_true, if_true]
      rw [power, zpow_neg, Int.natAbs_neg, Int.natAbs_natCast, zpow_natCast, div_eq_mul_inv]
    · have power : d.exponent = (d.exponent.natAbs : Int) := by omega
      simp only [negative, decide_false, Bool.false_eq_true, if_false]
      rw [power, Int.natAbs_natCast, zpow_natCast]
  · unfold Float.ofScientific
    rw [dif_neg fast]
    have power : (if decide (d.exponent < 0) = true then Int.negOfNat d.exponent.natAbs
        else Int.ofNat d.exponent.natAbs) = d.exponent := by
      split
      case isTrue negative =>
        have less := of_decide_eq_true negative
        rw [Int.negOfNat_eq]
        change -(d.exponent.natAbs : Int) = d.exponent
        omega
      case isFalse whole =>
        have more : ¬d.exponent < 0 := fun less => whole (decide_eq_true less)
        change (d.exponent.natAbs : Int) = d.exponent
        omega
    simp only [power]
    refine congrArg Float.ofModel (congrArg Float.Model.pack ?_)
    exact ofScientific_slow positive canonical around rfl top bottom

/-- Zero has the same double, whatever the power of ten is. -/
theorem toFloat_zero (h : d.coefficient = 0)
    : d.toFloat = .ofModel (.pack (.zero .positive)) := by
  unfold Decimal.toFloat
  rw [h]
  generalize decide (d.exponent < 0) = negative
  generalize d.exponent.natAbs = power
  unfold Float.ofScientific
  split
  case isTrue fast =>
    have inside : power < Float.exactlyRepresentablePowersOfTen.size :=
      Nat.lt_succ_of_le fast.2
    have first : (0 : Nat).toUInt64.toFloat.toModel.unpack = .zero .positive := rfl
    have second := unpack_powerOfTen inside
    simp only
    split
    · refine congrArg Float.ofModel (congrArg Float.Model.pack ?_)
      rw [first, second]
      rfl
    · refine congrArg Float.ofModel (congrArg Float.Model.pack ?_)
      rw [first, second]
      rfl
  case isFalse => rfl

end Lox.Decimal
