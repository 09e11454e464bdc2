import Lox.Proofs.Json.Numbers
import Lox.Proofs.Lexicon.Terminal

/-! Plain texts of decimals.
A decimal without zeros at its end has a plain text without zeros at its end. Its plain and its
natural text denote the same number, whatever its digits and its exponent are.
-/

namespace Lox

namespace Number

open Lexicon

/-- A zero, or digits with no zero in front. -/
inductive PlainWhole : List Char → Prop where
  | zero
      : PlainWhole ['0']
  | digits {first : Char} {others : List Char}
      (digit : Digit first)
      (nonzero : first ≠ '0')
      (behind : ∀ c ∈ others, Digit c)
      : PlainWhole (first :: others)

/-- Nothing, or a point with digits behind it, the last of which is no zero. -/
inductive PlainFraction : List Char → Prop where
  | none
      : PlainFraction []
  | digits {others : List Char} {last : Char}
      (before : ∀ c ∈ others, Digit c)
      (digit : Digit last)
      (nonzero : last ≠ '0')
      : PlainFraction ('.' :: (others ++ [last]))

/-- A number as programs print it. -/
inductive PlainForm : List Char → Prop where
  | unsigned {whole fraction : List Char}
      (before : PlainWhole whole)
      (after : PlainFraction fraction)
      : PlainForm (whole ++ fraction)
  | negative {whole fraction : List Char}
      (before : PlainWhole whole)
      (after : PlainFraction fraction)
      : PlainForm ('-' :: (whole ++ fraction))

/-- The power of ten that a sign and digits denote. -/
def powerOf : List Char → Int
  | '-' :: digits => -Nat.ofDigitChars 10 digits 0
  | '+' :: digits => Nat.ofDigitChars 10 digits 0
  | digits => Nat.ofDigitChars 10 digits 0

/-- The number that a text without a sign denotes: digits, a point with more of them, and an `e`
with a power of ten. The point and the `e` may be absent.
-/
def unsignedValue (text : List Char) : ℚ :=
  let mantissa := text.takeWhile (· != 'e')
  let power := (text.dropWhile (· != 'e')).drop 1
  let whole := mantissa.takeWhile (· != '.')
  let fraction := (mantissa.dropWhile (· != '.')).drop 1
  Nat.ofDigitChars 10 (whole ++ fraction) 0 * 10 ^ (powerOf power - fraction.length)

/-- The number that a text denotes. -/
def valueOf : List Char → ℚ
  | '-' :: text => -unsignedValue text
  | text => unsignedValue text

end Number

namespace Decimal

/-- The coefficient does not end in zero, unless the decimal is zero. -/
def Trimmed (d : Decimal) : Prop :=
  d = ⟨0, 0⟩ ∨ d.coefficient % 10 ≠ 0

theorem trimmed_trim (coefficient : Nat) (exponent : Int)
    : (trim coefficient exponent).Trimmed := by
  fun_induction trim coefficient exponent with
  | case1 => exact .inl rfl
  | case2 _ _ _ _ ih => exact ih
  | case3 _ _ _ last => exact .inr last

end Decimal

theorem RoundingInterval.trimmed_shortest (interval : RoundingInterval)
    : interval.shortest.Trimmed := by
  unfold shortest
  simp only
  split
  · exact Decimal.trimmed_trim _ _
  · exact Decimal.trimmed_trim _ _

-----------------------------------------------------------------------------------------
-- What the parts of a number denote
-----------------------------------------------------------------------------------------

namespace Number

open Json Lexicon

theorem powerOf_powerText (power : Int) : powerOf (Decimal.powerText power) = power := by
  rw [powerText_eq]
  split
  · rw [powerOf, ofDigitChars_powerDigits]
    omega
  · rw [powerOf, ofDigitChars_powerDigits]
    omega

theorem bne_of_isDigit (mark : Char) (other : mark.isDigit = false) {digits : List Char}
    (all : ∀ c ∈ digits, c.isDigit = true)
    : ∀ c ∈ digits, (c != mark) = true := by
  intro c member
  rw [bne_iff_ne]
  rintro rfl
  rw [all c member] at other
  cases other

theorem isDigit_whole {parts : Parts} (valid : parts.Valid)
    : ∀ c ∈ parts.whole, c.isDigit = true := by
  rcases valid.whole with zero | ⟨-, all⟩
  · rw [zero]
    exact isDigit_replicate_zero 1
  · exact all

/-- The characters up to the point, and the digits behind it. -/
theorem cut_point {parts : Parts} (valid : parts.Valid)
    : (parts.whole ++ Parts.fractionText parts.fraction).takeWhile (· != '.') = parts.whole
      ∧ ((parts.whole ++ Parts.fractionText parts.fraction).dropWhile (· != '.')).drop 1
        = parts.fraction.getD [] := by
  have whole := bne_of_isDigit '.' rfl (isDigit_whole valid)
  rw [List.takeWhile_append_of_pos whole, List.dropWhile_append_of_pos whole]
  cases parts.fraction <;> simp [Parts.fractionText]

/-- The characters up to the `e`, and the power of ten behind it. -/
theorem cut_mark {parts : Parts} (valid : parts.Valid)
    : parts.text.takeWhile (· != 'e') = parts.whole ++ Parts.fractionText parts.fraction
      ∧ powerOf ((parts.text.dropWhile (· != 'e')).drop 1) = parts.power.getD 0 := by
  have whole := bne_of_isDigit 'e' rfl (isDigit_whole valid)
  have fraction : ∀ c ∈ Parts.fractionText parts.fraction, (c != 'e') = true := by
    intro c member
    cases found : parts.fraction with
    | none =>
        rw [found] at member
        cases member
    | some digits =>
        rw [found] at member
        rcases List.mem_cons.mp member with rfl | member
        · rfl
        · exact bne_of_isDigit 'e' rfl (valid.fraction digits found).2 c member
  rw [Parts.text, List.takeWhile_append_of_pos whole, List.takeWhile_append_of_pos fraction,
    List.dropWhile_append_of_pos whole, List.dropWhile_append_of_pos fraction]
  cases parts.power with
  | none => simp [Parts.powerText, powerOf]
  | some power => simp [Parts.powerText, powerOf_powerText]

/-- The text of a number denotes the decimal that its parts make. -/
theorem unsignedValue_text {parts : Parts} (valid : parts.Valid)
    : unsignedValue parts.text = parts.decimal.value := by
  obtain ⟨mantissa, power⟩ := cut_mark valid
  obtain ⟨whole, fraction⟩ := cut_point valid
  simp only [unsignedValue, mantissa, power, whole, fraction, Parts.decimal, Decimal.ofDigits,
    Decimal.value]
  rw [Int.add_comm]
  rfl

/-- What a digit begins has no sign. -/
theorem valueOf_of_digit {c : Char} (digit : c.isDigit = true) (rest : List Char)
    : valueOf (c :: rest) = unsignedValue (c :: rest) := by
  rw [valueOf]
  intro text same
  obtain ⟨rfl, -⟩ := List.cons.inj same
  cases digit

theorem valueOf_signed {parts : Parts} (negative : Bool) (valid : parts.Valid)
    : valueOf (signed negative parts.text)
      = if negative then -parts.decimal.value else parts.decimal.value := by
  cases negative with
  | true => rw [signed, if_pos rfl, valueOf, unsignedValue_text valid, if_pos rfl]
  | false =>
      obtain ⟨c, rest, cons, digit⟩ := valid.text_eq_cons
      rw [signed, if_neg Bool.false_ne_true, cons, valueOf_of_digit digit, ← cons,
        unsignedValue_text valid, if_neg Bool.false_ne_true]

-----------------------------------------------------------------------------------------
-- The texts of a decimal
-----------------------------------------------------------------------------------------

/-- The parts of the plain text of a decimal. -/
def plainParts (d : Decimal) : Parts :=
  ⟨d.whole, if d.fraction.isEmpty then none else some d.fraction, none⟩

theorem plain_eq_append (d : Decimal)
    : d.plain = (plainParts d).whole ++ Parts.fractionText (plainParts d).fraction := by
  unfold plainParts Decimal.plain
  split <;> simp [Parts.fractionText]

theorem text_plainParts (d : Decimal) : (plainParts d).text = d.plain := by
  rw [plain_eq_append, Parts.text]
  exact congrArg _ (List.append_nil _)

/-- Digits before the point may be written with a zero behind it. -/
theorem value_ofDigits_zero (whole : List Char)
    : (Decimal.ofDigits whole ['0']).value = (Decimal.ofDigits whole []).value := by
  have digits
      : Nat.ofDigitChars 10 (whole ++ ['0']) 0 = 10 * Nat.ofDigitChars 10 whole 0 := by
    rw [Nat.ofDigitChars_append]
    rfl
  rw [Decimal.value, Decimal.value, Decimal.ofDigits, Decimal.ofDigits, digits, List.append_nil]
  push_cast
  norm_num
  ring

theorem decimal_plainParts (d : Decimal) : (plainParts d).decimal.value = d.value := by
  rw [← Parts.ofDigits_positional d]
  simp only [plainParts, Parts.decimal, Option.getD_none, Int.add_zero]
  split
  · exact (value_ofDigits_zero d.whole).symm
  · rfl

variable {d : Decimal}

theorem coefficient_pos_of_trimmed (trimmed : d.Trimmed) (some : d ≠ ⟨0, 0⟩)
    : 0 < d.coefficient := by
  rcases trimmed with zero | last
  · exact absurd zero some
  · refine Nat.pos_of_ne_zero fun none => last ?_
    rw [none]

theorem valid_plainParts (trimmed : d.Trimmed) : (plainParts d).Valid := by
  constructor
  case whole =>
    by_cases zero : d = ⟨0, 0⟩
    · rw [zero]
      exact .inl rfl
    · exact Parts.whole_eq_cons (coefficient_pos_of_trimmed trimmed zero)
  case fraction =>
    intro digits member
    unfold plainParts at member
    split at member
    case isTrue => cases member
    case isFalse some =>
      obtain rfl := Option.some.inj member
      exact ⟨fun none => some (List.isEmpty_iff.mpr none), Parts.isDigit_fraction d⟩

theorem valid_naturalParts (trimmed : d.Trimmed) : (Parts.ofDecimal d).Valid := by
  by_cases zero : d = ⟨0, 0⟩
  · have parts : Parts.ofDecimal ⟨0, 0⟩ = ⟨['0'], some ['0'], none⟩ := rfl
    rw [zero, parts]
    refine ⟨.inl rfl, ?_⟩
    intro digits member
    obtain rfl := Option.some.inj member
    exact ⟨List.cons_ne_nil _ _, isDigit_replicate_zero 1⟩
  · exact Parts.valid_ofDecimal (coefficient_pos_of_trimmed trimmed zero)

/-- Both texts of a decimal denote it, with and without a sign. -/
theorem valueOf_texts (negative : Bool) (trimmed : d.Trimmed)
    : valueOf (signed negative d.plain) = (if negative then -d.value else d.value)
      ∧ valueOf (signed negative d.natural) = (if negative then -d.value else d.value) := by
  constructor
  · rw [← text_plainParts, valueOf_signed negative (valid_plainParts trimmed), decimal_plainParts]
  · rw [← Parts.text_ofDecimal, valueOf_signed negative (valid_naturalParts trimmed),
      Parts.decimal_ofDecimal]

/-- The last digit of a number is what is left when it is divided by ten. -/
theorem toDigits_eq_concat (n : Nat)
    : ∃ front, Nat.toDigits 10 n = front ++ [Nat.digitChar (n % 10)] := by
  by_cases small : n < 10
  · refine ⟨[], ?_⟩
    rw [Nat.toDigits_of_lt_base small, Nat.mod_eq_of_lt small, List.nil_append]
  · exact ⟨_, Nat.toDigits_of_base_le (by decide) (not_lt.mp small)⟩

/-- A fraction ends with the last digit of the coefficient. -/
theorem fraction_eq_concat (some : d.fraction ≠ [])
    : ∃ front, d.fraction = front ++ [Nat.digitChar (d.coefficient % 10)] := by
  obtain ⟨front, digits⟩ : ∃ front, d.digits = front ++ [Nat.digitChar (d.coefficient % 10)] :=
    toDigits_eq_concat d.coefficient
  unfold Decimal.fraction at some ⊢
  split at some
  case isTrue outside =>
    rw [if_pos outside, digits, ← List.append_assoc]
    exact ⟨_, rfl⟩
  case isFalse inside =>
    have short : d.point.toNat ≤ front.length := by
      rw [Ne, List.drop_eq_nil_iff, digits, List.length_append, List.length_singleton] at some
      omega
    rw [if_neg inside, digits, List.drop_append_of_le_length short]
    exact ⟨_, rfl⟩

theorem plainFraction_of_trimmed (trimmed : d.Trimmed)
    : PlainFraction (Parts.fractionText (plainParts d).fraction) := by
  unfold plainParts
  simp only
  split
  case isTrue => exact .none
  case isFalse some =>
    rw [List.isEmpty_iff] at some
    obtain ⟨front, fraction⟩ := fraction_eq_concat some
    have digits := Parts.isDigit_fraction d
    rw [fraction] at digits ⊢
    refine .digits ?_ ?_ ?_
    · intro c member
      exact isDigit_iff.mp (digits c (List.mem_append_left _ member))
    · exact isDigit_iff.mp (digits _ List.mem_concat_self)
    · rw [Ne, Nat.digitChar_eq_zero]
      rcases trimmed with rfl | last
      · exact absurd rfl some
      · exact last

theorem plainWhole_of_valid {parts : Parts} (valid : parts.Valid) : PlainWhole parts.whole := by
  rcases valid.whole with zero | ⟨⟨c, rest, cons, nonzero⟩, all⟩
  · rw [zero]
    exact .zero
  · rw [cons] at all ⊢
    obtain ⟨digit, others⟩ := List.forall_mem_cons.mp all
    exact .digits (isDigit_iff.mp digit) nonzero fun c member => isDigit_iff.mp (others c member)

/-- The plain text of a decimal without zeros at its end is of the plain form. -/
theorem plainForm_signed (negative : Bool) (trimmed : d.Trimmed)
    : PlainForm (signed negative d.plain) := by
  have whole := plainWhole_of_valid (valid_plainParts trimmed)
  have fraction := plainFraction_of_trimmed trimmed
  rw [plain_eq_append]
  cases negative with
  | true => exact .negative whole fraction
  | false => exact .unsigned whole fraction

end Number

end Lox
