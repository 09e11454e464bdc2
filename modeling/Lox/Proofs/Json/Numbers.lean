import Lox.Json.Reader
import Lox.Json.Writer
import Lox.Proofs.Number.Shortest

/-! Written numbers are read as they were.
The natural text of a decimal falls into digits before a point, digits after it and a power of ten,
which together make the number that the decimal is.
-/

namespace Lox

theorem isDigit_toDigits (n : Nat) : ∀ c ∈ Nat.toDigits 10 n, c.isDigit = true :=
  fun _ member => Nat.isDigit_of_mem_toDigits (by decide) (by decide) member

theorem isDigit_replicate_zero (n : Nat) : ∀ c ∈ List.replicate n '0', c.isDigit = true := by
  intro c member
  rw [List.eq_of_mem_replicate member]
  rfl

theorem isDigit_append {first second : List Char} (h : ∀ c ∈ first, c.isDigit = true)
    (h' : ∀ c ∈ second, c.isDigit = true)
    : ∀ c ∈ first ++ second, c.isDigit = true := by
  intro c member
  rcases List.mem_append.mp member with member | member
  · exact h c member
  · exact h' c member

/-- What is true of the first character of each part is true of the first character of both. -/
theorem forall_head_append {first second : List Char} {P : Char → Prop}
    (h : ∀ c ∈ first.head?, P c) (h' : ∀ c ∈ second.head?, P c)
    : ∀ c ∈ (first ++ second).head?, P c := by
  cases first with
  | nil => exact h'
  | cons => exact h

/-- A positive number has no zero in front. -/
theorem toDigits_eq_cons {n : Nat} (positive : 0 < n)
    : ∃ c rest, Nat.toDigits 10 n = c :: rest ∧ c ≠ '0' := by
  induction n using Nat.strongRecOn with
  | ind n ih =>
      by_cases small : n < 10
      · refine ⟨n.digitChar, [], Nat.toDigits_of_lt_base small, ?_⟩
        rw [Ne, Nat.digitChar_eq_zero]
        exact Nat.ne_of_gt positive
      · obtain ⟨c, rest, digits, nonzero⟩ := ih (n / 10) (by omega) (by omega)
        refine ⟨c, rest ++ [Nat.digitChar (n % 10)], ?_, nonzero⟩
        rw [Nat.toDigits_of_base_le (by decide) (not_lt.mp small), digits, List.cons_append]

namespace Json

variable {digits rest : List Char}

theorem takeWhile_isDigit (all : ∀ c ∈ digits, c.isDigit = true)
    (stop : ∀ c ∈ rest.head?, c.isDigit = false)
    : (digits ++ rest).takeWhile Char.isDigit = digits
      ∧ (digits ++ rest).dropWhile Char.isDigit = rest := by
  rw [List.takeWhile_append_of_pos all, List.dropWhile_append_of_pos all]
  cases rest with
  | nil => simp
  | cons c after => simp [stop c rfl]

/-- A number as it is written, in its parts. -/
structure Parts where
  whole : List Char
  fraction : Option (List Char)
  power : Option Int

namespace Parts

def fractionText : Option (List Char) → List Char
  | some digits => '.' :: digits
  | none => []

def powerText : Option Int → List Char
  | some power => 'e' :: Decimal.powerText power
  | none => []

def text (parts : Parts) : List Char :=
  parts.whole ++ (fractionText parts.fraction ++ powerText parts.power)

/-- The decimal that the parts make. -/
def decimal (parts : Parts) : Decimal :=
  let mantissa := Decimal.ofDigits parts.whole (parts.fraction.getD [])
  { mantissa with exponent := mantissa.exponent + parts.power.getD 0 }

/-- The parts are those of a number: a zero stands in front only by itself, and a point does not
stand without digits.
-/
structure Valid (parts : Parts) : Prop where
  whole : parts.whole = ['0']
    ∨ (∃ c rest, parts.whole = c :: rest ∧ c ≠ '0') ∧ ∀ c ∈ parts.whole, c.isDigit = true
  fraction : ∀ digits ∈ parts.fraction, digits ≠ [] ∧ ∀ c ∈ digits, c.isDigit = true

end Parts

/-- No character of a number stands in front of the text. -/
def Stops (rest : List Char) : Prop :=
  ∀ c ∈ rest.head?, c.isDigit = false ∧ c ≠ '.' ∧ c ≠ 'e' ∧ c ≠ 'E'

theorem Stops.nil : Stops [] := by
  intro c member
  cases member

theorem Stops.cons {c : Char} (rest : List Char)
    (h : c.isDigit = false ∧ c ≠ '.' ∧ c ≠ 'e' ∧ c ≠ 'E')
    : Stops (c :: rest) := by
  intro _ member
  obtain rfl := Option.some.inj member
  exact h

theorem cutWhole_append {parts : Parts} (valid : parts.Valid)
    (stop : ∀ c ∈ rest.head?, c.isDigit = false)
    : cutWhole? (parts.whole ++ rest) = some (parts.whole, rest) := by
  rcases valid.whole with zero | ⟨⟨c, after, cons, nonzero⟩, all⟩
  · rw [zero]
    rfl
  · rw [cons] at all ⊢
    have ⟨take, drop⟩ := takeWhile_isDigit (List.forall_mem_cons.mp all).2 stop
    rw [List.cons_append, cutWhole?]
    · rw [if_pos (all c List.mem_cons_self), take, drop]
    · exact nonzero

theorem cutFraction_append {parts : Parts} (valid : parts.Valid)
    (stop : ∀ c ∈ rest.head?, c.isDigit = false ∧ c ≠ '.')
    : cutFraction? (Parts.fractionText parts.fraction ++ rest)
      = parts.fraction.map fun digits => (digits, rest) := by
  cases found : parts.fraction with
  | none =>
      rw [Parts.fractionText, List.nil_append, Option.map_none]
      unfold cutFraction?
      split
      · exact absurd rfl (stop _ rfl).2
      · rfl
  | some digits =>
      obtain ⟨some, all⟩ := valid.fraction digits found
      obtain ⟨c, after, rfl⟩ := List.exists_cons_of_ne_nil some
      have ⟨take, drop⟩ := takeWhile_isDigit (List.forall_mem_cons.mp all).2
        (fun d member => (stop d member).1)
      rw [Parts.fractionText, List.cons_append, List.cons_append, cutFraction?,
        if_pos (all c List.mem_cons_self), take, drop]
      rfl

theorem cutPowerDigits_append (negative : Bool) (some : digits ≠ [])
    (all : ∀ c ∈ digits, c.isDigit = true) (stop : ∀ c ∈ rest.head?, c.isDigit = false)
    : cutPowerDigits? negative (digits ++ rest)
      = Option.some (if negative then -(Nat.ofDigitChars 10 digits 0 : Int)
          else Nat.ofDigitChars 10 digits 0, rest) := by
  obtain ⟨c, after, rfl⟩ := List.exists_cons_of_ne_nil some
  have ⟨take, drop⟩ := takeWhile_isDigit (List.forall_mem_cons.mp all).2 stop
  rw [List.cons_append, cutPowerDigits?, if_pos (all c List.mem_cons_self), take, drop]

/-- The digits of a power of ten as they are written, without the sign. -/
def powerDigits (power : Int) : List Char :=
  if (Nat.toDigits 10 power.natAbs).length < 2 then '0' :: Nat.toDigits 10 power.natAbs
  else Nat.toDigits 10 power.natAbs

theorem powerText_eq (power : Int)
    : Decimal.powerText power = (if power < 0 then '-' else '+') :: powerDigits power :=
  rfl

theorem powerDigits_ne_nil (power : Int) : powerDigits power ≠ [] := by
  unfold powerDigits
  split <;> simp

theorem isDigit_powerDigits (power : Int) : ∀ c ∈ powerDigits power, c.isDigit = true := by
  unfold powerDigits
  split
  · intro c member
    rcases List.mem_cons.mp member with rfl | member
    · rfl
    · exact isDigit_toDigits _ c member
  · exact isDigit_toDigits _

theorem ofDigitChars_powerDigits (power : Int)
    : Nat.ofDigitChars 10 (powerDigits power) 0 = power.natAbs := by
  unfold powerDigits
  split
  · rw [Nat.ofDigitChars_cons]
    exact Nat.ofDigitChars_ten_toDigits
  · exact Nat.ofDigitChars_ten_toDigits

theorem cutPower_append (power : Option Int) (stops : Stops rest)
    : cutPower? (Parts.powerText power ++ rest) = power.map fun power => (power, rest) := by
  cases power with
  | none =>
      rw [Parts.powerText, List.nil_append, Option.map_none]
      unfold cutPower?
      split
      case h_1 mark after =>
        obtain ⟨-, -, small, large⟩ := stops mark rfl
        rw [if_neg (not_or.mpr ⟨small, large⟩)]
      case h_2 => rfl
  | some power =>
      have stop : ∀ c ∈ rest.head?, c.isDigit = false := fun c member => (stops c member).1
      have digits := fun negative =>
        cutPowerDigits_append negative (powerDigits_ne_nil power) (isDigit_powerDigits power) stop
      simp only [ofDigitChars_powerDigits] at digits
      rw [Parts.powerText, powerText_eq, Option.map_some]
      by_cases negative : power < 0
      · have size : -(power.natAbs : Int) = power := by omega
        have read := digits true
        rw [if_pos rfl, size] at read
        rw [if_pos negative]
        exact read
      · have size : (power.natAbs : Int) = power := by omega
        have read := digits false
        rw [if_neg Bool.false_ne_true, size] at read
        rw [if_neg negative]
        exact read

theorem head_fractionText (fraction : Option (List Char))
    : ∀ c ∈ (Parts.fractionText fraction).head?, c.isDigit = false := by
  intro c member
  cases fraction with
  | none => cases member
  | some digits =>
      obtain rfl := Option.some.inj member
      rfl

theorem head_powerText (power : Option Int)
    : ∀ c ∈ (Parts.powerText power).head?, c.isDigit = false ∧ c ≠ '.' := by
  intro c member
  cases power with
  | none => cases member
  | some power =>
      obtain rfl := Option.some.inj member
      decide

/-- A number is read up to where its parts end. -/
theorem cutUnsigned_append {parts : Parts} (negative : Bool) (valid : parts.Valid)
    (stops : Stops rest)
    : cutUnsigned? negative (parts.text ++ rest)
      = some (numberOf negative parts.whole parts.fraction parts.power, rest) := by
  have afterFraction : ∀ c ∈ (Parts.powerText parts.power ++ rest).head?,
      c.isDigit = false ∧ c ≠ '.' :=
    forall_head_append (head_powerText _) fun c member => ⟨(stops c member).1, (stops c member).2.1⟩
  have afterWhole : ∀ c ∈ (Parts.fractionText parts.fraction
      ++ (Parts.powerText parts.power ++ rest)).head?, c.isDigit = false :=
    forall_head_append (head_fractionText _) fun c member => (afterFraction c member).1
  have whole := cutWhole_append valid afterWhole
  have fraction := cutFraction_append valid afterFraction
  have power := cutPower_append parts.power stops
  unfold cutUnsigned?
  rw [Parts.text, List.append_assoc, List.append_assoc, whole]
  simp only [fraction]
  cases parts.fraction with
  | none =>
      simp only [Parts.fractionText, List.nil_append, Option.map_none, Option.getD_none, power]
      cases parts.power with
      | none => rfl
      | some power' => rfl
  | some digits =>
      simp only [Option.map_some, Option.getD_some, power]
      cases parts.power with
      | none => rfl
      | some power' => rfl

-----------------------------------------------------------------------------------------
-- The natural text of a decimal
-----------------------------------------------------------------------------------------

/-- The parts of the natural text of a decimal. -/
def Parts.ofDecimal (d : Decimal) : Parts :=
  if -4 < d.point ∧ d.point ≤ 16 then
    ⟨d.whole, some (if d.fraction.isEmpty then ['0'] else d.fraction), none⟩
  else
    match d.digits with
    | first :: second :: rest => ⟨[first], some (second :: rest), some (d.point - 1)⟩
    | digits => ⟨digits, none, some (d.point - 1)⟩

namespace Parts

variable {d : Decimal}

theorem text_ofDecimal (d : Decimal) : (ofDecimal d).text = d.natural := by
  unfold ofDecimal Decimal.natural
  split
  · simp [text, fractionText, powerText]
  · unfold Decimal.scientific
    rcases d.digits with _ | ⟨first, _ | ⟨second, rest⟩⟩ <;> simp [text, fractionText, powerText]

theorem isDigit_fraction (d : Decimal) : ∀ c ∈ d.fraction, c.isDigit = true := by
  have all : ∀ c ∈ d.digits, c.isDigit = true := isDigit_toDigits _
  unfold Decimal.fraction
  split
  · exact isDigit_append (isDigit_replicate_zero _) all
  · exact fun c member => all c (List.mem_of_mem_drop member)

theorem whole_eq_cons (positive : 0 < d.coefficient)
    : d.whole = ['0']
      ∨ (∃ c rest, d.whole = c :: rest ∧ c ≠ '0') ∧ ∀ c ∈ d.whole, c.isDigit = true := by
  obtain ⟨c, rest, cons, nonzero⟩ : ∃ c rest, d.digits = c :: rest ∧ c ≠ '0' :=
    toDigits_eq_cons positive
  unfold Decimal.whole
  split
  case isTrue => exact .inl rfl
  case isFalse inside =>
    obtain ⟨n, count⟩ : ∃ n, d.point.toNat = n + 1 := ⟨d.point.toNat - 1, by omega⟩
    refine .inr ⟨⟨c, rest.take n ++ List.replicate d.exponent.toNat '0', ?_, nonzero⟩, ?_⟩
    · rw [count, cons]
      rfl
    · apply isDigit_append ?_ (isDigit_replicate_zero _)
      intro c member
      exact isDigit_toDigits _ c (List.mem_of_mem_take member)

theorem valid_ofDecimal (positive : 0 < d.coefficient) : (ofDecimal d).Valid := by
  unfold ofDecimal
  split
  case isTrue =>
    refine ⟨whole_eq_cons positive, ?_⟩
    intro digits member
    obtain rfl := Option.some.inj member
    split
    case isTrue => simp
    case isFalse some => exact ⟨fun none => some (by rw [none]; rfl), isDigit_fraction d⟩
  case isFalse =>
    obtain ⟨c, rest, cons, nonzero⟩ : ∃ c rest, d.digits = c :: rest ∧ c ≠ '0' :=
      toDigits_eq_cons positive
    have all : ∀ c ∈ d.digits, c.isDigit = true := isDigit_toDigits _
    rw [cons] at all ⊢
    split
    case h_1 first second others same =>
      obtain ⟨rfl, rfl⟩ := List.cons.inj same
      obtain ⟨digit, later⟩ := List.forall_mem_cons.mp all
      refine ⟨.inr ⟨⟨c, [], rfl, nonzero⟩, ?_⟩, ?_⟩
      · intro d member
        rwa [List.mem_singleton.mp member]
      · intro digits member
        obtain rfl := Option.some.inj member
        exact ⟨List.cons_ne_nil _ _, later⟩
    case h_2 =>
      refine ⟨.inr ⟨⟨c, rest, rfl, nonzero⟩, all⟩, ?_⟩
      intro digits member
      cases member

theorem ofDigits_eq {whole fraction : List Char}
    (digits : Nat.ofDigitChars 10 (whole ++ fraction) 0 = d.coefficient)
    (exponent : -(fraction.length : Int) = d.exponent)
    : Decimal.ofDigits whole fraction = d := by
  rw [Decimal.ofDigits, digits, exponent]

theorem ofDigitChars_digits (d : Decimal) : Nat.ofDigitChars 10 d.digits 0 = d.coefficient :=
  Nat.ofDigitChars_ten_toDigits

/-- Zeros up to the point make the coefficient larger, and a zero after the point once more. -/
theorem ofDigits_whole (h : 0 ≤ d.exponent)
    : (Decimal.ofDigits (d.digits ++ List.replicate d.exponent.toNat '0') ['0']).value
      = d.value := by
  have number := ofDigitChars_digits d
  have coefficient
      : Nat.ofDigitChars 10 (d.digits ++ List.replicate d.exponent.toNat '0' ++ ['0']) 0
        = 10 * (10 ^ d.exponent.toNat * d.coefficient) := by
    rw [Nat.ofDigitChars_append, Nat.ofDigitChars_append, number,
      Nat.ofDigitChars_replicate_zero]
    rfl
  have power : (10 : ℚ) ^ d.exponent = 10 ^ d.exponent.toNat := by
    rw [← zpow_natCast]
    congr 1
    omega
  simp only [Decimal.ofDigits, Decimal.value, coefficient]
  rw [power]
  push_cast
  field_simp
  norm_num
  ring

/-- The digits around the point make the number, by where the point stands. -/
theorem ofDigits_positional (d : Decimal)
    : (Decimal.ofDigits d.whole (if d.fraction.isEmpty then ['0'] else d.fraction)).value
      = d.value := by
  have number := ofDigitChars_digits d
  have count : 0 < d.digits.length := Nat.length_toDigits_pos
  have point : d.point = d.digits.length + d.exponent := rfl
  unfold Decimal.whole Decimal.fraction
  split
  case isTrue outside =>
    -- The point stands in front of all digits.
    have some : ¬(List.replicate (-d.point).toNat '0' ++ d.digits).isEmpty = true := by
      rw [List.isEmpty_iff_length_eq_zero, List.length_append]
      omega
    rw [if_neg some]
    refine congrArg Decimal.value (ofDigits_eq ?_ ?_)
    · rw [List.singleton_append, Nat.ofDigitChars_cons, Nat.ofDigitChars_append,
        Nat.ofDigitChars_replicate_zero]
      exact number
    · rw [List.length_append, List.length_replicate]
      omega
  case isFalse inside =>
    by_cases fraction : (d.digits.drop d.point.toNat).isEmpty = true
    · -- The point stands behind all digits.
      have short : d.digits.length ≤ d.point.toNat := by
        rwa [List.isEmpty_iff, List.drop_eq_nil_iff] at fraction
      rw [if_pos fraction, List.take_of_length_le short]
      exact ofDigits_whole (by omega)
    · -- The point stands among the digits.
      have long : d.point.toNat < d.digits.length := by
        rwa [List.isEmpty_iff, List.drop_eq_nil_iff, not_le] at fraction
      have zeros : d.exponent.toNat = 0 := by omega
      rw [if_neg fraction, zeros, List.replicate_zero, List.append_nil]
      refine congrArg Decimal.value (ofDigits_eq ?_ ?_)
      · rw [List.take_append_drop]
        exact number
      · rw [List.length_drop]
        omega

/-- The parts make the number that the decimal is. -/
theorem decimal_ofDecimal (d : Decimal) : (ofDecimal d).decimal.value = d.value := by
  have number := ofDigitChars_digits d
  have count : 0 < d.digits.length := Nat.length_toDigits_pos
  have point : d.point = d.digits.length + d.exponent := rfl
  unfold ofDecimal
  split
  case isTrue =>
    simp only [decimal, Option.getD_some, Option.getD_none, Int.add_zero]
    exact ofDigits_positional d
  case isFalse =>
    refine congrArg Decimal.value ?_
    split
    case h_1 first second rest digits =>
      rw [digits, List.length_cons, List.length_cons] at point
      rw [digits] at number
      simp only [decimal, Option.getD_some, Decimal.ofDigits, List.singleton_append, number,
        List.length_cons]
      refine congrArg (Decimal.mk d.coefficient) ?_
      omega
    case h_2 others =>
      have one : d.digits.length = 1 := by
        rcases digits : d.digits with _ | ⟨first, _ | ⟨second, rest⟩⟩
        · rw [digits] at count
          cases count
        · rfl
        · exact (others first second rest digits).elim
      rw [one] at point
      simp only [decimal, Option.getD_some, Option.getD_none, Decimal.ofDigits, List.append_nil,
        number, List.length_nil]
      refine congrArg (Decimal.mk d.coefficient) ?_
      omega

/-- The parts of a decimal never make an integer. -/
theorem numberOf_ofDecimal (negative : Bool) (d : Decimal)
    : numberOf negative (ofDecimal d).whole (ofDecimal d).fraction (ofDecimal d).power
      = .literal (.number (if negative then -(ofDecimal d).decimal.toFloat
          else (ofDecimal d).decimal.toFloat)) := by
  unfold ofDecimal
  split
  · rfl
  · split <;> rfl

/-- A number begins with a digit. -/
theorem Valid.text_eq_cons {parts : Parts} (valid : parts.Valid)
    : ∃ c rest, parts.text = c :: rest ∧ c.isDigit = true := by
  unfold text
  rcases valid.whole with zero | ⟨⟨c, rest, cons, -⟩, all⟩
  · rw [zero]
    exact ⟨'0', _, rfl, rfl⟩
  · rw [cons] at all ⊢
    exact ⟨c, _, rfl, all c List.mem_cons_self⟩

end Parts

/-- The text is one lexeme wherever no character of a number follows it. -/
def Writes (text : List Char) (lexeme : Lexeme) : Prop :=
  ∃ c after, text = c :: after ∧ isBlank c = false
    ∧ ∀ rest, Stops rest → cut c (after ++ rest) = (lexeme, rest)

theorem cutWord_digit {c : Char} (digit : c.isDigit = true) (rest : List Char)
    : cutWord? (c :: rest) = none := by
  have other : ∀ letter, letter.isDigit = false → (letter == c) = false := by
    intro letter none
    rw [beq_eq_false_iff_ne]
    rintro rfl
    rw [digit] at none
    cases none
  simp [cutWord?, words, List.isPrefixOf, other]

theorem cutWord_minus {c : Char} (digit : c.isDigit = true) (rest : List Char)
    : cutWord? ('-' :: c :: rest) = none := by
  have other : ('I' == c) = false := by
    rw [beq_eq_false_iff_ne]
    rintro rfl
    cases digit
  simp [cutWord?, words, List.isPrefixOf, other]

variable {lexeme : Lexeme} {after : List Char}

/-- What begins as a number does is read as a number. -/
theorem cut_digit {c : Char} (digit : c.isDigit = true)
    (read : cutUnsigned? false (c :: rest) = some (lexeme, after))
    : cut c rest = (lexeme, after) := by
  have number : cutNumber? (c :: rest) = some (lexeme, after) := by
    unfold cutNumber?
    split
    case h_1 same =>
      obtain ⟨rfl, -⟩ := List.cons.inj same
      cases digit
    case h_2 => exact read
  unfold cut
  split
  iterate 7 cases digit
  rw [cutWord_digit digit, number, Option.none_or]

theorem cut_minus {c : Char} (digit : c.isDigit = true)
    (read : cutUnsigned? true (c :: rest) = some (lexeme, after))
    : cut '-' (c :: rest) = (lexeme, after) := by
  have number : cutNumber? ('-' :: c :: rest) = some (lexeme, after) := read
  simp only [cut, cutWord_minus digit, Option.none_or, number]
  rfl

theorem isBlank_digit {c : Char} (digit : c.isDigit = true) : isBlank c = false := by
  simp only [isBlank, Bool.or_eq_false_iff, decide_eq_false_iff_not]
  refine ⟨⟨⟨?_, ?_⟩, ?_⟩, ?_⟩ <;> rintro rfl <;> cases digit

/-- A number in its parts, with or without a sign, is one lexeme. -/
theorem writes_signed {parts : Parts} (negative : Bool) (valid : parts.Valid)
    : Writes (Number.signed negative parts.text)
        (numberOf negative parts.whole parts.fraction parts.power) := by
  obtain ⟨c, after, cons, digit⟩ := valid.text_eq_cons
  have read : ∀ rest, Stops rest → cutUnsigned? negative (c :: (after ++ rest))
      = some (numberOf negative parts.whole parts.fraction parts.power, rest) := by
    intro rest stops
    rw [← List.cons_append, ← cons]
    exact cutUnsigned_append negative valid stops
  rw [cons]
  cases negative with
  | false =>
      exact ⟨c, after, rfl, isBlank_digit digit,
        fun rest stops => cut_digit digit (read rest stops)⟩
  | true =>
      exact ⟨'-', c :: after, rfl, rfl, fun rest stops => cut_minus digit (read rest stops)⟩

theorem writes_integerText {n : Int} (short : Text.isShort n = true)
    : Writes (integerText n) (.literal (.integer n)) := by
  have valid : Parts.Valid ⟨Nat.toDigits 10 n.natAbs, none, none⟩ := by
    constructor
    · by_cases zero : n.natAbs = 0
      · rw [zero]
        exact .inl rfl
      · exact .inr ⟨toDigits_eq_cons (Nat.pos_of_ne_zero zero), isDigit_toDigits _⟩
    · intro digits member
      cases member
  have written := writes_signed (n < 0) valid
  have value : (if decide (n < 0) = true then -(n.natAbs : Int) else n.natAbs) = n := by
    simp only [decide_eq_true_iff]
    omega
  have within : ¬Text.maxDigits < (Nat.toDigits 10 n.natAbs).length :=
    Nat.not_lt.mpr (of_decide_eq_true short)
  simp only [numberOf, within, if_false, Nat.ofDigitChars_ten_toDigits, value, Parts.text,
    Parts.fractionText, Parts.powerText, List.append_nil] at written
  exact written

/-- The natural text of a decimal, with or without a sign, is one lexeme: the number that its value
is.
-/
theorem writes_natural (negative : Bool) {d : Decimal} (positive : 0 < d.coefficient)
    : ∃ read : Decimal, read.value = d.value
      ∧ Writes (Number.signed negative d.natural)
          (.literal (.number (if negative then -read.toFloat else read.toFloat))) := by
  refine ⟨(Parts.ofDecimal d).decimal, Parts.decimal_ofDecimal d, ?_⟩
  have written := writes_signed negative (Parts.valid_ofDecimal positive)
  rwa [Parts.text_ofDecimal, Parts.numberOf_ofDecimal] at written

-----------------------------------------------------------------------------------------
-- Doubles
-----------------------------------------------------------------------------------------

open Float.Model UnpackedFloat

theorem writes_nan : Writes "NaN".toList (.literal (.number (0.0 / 0.0))) :=
  ⟨'N', ['a', 'N'], rfl, rfl, fun _ _ => rfl⟩

theorem writes_infinity : Writes "Infinity".toList (.literal (.number (1.0 / 0.0))) :=
  ⟨'I', "nfinity".toList, rfl, rfl, fun _ _ => rfl⟩

theorem writes_minus_infinity : Writes "-Infinity".toList (.literal (.number (-1.0 / 0.0))) :=
  ⟨'-', "Infinity".toList, rfl, rfl, fun _ _ => rfl⟩

/-- Doubles with the same parts are the same. -/
theorem eq_of_unpack {x y : Float} {unpacked : UnpackedFloat}
    (first : x.toModel.unpack = unpacked) (second : y.toModel.unpack = unpacked)
    : x = y := by
  rw [← Number.ofModel_pack first, Number.ofModel_pack second]

theorem neg_zero {x : Float} (unpacked : x.toModel.unpack = .zero .negative)
    : -Float.ofModel (.pack (.zero .positive)) = x :=
  eq_of_unpack rfl unpacked

theorem neg_finite {x : Float} {mantissa : Nat} {exponent : Int} {positive : 0 < mantissa}
    (unpacked : x.toModel.unpack = .finite .negative mantissa exponent positive)
    : -Float.ofModel (.pack (.finite .positive mantissa exponent positive)) = x := by
  obtain ⟨canonical, high⟩ := Number.canonical_of_unpack unpacked
  refine eq_of_unpack ?_ unpacked
  change (Float.Model.pack
    (Float.Model.pack (.finite .positive mantissa exponent positive)).unpack.neg).unpack = _
  rw [Number.unpack_pack canonical high]
  exact Number.unpack_pack canonical high

theorem writes_zero (negative : Bool)
    : Writes (Number.signed negative (Decimal.natural ⟨0, 0⟩))
        (.literal (.number (if negative then -.ofModel (.pack (.zero .positive))
          else .ofModel (.pack (.zero .positive))))) := by
  have valid : Parts.Valid ⟨['0'], some ['0'], none⟩ := by
    refine ⟨.inl rfl, ?_⟩
    intro digits member
    obtain rfl := Option.some.inj member
    exact ⟨by decide, isDigit_replicate_zero 1⟩
  have text : Decimal.natural ⟨0, 0⟩ = Parts.text ⟨['0'], some ['0'], none⟩ := by decide
  have zero : Decimal.toFloat ⟨0, -1⟩ = .ofModel (.pack (.zero .positive)) :=
    Decimal.toFloat_zero rfl
  have written := writes_signed negative valid
  rw [text, ← zero]
  exact written

theorem writes_finite {x : Float} {sign : Sign} {mantissa : Nat} {exponent : Int}
    {positive : 0 < mantissa}
    (unpacked : x.toModel.unpack = .finite sign mantissa exponent positive) (negative : Bool)
    : Writes (Number.signed negative (RoundingInterval.ofBinary mantissa exponent).shortest.natural)
        (.literal (.number
          (if negative then -.ofModel (.pack (.finite .positive mantissa exponent positive))
          else .ofModel (.pack (.finite .positive mantissa exponent positive))))) := by
  obtain ⟨canonical, -⟩ := Number.canonical_of_unpack unpacked
  have around := RoundingInterval.shortest_around canonical
  obtain ⟨read, value, written⟩ :=
    writes_natural negative (Decimal.coefficient_pos positive around)
  rw [← value] at around
  have nonzero := Decimal.coefficient_pos positive around
  rwa [Decimal.toFloat_eq unpacked nonzero around] at written

/-- The text of a double is read as that double. -/
theorem writes_numberText (x : Float) : Writes (numberText x) (.literal (.number x)) := by
  cases unpacked : x.toModel.unpack with
  | notANumber =>
      simp only [numberText, Number.form, unpacked]
      rw [eq_of_unpack unpacked (y := 0.0 / 0.0) rfl]
      exact writes_nan
  | infinity sign =>
      simp only [numberText, Number.form, unpacked]
      cases sign with
      | positive =>
          rw [eq_of_unpack unpacked (y := 1.0 / 0.0) rfl]
          exact writes_infinity
      | negative =>
          rw [eq_of_unpack unpacked (y := -1.0 / 0.0) rfl]
          exact writes_minus_infinity
  | zero sign =>
      simp only [numberText, Number.natural, Number.form, unpacked]
      cases sign with
      | positive =>
          have written := writes_zero false
          rwa [if_neg Bool.false_ne_true, Number.ofModel_pack unpacked] at written
      | negative =>
          have written := writes_zero true
          rwa [if_pos rfl, neg_zero unpacked] at written
  | finite sign mantissa exponent positive =>
      simp only [numberText, Number.natural, Number.form, unpacked]
      cases sign with
      | positive =>
          have written := writes_finite unpacked false
          rwa [if_neg Bool.false_ne_true, Number.ofModel_pack unpacked] at written
      | negative =>
          have written := writes_finite unpacked true
          rwa [if_pos rfl, neg_finite unpacked] at written

theorem carriageReturn_notMem_digits (all : ∀ c ∈ digits, c.isDigit = true) : '\r' ∉ digits := by
  intro member
  cases all _ member

theorem carriageReturn_notMem_signed {text : List Char} (negative : Bool) (h : '\r' ∉ text)
    : '\r' ∉ Number.signed negative text := by
  cases negative with
  | false => exact h
  | true =>
      intro member
      rcases List.mem_cons.mp member with same | member
      · revert same
        decide
      · exact h member

/-- A number is written with digits, a point, the mark of a power and signs. -/
theorem Parts.forall_mem_text {parts : Parts} (valid : parts.Valid)
    : ∀ c ∈ parts.text, c.isDigit = true ∨ c ∈ ['.', 'e', '+', '-'] := by
  refine List.forall_mem_append.mpr ⟨?_, List.forall_mem_append.mpr ⟨?_, ?_⟩⟩
  · rcases valid.whole with zero | ⟨-, all⟩
    · rw [zero]
      exact fun c member => .inl (isDigit_replicate_zero 1 c member)
    · exact fun c member => .inl (all c member)
  · cases found : parts.fraction with
    | none => exact List.forall_mem_nil _
    | some digits =>
        have all := (valid.fraction digits found).2
        exact List.forall_mem_cons.mpr ⟨by simp, fun c member => .inl (all c member)⟩
  · cases parts.power with
    | none => exact List.forall_mem_nil _
    | some power =>
        have sign : (if power < 0 then '-' else '+') ∈ ['.', 'e', '+', '-'] := by split <;> simp
        rw [powerText, powerText_eq, List.forall_mem_cons, List.forall_mem_cons]
        exact ⟨by simp, .inr sign, fun c member => .inl (isDigit_powerDigits power c member)⟩

theorem carriageReturn_notMem_parts {parts : Parts} (valid : parts.Valid)
    : '\r' ∉ parts.text := by
  intro member
  rcases Parts.forall_mem_text valid _ member with digit | mark
  · cases digit
  · revert mark
    decide

theorem carriageReturn_notMem_integerText (n : Int) : '\r' ∉ integerText n :=
  carriageReturn_notMem_signed _ (carriageReturn_notMem_digits (isDigit_toDigits _))

theorem carriageReturn_notMem_numberText (x : Float) : '\r' ∉ numberText x := by
  cases unpacked : x.toModel.unpack with
  | notANumber =>
      simp only [numberText, Number.form, unpacked]
      decide
  | infinity sign =>
      simp only [numberText, Number.form, unpacked]
      exact carriageReturn_notMem_signed _ (by decide)
  | zero sign =>
      simp only [numberText, Number.natural, Number.form, unpacked]
      exact carriageReturn_notMem_signed _ (by decide)
  | finite sign mantissa exponent positive =>
      obtain ⟨canonical, -⟩ := Number.canonical_of_unpack unpacked
      have around := RoundingInterval.shortest_around canonical
      have valid := Parts.valid_ofDecimal (Decimal.coefficient_pos positive around)
      have inner := carriageReturn_notMem_parts valid
      rw [Parts.text_ofDecimal] at inner
      simp only [numberText, Number.natural, Number.form, unpacked]
      exact carriageReturn_notMem_signed _ inner

end Json

end Lox
