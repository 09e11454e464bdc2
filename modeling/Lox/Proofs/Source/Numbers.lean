import Lox.Proofs.Evaluation.Value
import Lox.Proofs.Number.Plain
import Lox.Proofs.Source.Expressions

/-! Printed numbers.
The plain text of a finite double denotes the same number as its natural text. As a source text it
is an expression with the double as its value, so that no two doubles are printed alike.
-/

namespace Lox

namespace Number

open Float.Model UnpackedFloat

-----------------------------------------------------------------------------------------
-- Finite doubles
-----------------------------------------------------------------------------------------

/-- A finite double is its sign and its magnitude. Whichever decimal has the value of the magnitude,
its double is the one without the sign.
-/
structure Finite (x : Float) (negative : Bool) (magnitude : Decimal) : Prop where
  form : form x = .finite negative magnitude
  sign : x.toBits.toBitVec.msb = negative
  trimmed : magnitude.Trimmed
  reads
    : ∀ d : Decimal,
        d.value = magnitude.value → (if negative then -d.toFloat else d.toFloat) = x

/-- Whether the sign is written. -/
def isNegative (sign : Sign) : Bool :=
  sign matches .negative

theorem isNegative_ofBitVec (bit : BitVec 1) : isNegative (Sign.ofBitVec bit) = bit.msb := by
  revert bit
  decide

theorem msb_unpackSign (bits : BitVec 64)
    : (@unpackSign Format.binary64 bits).msb = bits.msb := by
  have inside : 63 < 64 := by decide
  simp [unpackSign, BitVec.msb_eq_getLsbD_last, BitVec.getLsbD_eq_getElem inside]

/-- The sign of a double, unless it is no number. -/
def sign? : UnpackedFloat → Option Sign
  | .notANumber => none
  | .infinity sign | .zero sign | .finite sign .. => some sign

/-- The sign that is unpacked is the first bit. -/
theorem msb_of_unpack {x : Float} {sign : Sign} (h : sign? x.toModel.unpack = some sign)
    : x.toBits.toBitVec.msb = isNegative sign := by
  have unpacked : Sign.ofBitVec (@unpackSign Format.binary64 x.toBits.toBitVec) = sign := by
    unfold Float.Model.unpack UnpackedFloat.unpack at h
    simp only at h
    split at h
    case isTrue =>
      split at h
      case isTrue => exact Option.some.inj h
      case isFalse => cases h
    case isFalse =>
      split at h
      case isTrue => split at h <;> exact Option.some.inj h
      case isFalse => exact Option.some.inj h
  rw [← unpacked, isNegative_ofBitVec, msb_unpackSign]

theorem finite_zero {x : Float} {sign : Sign} (unpacked : x.toModel.unpack = .zero sign)
    : Finite x (isNegative sign) ⟨0, 0⟩ where
  form := by
    unfold form
    rw [unpacked]
    rfl
  sign := msb_of_unpack (by rw [unpacked, sign?])
  trimmed := .inl rfl
  reads d value := by
    have none : d.coefficient = 0 := by
      have power : (10 : ℚ) ^ d.exponent ≠ 0 := zpow_ne_zero _ (by decide)
      simpa [Decimal.value, power] using value
    rw [Decimal.toFloat_zero none]
    cases sign with
    | positive => exact ofModel_pack unpacked
    | negative => exact Json.neg_zero unpacked

theorem finite_nonzero {x : Float} {sign : Sign} {mantissa : Nat} {exponent : Int}
    {positive : 0 < mantissa}
    (unpacked : x.toModel.unpack = .finite sign mantissa exponent positive)
    : Finite x (isNegative sign) (RoundingInterval.ofBinary mantissa exponent).shortest where
  form := by
    unfold form
    rw [unpacked]
    rfl
  sign := msb_of_unpack (by rw [unpacked, sign?])
  trimmed := RoundingInterval.trimmed_shortest _
  reads d value := by
    obtain ⟨canonical, -⟩ := canonical_of_unpack unpacked
    have around := RoundingInterval.shortest_around canonical
    rw [← value] at around
    rw [Decimal.toFloat_eq unpacked (Decimal.coefficient_pos positive around) around]
    cases sign with
    | positive => exact ofModel_pack unpacked
    | negative => exact Json.neg_finite unpacked

/-- A finite double is zero or is made of a mantissa and an exponent. -/
theorem exists_finite {x : Float} (finite : x.isFinite = true)
    : ∃ negative magnitude, Finite x negative magnitude := by
  cases unpacked : x.toModel.unpack with
  | zero sign => exact ⟨_, _, finite_zero unpacked⟩
  | finite sign mantissa exponent positive => exact ⟨_, _, finite_nonzero unpacked⟩
  | notANumber | infinity =>
      rw [Float.isFinite, Float.Model.isFinite, unpacked] at finite
      cases finite

-----------------------------------------------------------------------------------------
-- Source texts
-----------------------------------------------------------------------------------------

open Lexicon Scan

variable {d : Decimal}

/-- The double that is read from the plain text of a decimal. -/
def reread (d : Decimal) : Float :=
  (plainParts d).decimal.toFloat

theorem digits_of_isDigit {digits : List Char} (some : digits ≠ [])
    (all : ∀ c ∈ digits, c.isDigit = true)
    : Digits digits :=
  ⟨some, fun c member => isDigit_iff.mp (all c member)⟩

theorem matches_plain (trimmed : d.Trimmed) : Matches (.token .number d.plain) := by
  have valid := valid_plainParts trimmed
  have some : (plainParts d).whole ≠ [] := by
    rcases valid.whole with zero | ⟨⟨c, rest, cons, -⟩, -⟩
    · simp [zero]
    · simp [cons]
  have whole := digits_of_isDigit some (isDigit_whole valid)
  rw [plain_eq_append]
  cases found : (plainParts d).fraction with
  | none =>
      rw [Json.Parts.fractionText, List.append_nil]
      exact .whole whole
  | some digits =>
      obtain ⟨some, all⟩ := valid.fraction digits found
      exact .fraction whole (digits_of_isDigit some all)

theorem literalOf_plain (trimmed : d.Trimmed) : literalOf .number d.plain = .number (reread d) := by
  obtain ⟨whole, fraction⟩ := cut_point (valid_plainParts trimmed)
  have power : (plainParts d).power = none := rfl
  rw [plain_eq_append, literalOf, numberOf, whole, fraction, reread, Json.Parts.decimal, power,
    Option.getD_none, Int.add_zero]

/-- A number with a semicolon behind it is one token and the semicolon. -/
theorem ofList_plain (trimmed : d.Trimmed)
    : ∃ token line, token.kind = .number ∧ token.literal = .number (reread d)
      ∧ ofList (d.plain ++ [';'])
        = ⟨[token] ++ [tokenOf .semicolon [';'] line, endToken line], []⟩ := by
  have spaced : Spaced [⟨.number, d.plain, []⟩] := by
    constructor
    case lexemes => simpa using matches_plain trimmed
    case gaps => simpa using Gap.nil
    case apart => simp
    case blank => simp
  have text : render [] [⟨.number, d.plain, []⟩] = d.plain := by simp [render, Written.text]
  obtain ⟨cut, line, stand, scanned⟩ := spaced.terminated .nil
  rw [text] at scanned
  cases stand with
  | @cons _ token _ _ first none =>
      cases none
      have kind : token.kind = .number := (Piece.token.inj first.kind).1.symm
      refine ⟨token, line, kind, ?_, scanned⟩
      have literal := first.literal.eq_literalOf
      rw [kind] at literal
      rw [literal]
      exact literalOf_plain trimmed

/-- A sign in front of a text is one token more. -/
theorem ofList_minus (text : List Char)
    : ofList ('-' :: text)
      = ⟨tokenOf .minus ['-'] 1 :: (ofList text).tokens, (ofList text).errors⟩ := by
  have sign : cut '-' text = (.token .minus ['-'], text) := rfl
  rw [ofList, pieces, sign]
  rfl

/-- The expression that the sign and the digits of a number write. -/
def signedExpr (negative : Bool) (x : Float) : Expr :=
  if negative then .unary (tokenOf .minus ['-'] 1) (.literal (.number x)) else .literal (.number x)

/-- The plain text of a decimal is a program of its double, behind its sign if it has one. -/
theorem program_of_plain (negative : Bool) (trimmed : d.Trimmed)
    : (Source.ofString (String.ofList (signed negative d.plain ++ [';']))).program
      = .ok [.expression (signedExpr negative (reread d))] := by
  obtain ⟨token, line, kind, literal, scanned⟩ := ofList_plain trimmed
  have primary : Grammar.Derives .primary [token] (.literal (.number (reread d))) := by
    rw [← literal]
    exact .number kind
  cases negative with
  | false => exact Source.program_of_expression scanned (primary.loosen (by decide))
  | true =>
      have minus
          : ofList ('-' :: (d.plain ++ [';']))
            = ⟨[tokenOf .minus ['-'] 1, token]
                ++ [tokenOf .semicolon [';'] line, endToken line], []⟩ := by
        rw [ofList_minus, scanned]
        rfl
      have unary : Grammar.Derives .unary [tokenOf .minus ['-'] 1, token]
          (.unary (tokenOf .minus ['-'] 1) (.literal (.number (reread d)))) :=
        .unary (.inr rfl) (.primary primary)
      exact Source.program_of_expression minus (unary.loosen (by decide))

/-- A printed number as a text: its form, its sign, the number that it denotes, and what comes of
it as a program.
-/
structure Printed (x : Float) : Prop where
  form : PlainForm (plain x)
  sign : (∃ rest, plain x = '-' :: rest) ↔ x.toBits.toBitVec.msb = true
  value : valueOf (plain x) = valueOf (natural x)
  evaluation
    : ∃ expr,
        (Source.ofString (String.ofList (plain x) ++ ";")).program = .ok [.expression expr]
        ∧ (∀ level, (expr.evaluate level).result = .ok (.number x))
        ∧ (x.toBits.toBitVec.msb = true →
          ∃ operator operand, operator.kind = .minus ∧ expr = .unary operator operand)

theorem signed_plain_eq_minus_iff (negative : Bool) (trimmed : d.Trimmed)
    : (∃ rest, signed negative d.plain = '-' :: rest) ↔ negative = true := by
  cases negative with
  | true => exact iff_of_true ⟨_, rfl⟩ rfl
  | false =>
      refine iff_of_false ?_ Bool.false_ne_true
      rintro ⟨rest, text⟩
      obtain ⟨c, others, cons, digit⟩ := (valid_plainParts trimmed).text_eq_cons
      rw [text_plainParts] at cons
      obtain ⟨rfl, -⟩ := List.cons.inj (cons.symm.trans text)
      cases digit

variable {x : Float} {negative : Bool} {magnitude : Decimal}

theorem Finite.plain_eq (finite : Finite x negative magnitude)
    : plain x = signed negative magnitude.plain := by
  rw [plain, finite.form]

theorem Finite.natural_eq (finite : Finite x negative magnitude)
    : natural x = signed negative magnitude.natural := by
  rw [natural, finite.form]

/-- The plain text of a double is a program that evaluates to the double. -/
theorem Finite.evaluation (finite : Finite x negative magnitude)
    : (Source.ofString (String.ofList (plain x) ++ ";")).program
        = .ok [.expression (signedExpr negative (reread magnitude))]
      ∧ (signedExpr negative (reread magnitude)).value = .ok (.number x) := by
  have same := finite.reads _ (decimal_plainParts magnitude)
  constructor
  · have program := program_of_plain negative finite.trimmed
    rwa [String.ofList_append, ← finite.plain_eq] at program
  · cases negative with
    | false => exact congrArg (Except.ok ∘ Datum.number) same
    | true => exact congrArg (Except.ok ∘ Datum.number) same

theorem Finite.printed (finite : Finite x negative magnitude) : Printed x := by
  obtain ⟨program, value⟩ := finite.evaluation
  obtain ⟨first, second⟩ := valueOf_texts negative finite.trimmed
  constructor
  case form =>
    rw [finite.plain_eq]
    exact plainForm_signed negative finite.trimmed
  case sign =>
    rw [finite.plain_eq, finite.sign]
    exact signed_plain_eq_minus_iff negative finite.trimmed
  case value => rw [finite.plain_eq, finite.natural_eq, first, second]
  case evaluation =>
    refine ⟨_, program, fun level => ?_, fun sign => ?_⟩
    · rw [Expr.evaluate_result, value]
    · rw [finite.sign] at sign
      rw [sign]
      exact ⟨_, _, rfl, rfl⟩

/-- The plain text of a finite double is a decimal without a power of ten, exactly as large as the
natural text says. As a program, it evaluates to the double, and no other finite double has this
text.
-/
theorem printed_numbers_read_back {x : Float} (finite : x.isFinite = true)
    : Printed x ∧ ∀ y : Float, y.isFinite = true → plain x = plain y → x = y := by
  obtain ⟨_, _, parts⟩ := exists_finite finite
  refine ⟨parts.printed, fun y finite' same => ?_⟩
  obtain ⟨_, _, parts'⟩ := exists_finite finite'
  obtain ⟨program, value⟩ := parts.evaluation
  obtain ⟨program', value'⟩ := parts'.evaluation
  rw [same, program'] at program
  obtain ⟨statement, -⟩ := List.cons.inj (Except.ok.inj program)
  rw [Stmt.expression.inj statement, value] at value'
  exact Datum.number.inj (Except.ok.inj value')

/-- A small negative number, which the natural text writes with a power of ten. -/
theorem printed_numbers_read_back_of_power
    : let x : Float := -1e-7
      x.isFinite = true
      ∧ Printed x
      ∧ String.ofList (natural x) = "-1e-07"
      ∧ String.ofList (plain x) = "-0.0000001" := by
  intro x
  have finite : x.isFinite = true := by decide +kernel
  have texts : natural x = "-1e-07".toList ∧ plain x = "-0.0000001".toList := by decide +kernel
  refine ⟨finite, (printed_numbers_read_back finite).1, ?_⟩
  rw [texts.1, texts.2]
  exact ⟨rfl, rfl⟩

end Number

end Lox
