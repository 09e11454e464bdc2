import Lox.Number.Shortest

/-! The two texts of a number.
The natural text shows what kind of value it is and switches to powers of ten for large and small
numbers. The plain text is what programs print: it has no power of ten and no empty fraction.
-/

namespace Lox.Number

/-- A double as far as its texts show it. -/
inductive Form where
  | notANumber
  | infinite (negative : Bool)
  | finite (negative : Bool) (magnitude : Decimal)
deriving DecidableEq

/-- The form of a double; the magnitude of a finite one is its shortest decimal. -/
def form (x : Float) : Form :=
  match x.toModel.unpack with
  | .notANumber => .notANumber
  | .infinity sign => .infinite (sign matches .negative)
  | .zero sign => .finite (sign matches .negative) ⟨0, 0⟩
  | .finite sign mantissa exponent _ =>
      .finite (sign matches .negative) (RoundingInterval.ofBinary mantissa exponent).shortest

/-- Digits behind their sign. -/
def signed (negative : Bool) (digits : List Char) : List Char :=
  if negative then '-' :: digits else digits

/-- The natural text of a number. -/
def natural (x : Float) : List Char :=
  match form x with
  | .notANumber => "nan".toList
  | .infinite negative => signed negative "inf".toList
  | .finite negative magnitude => signed negative magnitude.natural

/-- The plain text of a number. -/
def plain (x : Float) : List Char :=
  match form x with
  | .notANumber => "NaN".toList
  | .infinite negative => signed negative "inf".toList
  | .finite negative magnitude => signed negative magnitude.plain

/-- The whole number that a finite double is rounded to toward zero. -/
def truncate? (x : Float) : Option Int :=
  match x.toModel.unpack with
  | .notANumber | .infinity _ => none
  | .zero _ => some 0
  | .finite sign mantissa exponent _ =>
      let size : Int := mantissa * wholePower 2 exponent / wholePower 2 (-exponent)
      some (if sign matches .negative then -size else size)

/-- Whether a double is exactly the whole number `n`. -/
def isInteger (x : Float) (n : Int) : Bool :=
  match x.toModel.unpack with
  | .notANumber | .infinity _ => false
  | .zero _ => n = 0
  | .finite sign mantissa exponent _ =>
      (if sign matches .negative then -(mantissa : Int) else mantissa) * wholePower 2 exponent
        = n * wholePower 2 (-exponent)

/-- The double nearest to a whole number, if that is not beyond the largest double. -/
def ofInteger? (n : Int) : Option Float :=
  let x := Float.ofInt n
  if x.isInf then none else some x

end Lox.Number
