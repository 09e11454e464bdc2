/-! Finite decimals and their written forms.
A decimal is a whole coefficient with a power of ten. Both of its written forms come from one
expansion into the digits before and after the point.
-/

namespace Lox

/-- The power of a base, where a negative exponent counts as zero. -/
def wholePower (base : Nat) (exponent : Int) : Nat :=
  Nat.pow base exponent.toNat

/-- The number `coefficient * 10 ^ exponent`. -/
structure Decimal where
  coefficient : Nat
  exponent : Int
deriving DecidableEq

namespace Decimal

/-- The same number with no zero at the end of the coefficient; zero itself has exponent zero. -/
def trim (coefficient : Nat) (exponent : Int) : Decimal :=
  if coefficient = 0 then ⟨0, 0⟩
  else if coefficient % 10 = 0 then trim (coefficient / 10) (exponent + 1)
  else ⟨coefficient, exponent⟩
termination_by coefficient
decreasing_by omega

/-- The digits of the coefficient, the most significant one first. -/
def digits (d : Decimal) : List Char :=
  Nat.toDigits 10 d.coefficient

/-- The position of the point, counted from the front of the digits. -/
def point (d : Decimal) : Int :=
  d.digits.length + d.exponent

/-- The digits before the point of the expansion without a power of ten. -/
def whole (d : Decimal) : List Char :=
  if d.point ≤ 0 then ['0']
  else d.digits.take d.point.toNat ++ List.replicate d.exponent.toNat '0'

/-- The digits after the point of the expansion without a power of ten. -/
def fraction (d : Decimal) : List Char :=
  if d.point ≤ 0 then List.replicate (-d.point).toNat '0' ++ d.digits
  else d.digits.drop d.point.toNat

/-- The expansion without a power of ten; a whole number is written without a point. -/
def plain (d : Decimal) : List Char :=
  if d.fraction.isEmpty then d.whole
  else d.whole ++ '.' :: d.fraction

/-- A power of ten as it follows the mark `e`: a sign and at least two digits. -/
def powerText (power : Int) : List Char :=
  let digits := Nat.toDigits 10 power.natAbs
  (if power < 0 then '-' else '+') :: (if digits.length < 2 then '0' :: digits else digits)

/-- One digit before the point, the others after it, and a power of ten. -/
def scientific (d : Decimal) : List Char :=
  let power := 'e' :: powerText (d.point - 1)
  match d.digits with
  | first :: second :: rest => first :: '.' :: second :: rest ++ power
  | digits => digits ++ power

/-- The form that writes numbers of ordinary size without a power of ten (one to sixteen digits
before the point, or at most three zeros after it) and always shows that it may have a fraction.
-/
def natural (d : Decimal) : List Char :=
  if -4 < d.point ∧ d.point ≤ 16 then
    d.whole ++ '.' :: (if d.fraction.isEmpty then ['0'] else d.fraction)
  else d.scientific

/-- The double nearest to the decimal, ties to the even one. -/
def toFloat (d : Decimal) : Float :=
  Float.ofScientific d.coefficient (d.exponent < 0) d.exponent.natAbs

/-- The decimal written as digits before and after a point. -/
def ofDigits (whole fraction : List Char) : Decimal :=
  ⟨Nat.ofDigitChars 10 (whole ++ fraction) 0, -fraction.length⟩

end Decimal

end Lox
