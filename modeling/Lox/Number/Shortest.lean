import Lox.Number.Decimal

/-! The decimal with the fewest digits that still identifies a binary number.
A grid holds the multiples of one power of ten. The search goes from coarse grids to finer ones and
stops at the first that has a point among the reals that round to the number. Of two such
neighbours the nearer one counts, and of two equally near ones the even one.
-/

namespace Lox

/-- The reals that round to `mantissa * 2 ^ exponent`, as fractions over one denominator. -/
structure RoundingInterval where
  value : Nat
  lower : Nat
  upper : Nat
  denominator : Nat
  /-- Whether the two ends round to the number as well. -/
  closed : Bool

namespace RoundingInterval

/-- The interval of a positive double. Its lower half is shorter when the next double below has
a smaller exponent.
-/
def ofBinary (mantissa : Nat) (exponent : Int) : RoundingInterval :=
  let unit := wholePower 2 exponent
  let value := 4 * mantissa * unit
  let below := if mantissa = wholePower 2 52 ∧ -1074 < exponent then unit else 2 * unit
  { value
    lower := value - below
    upper := value + 2 * unit
    denominator := 4 * wholePower 2 (-exponent)
    closed := mantissa % 2 = 0 }

/-- Whether `multiple * 10 ^ power` lies in the interval. -/
def covers (interval : RoundingInterval) (multiple : Nat) (power : Int) : Bool :=
  let point := multiple * wholePower 10 power * interval.denominator
  let scale := wholePower 10 (-power)
  if interval.closed then interval.lower * scale ≤ point ∧ point ≤ interval.upper * scale
  else interval.lower * scale < point ∧ point < interval.upper * scale

/-- The multiple of `10 ^ power` that is next to the value and not above it. -/
def floor (interval : RoundingInterval) (power : Int) : Nat :=
  interval.value * wholePower 10 (-power) / (wholePower 10 power * interval.denominator)

/-- Whether the value is nearer to the multiple below it than to the one above it; a tie goes to
the even multiple.
-/
def roundsDown (interval : RoundingInterval) (power : Int) : Bool :=
  let multiple := interval.floor power
  let twice := 2 * interval.value * wholePower 10 (-power)
  let middle := (2 * multiple + 1) * wholePower 10 power * interval.denominator
  twice < middle ∨ twice = middle ∧ multiple % 2 = 0

/-- The nearer of the value's neighbours among the multiples of `10 ^ power` that the interval
covers.
-/
def candidate (interval : RoundingInterval) (power : Int) : Option Nat :=
  let multiple := interval.floor power
  match interval.covers multiple power, interval.covers (multiple + 1) power with
  | true, true => some (if interval.roundsDown power then multiple else multiple + 1)
  | true, false => some multiple
  | false, true => some (multiple + 1)
  | false, false => none

/-- The number of digits before the point of the value; zeros after the point count down. -/
def magnitude (interval : RoundingInterval) : Int :=
  let guess : Int :=
    (Nat.toDigits 10 interval.value).length - (Nat.toDigits 10 interval.denominator).length
  let low := interval.denominator * wholePower 10 guess
  if low ≤ interval.value * wholePower 10 (-guess) then guess + 1 else guess

/-- The shortest decimal in the interval. Seventeen digits tell any two doubles apart. -/
def shortest (interval : RoundingInterval) : Decimal :=
  let powers := (List.range 17).map fun (count : Nat) => interval.magnitude - 1 - count
  match powers.findSome? fun power => (interval.candidate power).map (·, power) with
  | some (multiple, power) => Decimal.trim multiple power
  | none =>
      let power := interval.magnitude - 17
      Decimal.trim (interval.floor power) power

end RoundingInterval

end Lox
