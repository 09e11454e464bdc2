import Lox.Datum.Text
import Lox.Text.Numeral

/-! Line numbers in documents.
A line may be given as an integer, as a truth value, as a number whose fraction is dropped, or as
the text of a whole number.
-/

namespace Lox.Document

/-- Why a datum gives no line. -/
inductive LineError where
  | notNumeric (kind : Datum.Kind)
  | unreadable (text : Text)
  | tooLong (digits : Nat)
  | notANumber
  | infinite
deriving DecidableEq

/-- The characters of a text as a numeral. A surrogate is no part of one, and neither is the
question mark in its place.
-/
def numeralOf (text : Text) : List Char :=
  text.points.map fun point => point.char?.getD '?'

/-- The line that a datum gives. -/
def lineOf : Datum → Except LineError Int
  | .integer n => .ok n
  | .boolean truth => .ok (if truth then 1 else 0)
  | .number x =>
      match Number.truncate? x with
      | some n => .ok n
      | none => .error (if x.isNaN then .notANumber else .infinite)
  | .string text =>
      match Text.integer (numeralOf text) with
      | .ok n => .ok n
      | .error .unreadable => .error (.unreadable text)
      | .error (.tooLong digits) => .error (.tooLong digits)
  | d => .error (.notNumeric d.kind)

end Lox.Document
