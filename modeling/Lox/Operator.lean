import Lox.Datum.Equality
import Lox.Token

/-! What operators do to values.
An operator first checks the kinds of its operands and never looks further when they are wrong.
Tokens of any kind may stand as operators in documents; those that are none fail when applied.
-/

namespace Lox

/-- Why an operator cannot be applied. -/
inductive RuntimeFault where
  | operandNotNumber
  | operandsNotNumbers
  | operandsNotAddable
  | unknownUnary
  | unknownBinary
deriving DecidableEq

/-- An operator that could not be applied. -/
structure RuntimeError where
  token : Token
  fault : RuntimeFault

def RuntimeError.message (error : RuntimeError) : Text :=
  match error.fault with
  | .operandNotNumber => "Operand must be a number."
  | .operandsNotNumbers => "Operands must be numbers."
  | .operandsNotAddable => "Operands must be two numbers or two strings."
  | .unknownUnary => "Unknown unary operator '" ++ error.token.lexeme.bare ++ "'."
  | .unknownBinary => "Unknown binary operator '" ++ error.token.lexeme.bare ++ "'."

namespace Datum

/-- Only nil and false count as false. -/
def truthy : Datum → Bool
  | .nil => false
  | .boolean truth => truth
  | _ => true

def isNumber : Datum → Bool
  | .number _ => true
  | _ => false

end Datum

namespace Token

/-- The value of a unary operator at an operand. -/
def applyUnary (operator : Token) (operand : Datum) : Except RuntimeError Datum :=
  match operator.kind with
  | .minus =>
      match operand with
      | .number x => .ok (.number (-x))
      | _ => .error ⟨operator, .operandNotNumber⟩
  | .bang => .ok (.boolean !operand.truthy)
  | _ => .error ⟨operator, .unknownUnary⟩

/-- The value of an operator that takes numbers only. -/
def applyNumeric (operator : Token) (operation : Float → Float → Datum) (left right : Datum)
    : Except RuntimeError Datum :=
  match left, right with
  | .number x, .number y => .ok (operation x y)
  | _, _ => .error ⟨operator, .operandsNotNumbers⟩

/-- The value of a sum: numbers are added and strings are joined. -/
def applyPlus (operator : Token) (left right : Datum) : Except RuntimeError Datum :=
  match left, right with
  | .number x, .number y => .ok (.number (x + y))
  | .string s, .string t => .ok (.string (s ++ t))
  | _, _ => .error ⟨operator, .operandsNotAddable⟩

/-- The value of a binary operator at two operands. -/
def applyBinary (operator : Token) (left right : Datum) : Except RuntimeError Datum :=
  match operator.kind with
  | .plus => operator.applyPlus left right
  | .minus => operator.applyNumeric (fun x y => .number (x - y)) left right
  | .star => operator.applyNumeric (fun x y => .number (x * y)) left right
  | .slash => operator.applyNumeric (fun x y => .number (x / y)) left right
  | .greater => operator.applyNumeric (fun x y => .boolean (x > y)) left right
  | .greaterEqual => operator.applyNumeric (fun x y => .boolean (x ≥ y)) left right
  | .less => operator.applyNumeric (fun x y => .boolean (x < y)) left right
  | .lessEqual => operator.applyNumeric (fun x y => .boolean (x ≤ y)) left right
  | .equalEqual => .ok (.boolean (left.same right))
  | .bangEqual => .ok (.boolean !left.same right)
  | _ => .error ⟨operator, .unknownBinary⟩

end Token

end Lox
