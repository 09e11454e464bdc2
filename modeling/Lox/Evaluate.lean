import Lox.Trace
import Lox.Tree.Basic

/-! Evaluation of expressions.
Operands are evaluated from left to right, and all of them before their operator is applied. The
first operator that fails ends the evaluation.
-/

namespace Lox

/-- Applies a binary operator and takes down the kinds of its operands first. -/
def dispatch (level : Nat) (operator : Token) (left right : Datum) : Traced Datum := do
  .note level (.dispatch operator.kind left.kind right.kind)
  .of (operator.applyBinary left right)

/-- The value of an expression, at a level of detail. -/
def Expr.evaluate (level : Nat) : Expr → Traced Datum
  | .literal value => pure value
  | .grouping inner => inner.evaluate level
  | .unary operator operand => do
      let value ← operand.evaluate level
      let result ← .of (operator.applyUnary value)
      .note level (.unary operator value result)
      return result
  | .binary left operator right => do
      let first ← left.evaluate level
      let second ← right.evaluate level
      let result ← dispatch level operator first second
      .note level (.binary operator first second result)
      return result

end Lox
