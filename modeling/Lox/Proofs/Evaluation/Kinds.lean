import Lox.Proofs.Evaluation.Value

/-! Kinds decide which operators fail.
The kinds of the literals of an expression determine whether it has a value, the kind of that value,
and otherwise the operator that fails and why. The contents of literals play no part.
-/

namespace Lox

/-- An expression of which only the kinds of the literals are known. -/
inductive Skeleton where
  | binary (left : Skeleton) (operator : Token) (right : Skeleton)
  | grouping (inner : Skeleton)
  | literal (kind : Datum.Kind)
  | unary (operator : Token) (operand : Skeleton)

def Expr.skeleton : Expr → Skeleton
  | .binary left operator right => .binary left.skeleton operator right.skeleton
  | .grouping inner => .grouping inner.skeleton
  | .literal value => .literal value.kind
  | .unary operator operand => .unary operator operand.skeleton

/-- All literals of the expression are values of the language. -/
def Expr.Valued : Expr → Prop
  | .binary left _ right => left.Valued ∧ right.Valued
  | .grouping inner => inner.Valued
  | .literal value => value.isValue = true
  | .unary _ operand => operand.Valued

namespace Token

/-- The kind of what a unary operator makes of an operand of a kind. -/
def unaryKind (operator : Token) (operand : Datum.Kind) : Except RuntimeError Datum.Kind :=
  match operator.kind with
  | .minus => if operand = .number then .ok .number else .error ⟨operator, .operandNotNumber⟩
  | .bang => .ok .boolean
  | _ => .error ⟨operator, .unknownUnary⟩

/-- The kind of what an operator on numbers makes of operands of two kinds. -/
def numericKind (operator : Token) (result left right : Datum.Kind)
    : Except RuntimeError Datum.Kind :=
  if left = .number ∧ right = .number then .ok result else .error ⟨operator, .operandsNotNumbers⟩

/-- The kind of what a binary operator makes of operands of two kinds. -/
def binaryKind (operator : Token) (left right : Datum.Kind) : Except RuntimeError Datum.Kind :=
  match operator.kind with
  | .plus =>
      if left = .number ∧ right = .number then .ok .number
      else if left = .string ∧ right = .string then .ok .string
      else .error ⟨operator, .operandsNotAddable⟩
  | .minus | .star | .slash => operator.numericKind .number left right
  | .greater | .greaterEqual | .less | .lessEqual => operator.numericKind .boolean left right
  | .equalEqual | .bangEqual => .ok .boolean
  | _ => .error ⟨operator, .unknownBinary⟩

end Token

/-- The kind of the value that expressions with the skeleton have, or the error of each of them. -/
def Skeleton.kind : Skeleton → Except RuntimeError Datum.Kind
  | .literal kind => .ok kind
  | .grouping inner => inner.kind
  | .unary operator operand => do operator.unaryKind (← operand.kind)
  | .binary left operator right => do
      let first ← left.kind
      let second ← right.kind
      operator.binaryKind first second

theorem Token.applyUnary_kind (operator : Token) (operand : Datum)
    : (operator.applyUnary operand).map Datum.kind = operator.unaryKind operand.kind := by
  unfold applyUnary unaryKind
  cases operator.kind <;> cases operand <;> rfl

theorem Token.applyNumeric_kind (operator : Token) {operation : Float → Float → Datum}
    {result : Datum.Kind} (kinds : ∀ x y, (operation x y).kind = result) (left right : Datum)
    : (operator.applyNumeric operation left right).map Datum.kind
      = operator.numericKind result left.kind right.kind := by
  unfold applyNumeric numericKind
  cases left <;> cases right <;> first | rfl | exact congrArg Except.ok (kinds _ _)

theorem Token.applyPlus_kind (operator : Token) (left right : Datum) (plus : operator.kind = .plus)
    : (operator.applyPlus left right).map Datum.kind
      = operator.binaryKind left.kind right.kind := by
  unfold applyPlus binaryKind
  rw [plus]
  cases left <;> cases right <;> rfl

theorem Token.applyBinary_kind (operator : Token) (left right : Datum)
    : (operator.applyBinary left right).map Datum.kind
      = operator.binaryKind left.kind right.kind := by
  cases same : operator.kind with
  | plus =>
      rw [applyBinary, same]
      exact operator.applyPlus_kind left right same
  | minus | star | slash | greater | greaterEqual | less | lessEqual =>
      rw [applyBinary, binaryKind, same]
      exact operator.applyNumeric_kind (by intros; rfl) left right
  | _ =>
      rw [applyBinary, binaryKind, same]
      rfl

/-- The value of an expression has the kind of its skeleton, or fails with the skeleton's error, by
induction on the expression.
-/
theorem Expr.value_kind (expr : Expr) : expr.value.map Datum.kind = expr.skeleton.kind := by
  induction expr with
  | literal => rfl
  | grouping _ ih => exact ih
  | unary operator operand ih => exact map_bind_eq ih operator.applyUnary_kind
  | binary left operator right leftIh rightIh =>
      refine map_bind_eq leftIh fun first => ?_
      exact map_bind_eq rightIh fun second => operator.applyBinary_kind first second

end Lox
