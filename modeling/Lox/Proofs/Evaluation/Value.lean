import Lox.Execute
import Lox.Proofs.Result

/-! Values without notes.
The level of detail decides what is taken down, never what an expression evaluates to. The value of
an expression is therefore a function of the expression alone.
-/

namespace Lox

namespace Traced

variable {α β : Type}

@[simp]
theorem result_pure (value : α) : (pure value : Traced α).result = .ok value := rfl

@[simp]
theorem result_of (result : Except RuntimeError α) : (of result).result = result := rfl

@[simp]
theorem result_note (level : Nat) (taken : Note) : (note level taken).result = .ok () := rfl

theorem result_bind (first : Traced α) (next : α → Traced β)
    : (first >>= next).result = first.result >>= fun value => (next value).result := by
  change (andThen first next).result = _
  unfold andThen
  cases first.result <;> rfl

end Traced

/-- The value of an expression, or the error of its first operator that fails. -/
def Expr.value : Expr → Except RuntimeError Datum
  | .literal value => .ok value
  | .grouping inner => inner.value
  | .unary operator operand => do operator.applyUnary (← operand.value)
  | .binary left operator right => do
      let first ← left.value
      let second ← right.value
      operator.applyBinary first second

/-- Evaluation at any level gives the value, by induction on the expression. -/
theorem Expr.evaluate_result (level : Nat) (expr : Expr)
    : (expr.evaluate level).result = expr.value := by
  induction expr with
  | literal => rfl
  | grouping _ ih => exact ih
  | unary operator operand ih =>
      simp only [evaluate, value, Traced.result_bind, ih, Traced.result_of, Traced.result_note,
        Traced.result_pure]
      exact congrArg _ (funext fun first => bind_ok (operator.applyUnary first))
  | binary left operator right leftIh rightIh =>
      simp only [evaluate, value, dispatch, Traced.result_bind, leftIh, rightIh, Traced.result_of,
        Traced.result_note, Traced.result_pure]
      refine congrArg _ (funext fun first => congrArg _ (funext fun second => ?_))
      exact bind_ok (operator.applyBinary first second)

end Lox
