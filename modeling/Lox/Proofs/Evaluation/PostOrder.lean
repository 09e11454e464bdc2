import Lox.Proofs.Evaluation.Settling
import Mathlib.Data.List.Forall2

/-! The order in which operators are applied.
The operators of an expression are applied in postorder, each to the values of its operands, up to
the first one that fails. So no operator looks at an operand before both are evaluated, and an error
in an operand comes before any error of the operator that waits for it.
-/

namespace Lox

/-- The note tells the result of an operator. -/
def Note.isResult : Note → Bool
  | .unary .. | .binary .. => true
  | .dispatch .. | .printed _ | .discarded _ | .stopped _ => false

namespace Expr

/-- The nodes with an operator: those in the left operand, those in the right one, the node itself.
-/
def postOrder : Expr → List Expr
  | .binary left operator right =>
      left.postOrder ++ right.postOrder ++ [.binary left operator right]
  | .grouping inner => inner.postOrder
  | .literal _ => []
  | .unary operator operand => operand.postOrder ++ [.unary operator operand]

/-- The operator of the node itself. -/
def operator? : Expr → Option Token
  | .binary _ operator _ | .unary operator _ => some operator
  | .grouping _ | .literal _ => none

/-- All operators of the expression can be applied, and this is its value. -/
inductive HasValue : Expr → Datum → Prop where
  | literal (value : Datum)
      : HasValue (.literal value) value
  | grouping {inner : Expr} {value : Datum}
      (h : HasValue inner value)
      : HasValue (.grouping inner) value
  | unary {operator : Token} {operand : Expr} {value result : Datum}
      (evaluated : HasValue operand value)
      (applied : operator.applyUnary value = .ok result)
      : HasValue (.unary operator operand) result
  | binary {operator : Token} {left right : Expr} {first second result : Datum}
      (leftEvaluated : HasValue left first)
      (rightEvaluated : HasValue right second)
      (applied : operator.applyBinary first second = .ok result)
      : HasValue (.binary left operator right) result

/-- Applying the operator of a node to the values of its operands has this outcome. -/
inductive Applies : Expr → Except RuntimeError Datum → Prop where
  | unary {operator : Token} {operand : Expr} {value : Datum}
      (evaluated : operand.HasValue value)
      : Applies (.unary operator operand) (operator.applyUnary value)
  | binary {operator : Token} {left right : Expr} {first second : Datum}
      (leftEvaluated : left.HasValue first)
      (rightEvaluated : right.HasValue second)
      : Applies (.binary left operator right) (operator.applyBinary first second)

def Succeeds (node : Expr) : Prop :=
  ∃ result, node.Applies (.ok result)

/-- The operator of the node can be applied, and this is the note of its result. -/
inductive Noted : Expr → Note → Prop where
  | unary {operator : Token} {operand : Expr} {value result : Datum}
      (evaluated : operand.HasValue value)
      (applied : operator.applyUnary value = .ok result)
      : Noted (.unary operator operand) (.unary operator value result)
  | binary {operator : Token} {left right : Expr} {first second result : Datum}
      (leftEvaluated : left.HasValue first)
      (rightEvaluated : right.HasValue second)
      (applied : operator.applyBinary first second = .ok result)
      : Noted (.binary left operator right) (.binary operator first second result)

end Expr

/-- The notes that tell results of operators. -/
def Traced.results {α : Type} (traced : Traced α) : List Note :=
  traced.notes.filter Note.isResult

-----------------------------------------------------------------------------------------
-- Outcomes of nodes
-----------------------------------------------------------------------------------------

namespace Expr

variable {expr node : Expr} {value : Datum} {note : Note}

theorem HasValue.value_eq (h : expr.HasValue value) : expr.value = .ok value := by
  induction h with
  | literal => rfl
  | grouping _ ih => exact ih
  | unary _ applied ih =>
      rw [Expr.value, ih]
      exact applied
  | binary _ _ applied leftIh rightIh =>
      rw [Expr.value, leftIh, rightIh]
      exact applied

/-- A node has one outcome, which is its value or its error. -/
theorem Applies.value_eq {outcome : Except RuntimeError Datum} (h : node.Applies outcome)
    : node.value = outcome := by
  cases h with
  | unary evaluated =>
      rw [Expr.value, evaluated.value_eq]
      rfl
  | binary leftEvaluated rightEvaluated =>
      rw [Expr.value, leftEvaluated.value_eq, rightEvaluated.value_eq]
      rfl

theorem Succeeds.not_fails {error : RuntimeError} (h : node.Succeeds)
    : ¬node.Applies (.error error) := by
  intro failed
  obtain ⟨result, succeeded⟩ := h
  have both := succeeded.value_eq.symm.trans failed.value_eq
  cases both

theorem Noted.succeeds (h : node.Noted note) : node.Succeeds := by
  cases h with
  | @unary operator _ _ result evaluated applied =>
      have outcome := @Applies.unary operator _ _ evaluated
      rw [applied] at outcome
      exact ⟨result, outcome⟩
  | @binary operator _ _ _ _ result leftEvaluated rightEvaluated applied =>
      have outcome := @Applies.binary operator _ _ _ _ leftEvaluated rightEvaluated
      rw [applied] at outcome
      exact ⟨result, outcome⟩

theorem succeeds_of_noted {nodes : List Expr} {notes : List Note}
    (h : List.Forall₂ Noted nodes notes)
    : ∀ node ∈ nodes, node.Succeeds := by
  induction h with
  | nil => simp
  | cons head _ ih => exact List.forall_mem_cons.mpr ⟨head.succeeds, ih⟩

/-- The first node that fails is determined, by induction on the nodes before it. -/
theorem first_failure_unique {before others after rest : List Expr} {other : Expr}
    {error found : RuntimeError}
    (same : before ++ node :: after = others ++ other :: rest)
    (succeed : ∀ earlier ∈ before, earlier.Succeeds)
    (failed : node.Applies (.error error))
    (othersSucceed : ∀ earlier ∈ others, earlier.Succeeds)
    (otherFailed : other.Applies (.error found))
    : before = others ∧ node = other := by
  induction before generalizing others with
  | nil =>
      cases others with
      | nil => exact ⟨rfl, (List.cons.inj same).1⟩
      | cons first =>
          obtain ⟨rfl, -⟩ := List.cons.inj same
          exact absurd failed (othersSucceed _ List.mem_cons_self).not_fails
  | cons first more ih =>
      obtain ⟨firstSucceeds, moreSucceed⟩ := List.forall_mem_cons.mp succeed
      cases others with
      | nil =>
          obtain ⟨rfl, -⟩ := List.cons.inj same
          exact absurd otherFailed firstSucceeds.not_fails
      | cons =>
          obtain ⟨rfl, later⟩ := List.cons.inj same
          obtain ⟨rfl, rfl⟩ := ih later moreSucceed (List.forall_mem_cons.mp othersSucceed).2
          exact ⟨rfl, rfl⟩

end Expr

-----------------------------------------------------------------------------------------
-- Notes of results
-----------------------------------------------------------------------------------------

namespace Traced

variable {α β : Type} {first : Traced α} {next : α → Traced β}

theorem results_bind_of_ok {value : α} (h : first.result = .ok value)
    : (first >>= next).results = first.results ++ (next value).results := by
  change (first.andThen next).results = _
  rw [andThen, h, results, List.filter_append]
  rfl

theorem results_bind_of_error {error : RuntimeError} (h : first.result = .error error)
    : (first >>= next).results = first.results := by
  change (first.andThen next).results = _
  rw [andThen, h]
  rfl

theorem results_of (result : Except RuntimeError α) : (of result).results = [] := rfl

theorem results_dispatch (level : Nat) (operator : Token) (left right : Datum)
    : (dispatch level operator left right).results = [] := by
  rw [dispatch, results_bind_of_ok rfl, results_of, List.append_nil, results, note, Note.takenAt]
  split <;> rfl

/-- From the second level on, the result of an operator is noted. -/
theorem results_noted {level : Nat} (detailed : 2 ≤ level) {taken : Note}
    (isResult : taken.isResult = true) (value : Datum)
    : (note level taken >>= fun _ => pure value).results = [taken] := by
  have taken_level : taken.level = 2 := by
    cases taken <;> first | rfl | cases isResult
  have noted : taken.takenAt level = [taken] := by
    rw [Note.takenAt, taken_level, if_pos detailed]
  rw [results_bind_of_ok rfl, results, note, noted]
  simp [isResult, pure, of, results]

end Traced

-----------------------------------------------------------------------------------------
-- Evaluation
-----------------------------------------------------------------------------------------

namespace Expr

/-- The evaluation applies all operators of the expression, notes their results from the second
level on, and ends with the value.
-/
structure EndsWith (level : Nat) (expr : Expr) (value : Datum) : Prop where
  hasValue : expr.HasValue value
  result : (expr.evaluate level).result = .ok value
  noted : 2 ≤ level → List.Forall₂ Noted expr.postOrder (expr.evaluate level).results

/-- The evaluation applies the operators of some nodes, notes their results from the second level
on, and fails at the next node.
-/
structure StopsBehind (level : Nat) (expr : Expr) (before : List Expr) (error : RuntimeError)
    : Prop where
  node : ∃ node after, expr.postOrder = before ++ node :: after ∧ node.Applies (.error error)
  result : (expr.evaluate level).result = .error error
  noted : 2 ≤ level → List.Forall₂ Noted before (expr.evaluate level).results

variable {level : Nat} {operator : Token} {operand left right : Expr}
  {value first second result : Datum} {before : List Expr} {error : RuntimeError}

theorem EndsWith.unary (ends : operand.EndsWith level value)
    (applied : operator.applyUnary value = .ok result)
    : (Expr.unary operator operand).EndsWith level result where
  hasValue := .unary ends.hasValue applied
  result := by
    rw [evaluate_result, Expr.value, ends.hasValue.value_eq]
    exact applied
  noted detailed := by
    rw [evaluate, Traced.results_bind_of_ok ends.result, Traced.results_bind_of_ok applied,
      Traced.results_of, List.nil_append, Traced.results_noted detailed rfl]
    have own := Noted.unary ends.hasValue applied
    exact List.rel_append (ends.noted detailed) (.cons own .nil)

theorem EndsWith.unary_fails (ends : operand.EndsWith level value)
    (applied : operator.applyUnary value = .error error)
    : (Expr.unary operator operand).StopsBehind level operand.postOrder error where
  node := ⟨_, [], rfl, applied ▸ .unary ends.hasValue⟩
  result := by
    rw [evaluate_result, Expr.value, ends.hasValue.value_eq]
    exact applied
  noted detailed := by
    rw [evaluate, Traced.results_bind_of_ok ends.result, Traced.results_bind_of_error applied,
      Traced.results_of, List.append_nil]
    exact ends.noted detailed

theorem StopsBehind.unary (stops : operand.StopsBehind level before error)
    : (Expr.unary operator operand).StopsBehind level before error where
  node := by
    obtain ⟨node, after, order, failed⟩ := stops.node
    exact ⟨node, after ++ [.unary operator operand], by simp [postOrder, order], failed⟩
  result := by
    rw [evaluate, Traced.result_bind, stops.result]
    rfl
  noted detailed := by
    rw [evaluate, Traced.results_bind_of_error stops.result]
    exact stops.noted detailed

theorem EndsWith.binary (leftEnds : left.EndsWith level first)
    (rightEnds : right.EndsWith level second)
    (applied : operator.applyBinary first second = .ok result)
    : (Expr.binary left operator right).EndsWith level result where
  hasValue := .binary leftEnds.hasValue rightEnds.hasValue applied
  result := by
    rw [evaluate_result, Expr.value, leftEnds.hasValue.value_eq, rightEnds.hasValue.value_eq]
    exact applied
  noted detailed := by
    have dispatched : (dispatch level operator first second).result = .ok result := applied
    rw [evaluate, Traced.results_bind_of_ok leftEnds.result,
      Traced.results_bind_of_ok rightEnds.result, Traced.results_bind_of_ok dispatched,
      Traced.results_dispatch, List.nil_append, Traced.results_noted detailed rfl,
      ← List.append_assoc]
    have operands := List.rel_append (leftEnds.noted detailed) (rightEnds.noted detailed)
    have own := Noted.binary leftEnds.hasValue rightEnds.hasValue applied
    exact List.rel_append operands (.cons own .nil)

theorem EndsWith.binary_fails (leftEnds : left.EndsWith level first)
    (rightEnds : right.EndsWith level second)
    (applied : operator.applyBinary first second = .error error)
    : (Expr.binary left operator right).StopsBehind level (left.postOrder ++ right.postOrder) error
    where
  node := ⟨_, [], rfl, applied ▸ .binary leftEnds.hasValue rightEnds.hasValue⟩
  result := by
    rw [evaluate_result, Expr.value, leftEnds.hasValue.value_eq, rightEnds.hasValue.value_eq]
    exact applied
  noted detailed := by
    have dispatched : (dispatch level operator first second).result = .error error := applied
    rw [evaluate, Traced.results_bind_of_ok leftEnds.result,
      Traced.results_bind_of_ok rightEnds.result, Traced.results_bind_of_error dispatched,
      Traced.results_dispatch, List.append_nil]
    exact List.rel_append (leftEnds.noted detailed) (rightEnds.noted detailed)

theorem StopsBehind.binary_left (stops : left.StopsBehind level before error)
    : (Expr.binary left operator right).StopsBehind level before error where
  node := by
    obtain ⟨node, after, order, failed⟩ := stops.node
    exact ⟨node, after ++ right.postOrder ++ [.binary left operator right],
      by simp [postOrder, order], failed⟩
  result := by
    rw [evaluate, Traced.result_bind, stops.result]
    rfl
  noted detailed := by
    rw [evaluate, Traced.results_bind_of_error stops.result]
    exact stops.noted detailed

theorem StopsBehind.binary_right (stops : right.StopsBehind level before error)
    (leftEnds : left.EndsWith level first)
    : (Expr.binary left operator right).StopsBehind level (left.postOrder ++ before) error where
  node := by
    obtain ⟨node, after, order, failed⟩ := stops.node
    exact ⟨node, after ++ [.binary left operator right], by simp [postOrder, order], failed⟩
  result := by
    have failed : right.value = .error error := by rw [← right.evaluate_result level, stops.result]
    rw [evaluate_result, Expr.value, leftEnds.hasValue.value_eq, failed]
    rfl
  noted detailed := by
    rw [evaluate, Traced.results_bind_of_ok leftEnds.result,
      Traced.results_bind_of_error stops.result]
    exact List.rel_append (leftEnds.noted detailed) (stops.noted detailed)

/-- An evaluation ends with a value or stops at some node, by induction on the expression. -/
theorem endsWith_or_stopsBehind (level : Nat) (expr : Expr)
    : (∃ value, expr.EndsWith level value)
      ∨ ∃ before error, expr.StopsBehind level before error := by
  induction expr with
  | literal value => exact .inl ⟨value, .literal value, rfl, fun _ => .nil⟩
  | grouping inner ih =>
      rcases ih with ⟨value, ends⟩ | ⟨before, error, stops⟩
      · exact .inl ⟨value, .grouping ends.hasValue, ends.result, ends.noted⟩
      · exact .inr ⟨before, error, stops.node, stops.result, stops.noted⟩
  | unary operator operand ih =>
      rcases ih with ⟨value, ends⟩ | ⟨before, error, stops⟩
      · cases applied : operator.applyUnary value with
        | ok result => exact .inl ⟨result, ends.unary applied⟩
        | error error => exact .inr ⟨_, error, ends.unary_fails applied⟩
      · exact .inr ⟨before, error, stops.unary⟩
  | binary left operator right leftIh rightIh =>
      rcases leftIh with ⟨first, leftEnds⟩ | ⟨before, error, stops⟩
      · rcases rightIh with ⟨second, rightEnds⟩ | ⟨before, error, stops⟩
        · cases applied : operator.applyBinary first second with
          | ok result => exact .inl ⟨result, leftEnds.binary rightEnds applied⟩
          | error error => exact .inr ⟨_, error, leftEnds.binary_fails rightEnds applied⟩
        · exact .inr ⟨_, error, stops.binary_right leftEnds⟩
      · exact .inr ⟨before, error, stops.binary_left⟩

-----------------------------------------------------------------------------------------
-- Postorder
-----------------------------------------------------------------------------------------

/-- An error names the operator of the node that fails. -/
theorem Applies.operator_eq {node : Expr} (h : node.Applies (.error error))
    : node.operator? = some error.token := by
  generalize same : Except.error error = outcome at h
  cases h with
  | @unary operator _ value _ =>
      have kinds := operator.applyUnary_kind value
      rw [← same] at kinds
      exact congrArg some (Token.token_of_unaryKind kinds.symm).symm
  | @binary operator _ _ first second _ _ =>
      have kinds := operator.applyBinary_kind first second
      rw [← same] at kinds
      exact congrArg some (Token.token_of_binaryKind kinds.symm).symm

/-- The operators are applied in postorder. If all of them can be applied, the evaluation ends with
the value of the expression. Otherwise it ends with the error of the first one that cannot. At a
level that has notes of results, these are about the operators that were applied, in that order.
-/
structure InPostOrder (level : Nat) (expr : Expr) : Prop where
  value : (∀ node ∈ expr.postOrder, node.Succeeds) →
    ∃ value,
      expr.HasValue value
      ∧ (expr.evaluate level).result = .ok value
      ∧ (2 ≤ level → List.Forall₂ Noted expr.postOrder (expr.evaluate level).results)
  error : ∀ before node after error,
    expr.postOrder = before ++ node :: after →
    (∀ earlier ∈ before, earlier.Succeeds) →
    node.Applies (.error error) →
    node.operator? = some error.token
    ∧ (expr.evaluate level).result = .error error
    ∧ (2 ≤ level → List.Forall₂ Noted before (expr.evaluate level).results)
  decided :
    (∀ node ∈ expr.postOrder, node.Succeeds)
    ∨ ∃ before node after error,
        expr.postOrder = before ++ node :: after
        ∧ (∀ earlier ∈ before, earlier.Succeeds)
        ∧ node.Applies (.error error)

theorem evaluate_result_eq (level other : Nat) (expr : Expr)
    : (expr.evaluate level).result = (expr.evaluate other).result := by
  rw [evaluate_result, evaluate_result]

/-- Where a level with notes ends with a value, each level does, and the notes are the same at each
level that has them.
-/
theorem EndsWith.inPostOrder {fine : Nat} {expr : Expr} (ends : expr.EndsWith fine value)
    (detailed : 2 ≤ fine) (same : 2 ≤ level → fine = level)
    : expr.InPostOrder level := by
  have noted := ends.noted detailed
  have succeed := succeeds_of_noted noted
  have result := (expr.evaluate_result_eq level fine).trans ends.result
  constructor
  case value =>
    intro _
    exact ⟨value, ends.hasValue, result, fun noting => same noting ▸ noted⟩
  case error =>
    intro before node after error order _ failed
    have inside : node ∈ expr.postOrder := by simp [order]
    exact absurd failed (succeed node inside).not_fails
  case decided => exact .inl succeed

theorem StopsBehind.inPostOrder {fine : Nat} {expr : Expr}
    (stops : expr.StopsBehind fine before error) (detailed : 2 ≤ fine)
    (same : 2 ≤ level → fine = level)
    : expr.InPostOrder level := by
  obtain ⟨node, after, order, failed⟩ := stops.node
  have noted := stops.noted detailed
  have succeed := succeeds_of_noted noted
  have result := (expr.evaluate_result_eq level fine).trans stops.result
  constructor
  case value =>
    intro all
    have inside : node ∈ expr.postOrder := by simp [order]
    exact absurd failed (all node inside).not_fails
  case error =>
    intro others other rest found otherOrder othersSucceed otherFailed
    rw [order] at otherOrder
    obtain ⟨rfl, rfl⟩ := first_failure_unique otherOrder succeed failed othersSucceed otherFailed
    obtain rfl := Except.error.inj (failed.value_eq.symm.trans otherFailed.value_eq)
    exact ⟨failed.operator_eq, result, fun noting => same noting ▸ noted⟩
  case decided => exact .inr ⟨before, node, after, error, order, succeed, failed⟩

/-- At each level, the operators of every expression are applied in postorder. -/
theorem operators_apply_in_postOrder (level : Nat) (expr : Expr) : expr.InPostOrder level := by
  have detailed : 2 ≤ max 2 level := Nat.le_max_left 2 level
  have same : 2 ≤ level → max 2 level = level := Nat.max_eq_right
  rcases expr.endsWith_or_stopsBehind (max 2 level) with ⟨value, ends⟩ | ⟨before, error, stops⟩
  · exact ends.inPostOrder detailed same
  · exact stops.inPostOrder detailed same

/-- The left operand of the difference is no number, but its right operand fails first. -/
example
    : let minus : Token := ⟨.minus, .string "-", .nil, 1⟩
      let negation : Token := ⟨.minus, .string "-", .nil, 2⟩
      let difference := Expr.binary (.literal .nil) minus (.unary negation (.literal .nil))
      (difference.evaluate 2).result = .error ⟨negation, .operandNotNumber⟩ := rfl

end Expr

end Lox
