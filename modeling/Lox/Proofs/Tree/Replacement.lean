import Lox.Proofs.Grammar.Derivation

/-! Trees with other tokens.
What tokens write depends on their kinds and literals alone. With other tokens of the same kinds and
literals, a derivation leads to the same tree over the other tokens.
-/

namespace Lox

/-- The expression with another token in place of each operator. -/
def Expr.mapTokens (change : Token → Token) : Expr → Expr
  | .binary left operator right =>
      .binary (left.mapTokens change) (change operator) (right.mapTokens change)
  | .grouping inner => .grouping (inner.mapTokens change)
  | .literal value => .literal value
  | .unary operator operand => .unary (change operator) (operand.mapTokens change)

def Stmt.mapTokens (change : Token → Token) : Stmt → Stmt
  | .expression expr => .expression (expr.mapTokens change)
  | .print expr => .print (expr.mapTokens change)

@[simp]
theorem Expr.mapTokens_id (expr : Expr) : expr.mapTokens id = expr := by
  induction expr with
  | binary _ _ _ leftIh rightIh => simp [mapTokens, leftIh, rightIh]
  | grouping _ ih => simp [mapTokens, ih]
  | literal => rfl
  | unary _ _ ih => simp [mapTokens, ih]

@[simp]
theorem Stmt.mapTokens_id (statement : Stmt) : statement.mapTokens id = statement := by
  cases statement <;> simp [mapTokens]

namespace Grammar

/-- The other tokens are of the same kinds and have the same literals. -/
structure Keeps (change : Token → Token) : Prop where
  kind : ∀ token, (change token).kind = token.kind
  literal : ∀ token, (change token).literal = token.literal

variable {change : Token → Token}

/-- Other tokens write the expression with other operators, by induction on the derivation. -/
theorem Derives.mapTokens (keeps : Keeps change) {symbol : Symbol} {tokens : List Token}
    {expr : Expr} (h : Derives symbol tokens expr)
    : Derives symbol (tokens.map change) (expr.mapTokens change) := by
  induction h with
  | operand _ ih => exact .operand ih
  | @binary _ _ operator _ _ _ member _ _ leftIh rightIh =>
      rw [List.map_append, List.map_cons]
      exact .binary (keeps.kind operator ▸ member) leftIh rightIh
  | primary _ ih => exact .primary ih
  | @unary operator _ _ kind _ ih => exact .unary (keeps.kind operator ▸ kind) ih
  | @falsehood token kind => exact .falsehood (keeps.kind token ▸ kind)
  | @truth token kind => exact .truth (keeps.kind token ▸ kind)
  | @nil token kind => exact .nil (keeps.kind token ▸ kind)
  | @number token kind =>
      rw [Expr.mapTokens, ← keeps.literal token]
      exact .number (keeps.kind token ▸ kind)
  | @string token kind =>
      rw [Expr.mapTokens, ← keeps.literal token]
      exact .string (keeps.kind token ▸ kind)
  | @grouping left _ right _ opening _ closing ih =>
      rw [List.cons_append, List.map_cons, List.map_append]
      exact .grouping (keeps.kind left ▸ opening) ih (keeps.kind right ▸ closing)

theorem Statement.mapTokens (keeps : Keeps change) {tokens : List Token} {statement : Stmt}
    (h : Statement tokens statement)
    : Statement (tokens.map change) (statement.mapTokens change) := by
  cases h with
  | @expression _ _ terminator derived kind =>
      rw [List.map_append]
      exact .expression (derived.mapTokens keeps) (keeps.kind terminator ▸ kind)
  | @print keyword _ _ terminator opening derived kind =>
      rw [List.cons_append, List.map_cons, List.map_append]
      exact .print (keeps.kind keyword ▸ opening) (derived.mapTokens keeps)
        (keeps.kind terminator ▸ kind)

/-- Other tokens write the program with other operators, by induction on its statements. -/
theorem Program.mapTokens (keeps : Keeps change) {tokens : List Token} {statements : List Stmt}
    (h : Program tokens statements)
    : Program (tokens.map change) (statements.map (.mapTokens change)) := by
  induction h with
  | nil => exact .nil
  | cons head _ ih =>
      rw [List.map_append]
      exact .cons (head.mapTokens keeps) ih

/-- The tokens of two programs, one behind the other, write the statements of both. -/
theorem Program.append {first second : List Token} {statements others : List Stmt}
    (h : Program first statements) (later : Program second others)
    : Program (first ++ second) (statements ++ others) := by
  induction h with
  | nil => exact later
  | cons head _ ih =>
      rw [List.append_assoc]
      exact .cons head ih

end Grammar

end Lox
