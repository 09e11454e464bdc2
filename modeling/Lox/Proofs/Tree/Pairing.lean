import Mathlib.Data.List.Forall2
import Lox.Proofs.Tree.Replacement

/-! Trees that differ in their operators at most.
A pairing relates tokens that nothing but their lexemes and lines can tell apart. Paired trees have
the same form and the same literals, and their operators are related node by node.
-/

namespace Lox

namespace Token

/-- The tokens are of the same kind and have the same literal. -/
structure Alike (token other : Token) : Prop where
  kind : token.kind = other.kind
  literal : token.literal = other.literal

/-- The token, however it is spelled and wherever it stands. -/
def unspelled (token : Token) : Token :=
  { token with lexeme := .nil, line := 0 }

theorem unspelled_eq_iff {token other : Token}
    : token.unspelled = other.unspelled ↔ token.Alike other := by
  constructor
  · intro same
    have kinds := congrArg kind same
    have literals := congrArg literal same
    exact ⟨kinds, literals⟩
  · intro alike
    rw [unspelled, unspelled, alike.kind, alike.literal]

end Token

/-- A relation between alike tokens. -/
structure Pairing where
  relates : Token → Token → Prop
  alike : ∀ {token other}, relates token other → token.Alike other

/-- The expressions have the same form and the same literals, and their operators are related node
by node.
-/
inductive Expr.Paired (pairing : Pairing) : Expr → Expr → Prop where
  | binary {left left' right right' : Expr} {operator operator' : Token}
      (first : Paired pairing left left')
      (related : pairing.relates operator operator')
      (second : Paired pairing right right')
      : Paired pairing (.binary left operator right) (.binary left' operator' right')
  | grouping {inner inner' : Expr}
      (within : Paired pairing inner inner')
      : Paired pairing (.grouping inner) (.grouping inner')
  | literal (value : Datum)
      : Paired pairing (.literal value) (.literal value)
  | unary {operator operator' : Token} {operand operand' : Expr}
      (related : pairing.relates operator operator')
      (within : Paired pairing operand operand')
      : Paired pairing (.unary operator operand) (.unary operator' operand')

/-- The statements are of the same form, and their expressions are paired. -/
inductive Stmt.Paired (pairing : Pairing) : Stmt → Stmt → Prop where
  | expression {expr expr' : Expr}
      (within : Expr.Paired pairing expr expr')
      : Paired pairing (.expression expr) (.expression expr')
  | print {expr expr' : Expr}
      (within : Expr.Paired pairing expr expr')
      : Paired pairing (.print expr) (.print expr')

namespace Pairing

variable {pairing : Pairing} {token other : Token}

theorem unspelled_eq (related : pairing.relates token other)
    : token.unspelled = other.unspelled :=
  Token.unspelled_eq_iff.mpr (pairing.alike related)

/-- Without lexemes and lines paired expressions are the same, by induction on how they are paired.
-/
theorem expr_unspelled {expr expr' : Expr} (paired : Expr.Paired pairing expr expr')
    : expr.mapTokens .unspelled = expr'.mapTokens .unspelled := by
  induction paired with
  | binary _ related _ firstIh secondIh =>
      rw [Expr.mapTokens, firstIh, unspelled_eq related, secondIh, Expr.mapTokens]
  | grouping _ ih => exact congrArg Expr.grouping ih
  | literal => rfl
  | unary related _ ih => rw [Expr.mapTokens, unspelled_eq related, ih, Expr.mapTokens]

theorem statement_unspelled {statement statement' : Stmt}
    (paired : Stmt.Paired pairing statement statement')
    : statement.mapTokens .unspelled = statement'.mapTokens .unspelled := by
  cases paired with
  | expression within => exact congrArg Stmt.expression (expr_unspelled within)
  | print within => exact congrArg Stmt.print (expr_unspelled within)

theorem program_unspelled {statements statements' : List Stmt}
    (paired : List.Forall₂ (Stmt.Paired pairing) statements statements')
    : statements.map (Stmt.mapTokens .unspelled)
      = statements'.map (Stmt.mapTokens .unspelled) := by
  rw [← List.forall₂_eq_eq_eq]
  exact List.rel_map (fun _ _ each => statement_unspelled each) paired

end Pairing

end Lox
