import Lox.Proofs.Grammar.Derivation

/-! The tokens of a tree.
The operators of a tree are among the tokens that it was read from, and its literals are their
literals, nil or booleans.
-/

namespace Lox

/-- The datum is a value of the language, and if it is a string it has no surrogates. -/
def Datum.isPlain : Datum → Bool
  | .string text => text.isEncodable
  | d => d.isValue

theorem Datum.isValue_of_isPlain {d : Datum} (h : d.isPlain = true) : d.isValue = true := by
  cases d with
  | string => rfl
  | _ => exact h

/-- All literals of the expression are such data, and all its operators are such tokens. -/
def Expr.Satisfies (fit : Datum → Prop) (such : Token → Prop) : Expr → Prop
  | .binary left operator right =>
      left.Satisfies fit such ∧ such operator ∧ right.Satisfies fit such
  | .grouping inner => inner.Satisfies fit such
  | .literal value => fit value
  | .unary operator operand => such operator ∧ operand.Satisfies fit such

def Stmt.Satisfies (fit : Datum → Prop) (such : Token → Prop) : Stmt → Prop
  | .expression expr | .print expr => expr.Satisfies fit such

/-- All literals of the expression are values of the language, and all its operators are such
tokens.
-/
def Expr.Over (such : Token → Prop) (expr : Expr) : Prop :=
  expr.Satisfies (·.isValue = true) such

def Stmt.Over (such : Token → Prop) (stmt : Stmt) : Prop :=
  stmt.Satisfies (·.isValue = true) such

/-- The expression and all expressions in it, each behind its operands. -/
def Expr.parts : Expr → List Expr
  | .binary left operator right => left.parts ++ right.parts ++ [.binary left operator right]
  | .grouping inner => inner.parts ++ [.grouping inner]
  | .literal value => [.literal value]
  | .unary operator operand => operand.parts ++ [.unary operator operand]

/-- The operators of the expression, each behind those in its operands. -/
def Expr.operators : Expr → List Token
  | .binary left operator right => left.operators ++ right.operators ++ [operator]
  | .grouping inner => inner.operators
  | .literal _ => []
  | .unary operator operand => operand.operators ++ [operator]

variable {fit other : Datum → Prop} {such others : Token → Prop}

/-- What is said of an expression is said of each of its literals and of each of its operators. By
induction on the expression.
-/
theorem Expr.satisfies_iff {expr : Expr}
    : expr.Satisfies fit such
      ↔ (∀ value, .literal value ∈ expr.parts → fit value)
        ∧ ∀ operator ∈ expr.operators, such operator := by
  induction expr with
  | literal value => simp [Satisfies, parts, operators]
  | grouping inner ih => simp [Satisfies, parts, operators, ih]
  | unary operator operand ih =>
      simp only [Satisfies, parts, operators, ih, List.mem_append, List.mem_singleton, reduceCtorEq,
        or_false, or_imp, forall_and, forall_eq]
      grind
  | binary left operator right leftIh rightIh =>
      simp only [Satisfies, parts, operators, leftIh, rightIh, List.mem_append, List.mem_singleton,
        reduceCtorEq, or_false, or_imp, forall_and, forall_eq]
      grind

theorem Expr.Satisfies.mono {expr : Expr} (suits : expr.Satisfies fit such)
    (data : ∀ value, fit value → other value) (tokens : ∀ token, such token → others token)
    : expr.Satisfies other others := by
  induction expr with
  | binary _ operator _ leftIh rightIh =>
      obtain ⟨left, token, right⟩ := suits
      exact ⟨leftIh left, tokens operator token, rightIh right⟩
  | grouping _ ih => exact ih suits
  | literal value => exact data value suits
  | unary operator _ ih => exact ⟨tokens operator suits.1, ih suits.2⟩

theorem Stmt.Satisfies.mono {stmt : Stmt} (suits : stmt.Satisfies fit such)
    (data : ∀ value, fit value → other value) (tokens : ∀ token, such token → others token)
    : stmt.Satisfies other others := by
  cases stmt with
  | expression | print => exact Expr.Satisfies.mono suits data tokens

theorem Stmt.Over.mono {stmt : Stmt} (suits : stmt.Over such)
    (h : ∀ token, such token → others token)
    : stmt.Over others :=
  Stmt.Satisfies.mono suits (fun _ => id) h

namespace Grammar

/-- The data of literals that are words. -/
structure Constants (fit : Datum → Prop) : Prop where
  nil : fit .nil
  boolean : ∀ truth, fit (.boolean truth)

theorem constants_isValue : Constants (·.isValue = true) :=
  ⟨rfl, fun _ => rfl⟩

theorem constants_isPlain : Constants (·.isPlain = true) :=
  ⟨rfl, fun _ => rfl⟩

/-- An expression has what it is made of from the tokens that write it, by induction on the
derivation.
-/
theorem Derives.satisfies {symbol : Symbol} {tokens : List Token} {expr : Expr}
    (h : Derives symbol tokens expr) (constants : Constants fit)
    (suits : ∀ token ∈ tokens, such token ∧ fit token.literal)
    : expr.Satisfies fit such := by
  induction h with
  | operand _ ih | primary _ ih => exact ih suits
  | binary _ _ _ leftIh rightIh =>
      obtain ⟨left, later⟩ := List.forall_mem_append.mp suits
      obtain ⟨operator, right⟩ := List.forall_mem_cons.mp later
      exact ⟨leftIh left, operator.1, rightIh right⟩
  | unary _ _ ih =>
      obtain ⟨operator, operand⟩ := List.forall_mem_cons.mp suits
      exact ⟨operator.1, ih operand⟩
  | falsehood | truth => exact constants.boolean _
  | nil => exact constants.nil
  | number | string => exact (suits _ List.mem_cons_self).2
  | grouping _ _ _ ih =>
      obtain ⟨opened, -⟩ := List.forall_mem_append.mp suits
      exact ih (List.forall_mem_cons.mp opened).2

theorem Statement.satisfies {tokens : List Token} {stmt : Stmt} (h : Statement tokens stmt)
    (constants : Constants fit) (suits : ∀ token ∈ tokens, such token ∧ fit token.literal)
    : stmt.Satisfies fit such := by
  cases h with
  | expression derived =>
      exact derived.satisfies constants (List.forall_mem_append.mp suits).1
  | print _ derived =>
      obtain ⟨opened, -⟩ := List.forall_mem_append.mp suits
      exact derived.satisfies constants (List.forall_mem_cons.mp opened).2

/-- The statements of a program have what they are made of from its tokens, by induction on the
statements.
-/
theorem Program.satisfies {tokens : List Token} {statements : List Stmt}
    (h : Program tokens statements) (constants : Constants fit)
    (suits : ∀ token ∈ tokens, such token ∧ fit token.literal)
    : ∀ statement ∈ statements, statement.Satisfies fit such := by
  induction h with
  | nil =>
      intro statement member
      cases member
  | cons head _ ih =>
      obtain ⟨first, later⟩ := List.forall_mem_append.mp suits
      exact List.forall_mem_cons.mpr ⟨head.satisfies constants first, ih later⟩

/-- The statements of a program are over its tokens. -/
theorem Program.over {tokens : List Token} {statements : List Stmt} (h : Program tokens statements)
    (suits : ∀ token ∈ tokens, such token ∧ token.literal.isValue = true)
    : ∀ statement ∈ statements, statement.Over such :=
  h.satisfies constants_isValue suits

end Grammar

end Lox
