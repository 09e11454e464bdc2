import Lox.Proofs.Source.Labels
import Lox.Proofs.Source.Parentheses
import Lox.Proofs.Source.Provenance

/-! What the text of a tree tells.
The operators of a program are the symbols of the language, so that the heads in a tree's text can
be told apart. Unless there are strings, the text then tells everything but the lines of operators.
-/

namespace Lox

/-- No literal of the expression is a string. -/
def Expr.StringFree : Expr → Prop
  | .binary left _ right => left.StringFree ∧ right.StringFree
  | .grouping inner => inner.StringFree
  | .literal value => value.kind ≠ .string
  | .unary _ operand => operand.StringFree

def Stmt.StringFree (stmt : Stmt) : Prop :=
  stmt.expr.StringFree

namespace Source

open Scan

-----------------------------------------------------------------------------------------
-- Operators of a program
-----------------------------------------------------------------------------------------

/-- The kinds of operators. -/
def operators : List Token.Kind :=
  unaryOperators ++ binaryOperators

/-- The token is an operator of the language, wherever it stands. -/
def Symbolic (token : Token) : Prop :=
  ∃ kind ∈ operators, token.placeless = tokenOf kind (symbolText kind) 0

theorem symbolic_of_mem {text : String} {token : Token} (member : token ∈ (ofSource text).tokens)
    (known : token.kind ∈ operators)
    : Symbolic token := by
  obtain ⟨_, -, stands⟩ := place_of_symbol member (symbol_of_operator known)
  exact ⟨token.kind, known, placeless_of_stands stands⟩

/-- Operators of the language that are tokens are symbols, by induction on the expression. -/
theorem symbolic_of_applicable {text : String} {expr : Expr}
    (suits : expr.Over (· ∈ (ofSource text).tokens)) (applicable : expr.Applicable)
    : expr.Over Symbolic := by
  induction expr with
  | literal => exact suits
  | grouping _ ih => exact ih suits applicable
  | unary operator _ ih =>
      obtain ⟨kind, inner⟩ := applicable
      have known : operator.kind ∈ operators := by
        rcases kind with bang | minus
        · rw [bang]
          decide
        · rw [minus]
          decide
      exact ⟨symbolic_of_mem suits.1 known, ih suits.2 inner⟩
  | binary _ operator _ leftIh rightIh =>
      obtain ⟨left, ⟨level, member⟩, right⟩ := applicable
      have known : operator.kind ∈ operators := by
        have all : ∀ kind ∈ level.operators, kind ∈ operators := by cases level <;> decide
        exact all operator.kind member
      exact ⟨leftIh suits.1 left, symbolic_of_mem suits.2.1 known, rightIh suits.2.2 right⟩

/-- All operators of a program are symbols of the language. -/
theorem symbolic_of_program {text : String} {statements : List Stmt}
    (program : (ofString text).program = .ok statements)
    : ∀ statement ∈ statements, statement.expr.Over Symbolic := by
  obtain ⟨-, body, last, tokens, -, scanned, derived⟩ := derived_of_program program
  have suits : ∀ statement ∈ statements, statement.Over (· ∈ (ofSource text).tokens) := by
    refine derived.over fun token inside => ⟨?_, (scanned token inside).literal⟩
    rw [tokens]
    exact List.mem_append_left _ inside
  intro statement member
  have expr : statement.expr.Over (· ∈ (ofSource text).tokens) := by
    cases statement with
    | expression | print => exact suits _ member
  exact symbolic_of_applicable expr (derived.applicable statement member)

-----------------------------------------------------------------------------------------
-- Heads
-----------------------------------------------------------------------------------------

variable {operator other : Token}

theorem Symbolic.bare (symbolic : Symbolic operator)
    : ∃ kind ∈ operators, operator.placeless = tokenOf kind (symbolText kind) 0
      ∧ operator.lexeme.bare.characters = symbolText kind := by
  obtain ⟨kind, known, same⟩ := symbolic
  have lexeme : operator.lexeme = .string (String.ofList (symbolText kind)) :=
    congrArg Token.lexeme same
  refine ⟨kind, known, same, ?_⟩
  rw [lexeme]
  exact (Text.characters_ofString _).trans String.toList_ofList

theorem Symbolic.solid (symbolic : Symbolic operator)
    : Shape.Solid operator.lexeme.bare.characters := by
  obtain ⟨kind, known, -, head⟩ := symbolic.bare
  have all : ∀ kind ∈ operators, Shape.Solid (symbolText kind) := by decide
  rw [head]
  exact all kind known

/-- An operator is not the head of a grouping. -/
theorem Symbolic.ne_group (symbolic : Symbolic operator)
    : operator.lexeme.bare.characters ≠ "group".toList := by
  obtain ⟨kind, known, -, head⟩ := symbolic.bare
  have all : ∀ kind ∈ operators, symbolText kind ≠ "group".toList := by decide
  rw [head]
  exact all kind known

/-- Operators with the same symbol differ by their lines at most. -/
theorem Symbolic.placeless_inj (symbolic : Symbolic operator) (symbolic' : Symbolic other)
    (same : operator.lexeme.bare.characters = other.lexeme.bare.characters)
    : operator.placeless = other.placeless := by
  obtain ⟨kind, known, first, head⟩ := symbolic.bare
  obtain ⟨kind', known', second, head'⟩ := symbolic'.bare
  have all
      : ∀ kind ∈ operators, ∀ kind' ∈ operators,
          symbolText kind = symbolText kind' → kind = kind' := by
    decide
  rw [head, head'] at same
  rw [first, second, all kind known kind' known' same]

-----------------------------------------------------------------------------------------
-- Shapes
-----------------------------------------------------------------------------------------

theorem legible_shape {expr : Expr} (suits : expr.Over Symbolic) (stringless : expr.StringFree)
    : expr.shape.Legible := by
  induction expr with
  | binary _ _ _ leftIh rightIh =>
      obtain ⟨left, symbolic, right⟩ := suits
      exact ⟨symbolic.solid, leftIh left stringless.1, rightIh right stringless.2⟩
  | grouping _ ih => exact ⟨by decide, ih suits stringless⟩
  | literal value => exact Datum.solid_label suits stringless
  | unary _ _ ih => exact ⟨suits.1.solid, ih suits.2 stringless⟩

/-- The shape tells the tree but for the lines of operators, by induction on the expression. -/
theorem placeless_of_shape {expr other : Expr} (suits : expr.Over Symbolic)
    (suits' : other.Over Symbolic) (stringless : expr.StringFree) (stringless' : other.StringFree)
    (same : expr.shape = other.shape)
    : expr.mapTokens .placeless = other.mapTokens .placeless := by
  induction expr generalizing other with
  | binary left operator right leftIh rightIh =>
      cases other with
      | binary left' operator' right' =>
          obtain ⟨head, first, second⟩ := Shape.two.inj same
          rw [Expr.mapTokens, suits.2.1.placeless_inj suits'.2.1 head,
            leftIh suits.1 suits'.1 stringless.1 stringless'.1 first,
            rightIh suits.2.2 suits'.2.2 stringless.2 stringless'.2 second, Expr.mapTokens]
      | grouping | literal | unary => cases same
  | grouping inner ih =>
      cases other with
      | grouping inner' =>
          obtain ⟨-, within⟩ := Shape.one.inj same
          exact congrArg Expr.grouping (ih suits suits' stringless stringless' within)
      | unary operator' operand' =>
          exact absurd (Shape.one.inj same).1.symm suits'.1.ne_group
      | binary | literal => cases same
  | literal value =>
      cases other with
      | literal value' =>
          rw [Datum.label_inj suits suits' stringless stringless' (Shape.word.inj same)]
      | binary | grouping | unary => cases same
  | unary operator operand ih =>
      cases other with
      | unary operator' operand' =>
          obtain ⟨head, within⟩ := Shape.one.inj same
          rw [Expr.mapTokens, suits.1.placeless_inj suits'.1 head,
            ih suits.2 suits'.2 stringless stringless' within, Expr.mapTokens]
      | grouping inner' => exact absurd (Shape.one.inj same).1 suits.1.ne_group
      | binary | literal => cases same

theorem legible_statement {statement : Stmt} (suits : statement.expr.Over Symbolic)
    (stringless : statement.StringFree)
    : statement.shape.Legible := by
  cases statement with
  | expression expr => exact ⟨by decide, legible_shape suits stringless⟩
  | print expr => exact ⟨by decide, legible_shape suits stringless⟩

/-- Statements with the same text are the same but for the lines of operators. -/
theorem placeless_of_text {statement other : Stmt} (suits : statement.expr.Over Symbolic)
    (suits' : other.expr.Over Symbolic) (stringless : statement.StringFree)
    (stringless' : other.StringFree) (same : statement.text = other.text)
    : statement.mapTokens .placeless = other.mapTokens .placeless := by
  have shapes : statement.shape = other.shape := by
    refine Shape.text_inj (legible_statement suits stringless)
      (legible_statement suits' stringless') ?_
    rw [← Stmt.characters_text, ← Stmt.characters_text, same]
  cases statement with
  | expression expr =>
      cases other with
      | expression expr' =>
          have within := placeless_of_shape suits suits' stringless stringless'
            (Shape.one.inj shapes).2
          exact congrArg Stmt.expression within
      | print expr' => exact absurd (Shape.one.inj shapes).1 (by decide)
  | print expr =>
      cases other with
      | expression expr' => exact absurd (Shape.one.inj shapes).1 (by decide)
      | print expr' =>
          have within := placeless_of_shape suits suits' stringless stringless'
            (Shape.one.inj shapes).2
          exact congrArg Stmt.print within

/-- Statements of programs that have no strings have the same text exactly if they are the same tree
but for the lines of operators.
-/
theorem texts_tell_trees_apart {text text' : String} {statements statements' : List Stmt}
    (program : (ofString text).program = .ok statements)
    (program' : (ofString text').program = .ok statements')
    : ∀ statement ∈ statements, ∀ other ∈ statements',
        statement.StringFree → other.StringFree →
          (statement.text = other.text
            ↔ statement.mapTokens .placeless = other.mapTokens .placeless) := by
  intro statement member other member' stringless stringless'
  constructor
  · exact placeless_of_text (symbolic_of_program program statement member)
      (symbolic_of_program program' other member') stringless stringless'
  · intro same
    have keeps : ∀ token : Token, token.placeless.lexeme = token.lexeme := fun _ => rfl
    rw [← statement.text_mapTokens keeps, same, other.text_mapTokens keeps]

/-- A minus sign with two operands and one with one operand, on one line and on two. -/
theorem texts_tell_trees_apart_over_lines
    : let minus := tokenOf .minus ['-']
      let difference (first second : Nat) := Stmt.print (.grouping (.binary
        (.literal (.boolean true)) (minus first) (.unary (minus second) (.literal .nil))))
      (ofString "print (true - -nil);").program = .ok [difference 1 1]
      ∧ (ofString "print (true-\n-nil);").program = .ok [difference 1 2]
      ∧ (difference 1 1).text = "(print (group (- true (- nil))))"
      ∧ ((difference 1 1).text = (difference 1 2).text
        ↔ (difference 1 1).mapTokens .placeless = (difference 1 2).mapTokens .placeless) := by
  intro minus difference
  have one : (ofString "print (true - -nil);").program = .ok [difference 1 1] := by cbv
  have two : (ofString "print (true-\n-nil);").program = .ok [difference 1 2] := by cbv
  have stringless : ∀ first second, (difference first second).StringFree :=
    fun _ _ => ⟨Datum.Kind.noConfusion, Datum.Kind.noConfusion⟩
  refine ⟨one, two, by decide, ?_⟩
  exact texts_tell_trees_apart one two _ (by simp) _ (by simp) (stringless 1 1) (stringless 1 2)

/-- A string can look like any other literal. -/
example : (Stmt.print (.literal (.string "nil"))).text = (Stmt.print (.literal .nil)).text := rfl

end Source

end Lox
