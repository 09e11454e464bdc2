import Lox.Tree.Basic

/-! The parenthesized text of a tree.
Every operator stands in front of its operands, and parentheses enclose the two.
-/

namespace Lox

/-- The parenthesized text of an expression. -/
def Expr.text : Expr → Text
  | .binary left operator right =>
      "(" ++ operator.lexeme.bare ++ " " ++ left.text ++ " " ++ right.text ++ ")"
  | .grouping inner => "(group " ++ inner.text ++ ")"
  | .literal value => value.label
  | .unary operator operand => "(" ++ operator.lexeme.bare ++ " " ++ operand.text ++ ")"

/-- The parenthesized text of a statement. -/
def Stmt.text : Stmt → Text
  | .expression expr => "(; " ++ expr.text ++ ")"
  | .print expr => "(print " ++ expr.text ++ ")"

/-- The text of a statement or expression; programs and tokens have none. -/
def Node.text? : Node → Option Text
  | .statement stmt => some stmt.text
  | .expression expr => some expr.text
  | .program _ | .token _ => none

end Lox
