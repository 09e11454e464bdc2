import Lox.Token

/-! Syntax trees.
A tree keeps the operator tokens of its source, so that errors can name their lines, and one
grouping for each pair of parentheses.
-/

namespace Lox

/-- An expression. -/
inductive Expr where
  | binary (left : Expr) (operator : Token) (right : Expr)
  | grouping (inner : Expr)
  | literal (value : Datum)
  | unary (operator : Token) (operand : Expr)

/-- A statement. -/
inductive Stmt where
  | expression (expr : Expr)
  | print (expr : Expr)

/-- What a document can hold: a whole program, a part of one, or a bare token. -/
inductive Node where
  | program (statements : List Stmt)
  | statement (stmt : Stmt)
  | expression (expr : Expr)
  | token (content : Token)

/-- The class of a part of a tree. -/
inductive Node.Class where
  | binary
  | grouping
  | literal
  | unary
  | expressionStatement
  | printStatement
  | token
  | list
deriving DecidableEq

/-- The name of a class in documents and messages. -/
def Node.Class.name : Node.Class → String
  | .binary => "Binary"
  | .grouping => "Grouping"
  | .literal => "Literal"
  | .unary => "Unary"
  | .expressionStatement => "ExprStmt"
  | .printStatement => "PrintStmt"
  | .token => "Token"
  | .list => "list"

def Expr.nodeClass : Expr → Node.Class
  | .binary .. => .binary
  | .grouping _ => .grouping
  | .literal _ => .literal
  | .unary .. => .unary

def Stmt.nodeClass : Stmt → Node.Class
  | .expression _ => .expressionStatement
  | .print _ => .printStatement

def Node.nodeClass : Node → Node.Class
  | .program _ => .list
  | .statement stmt => stmt.nodeClass
  | .expression expr => expr.nodeClass
  | .token _ => .token

end Lox
