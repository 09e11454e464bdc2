import Lox.Tree.Basic

/-! Documents: syntax trees as data.
Every node is an object with its type first and its parts after it, in the order in which they stand
in the source. A token has its kind, lexeme, literal and line.
-/

namespace Lox

/-- The types of nodes in documents. -/
inductive NodeType where
  | program
  | token
  | printStatement
  | expressionStatement
  | binary
  | grouping
  | literal
  | unary
deriving DecidableEq

namespace NodeType

def name : NodeType → String
  | .program => "Program"
  | .token => "Token"
  | .printStatement => "PrintStmt"
  | .expressionStatement => "ExprStmt"
  | .binary => "Binary"
  | .grouping => "Grouping"
  | .literal => "Literal"
  | .unary => "Unary"

def all : List NodeType :=
  [.program, .token, .printStatement, .expressionStatement, .binary, .grouping, .literal, .unary]

/-- The type that has the name. -/
def ofName? (name : Text) : Option NodeType :=
  all.find? fun type => type.name == name

/-- The object of a node of the type, with the given parts. -/
def node (type : NodeType) (parts : List (Text × Datum)) : Datum :=
  .object (("type", .string type.name) :: parts)

end NodeType

def Token.toDatum (token : Token) : Datum :=
  .object
    [("kind", .string token.kind.name), ("lexeme", token.lexeme), ("literal", token.literal),
      ("line", .integer token.line)]

def Expr.toDatum : Expr → Datum
  | .binary left operator right =>
      NodeType.binary.node
        [("left", left.toDatum), ("operator", operator.toDatum), ("right", right.toDatum)]
  | .grouping inner => NodeType.grouping.node [("inner", inner.toDatum)]
  | .literal value => NodeType.literal.node [("value", value)]
  | .unary operator operand =>
      NodeType.unary.node [("operator", operator.toDatum), ("operand", operand.toDatum)]

def Stmt.toDatum : Stmt → Datum
  | .expression expr => NodeType.expressionStatement.node [("expr", expr.toDatum)]
  | .print expr => NodeType.printStatement.node [("expr", expr.toDatum)]

/-- The document of a program whose statements have the given documents. -/
def programDatum (body : List Datum) : Datum :=
  NodeType.program.node [("body", .list body)]

def Node.toDatum : Node → Datum
  | .program statements => programDatum (statements.map Stmt.toDatum)
  | .statement stmt => stmt.toDatum
  | .expression expr => expr.toDatum
  | .token content => NodeType.token.node [("value", content.toDatum)]

namespace Datum

mutual

/-- The document of data that stand in place of a node. Only lists have one, as programs; the kind
of the first datum that has none is the error.
-/
def toDocument : Datum → Except Kind Datum
  | .list items => do return programDatum (← toDocuments items)
  | d => .error d.kind

def toDocuments : List Datum → Except Kind (List Datum)
  | [] => .ok []
  | item :: rest => do return (← toDocument item) :: (← toDocuments rest)

end

end Datum

end Lox
