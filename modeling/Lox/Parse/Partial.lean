import Lox.Tree.Basic

/-! Statements that are still being read.
A partial statement remembers the operators and parentheses that wait for an operand, the innermost
first. Each further token extends it, completes it, or shows that it cannot be completed.
-/

namespace Lox

namespace Token

/-- How tightly a binary operator binds: equality, comparison, sum or product. -/
def Kind.strength? : Kind → Option Nat
  | .bangEqual | .equalEqual => some 1
  | .greater | .greaterEqual | .less | .lessEqual => some 2
  | .minus | .plus => some 3
  | .slash | .star => some 4
  | _ => none

/-- The kind is a unary operator. -/
def Kind.isUnary : Kind → Bool
  | .bang | .minus => true
  | _ => false

/-- The value of a token that is an operand by itself. -/
def operand? (token : Token) : Option Datum :=
  match token.kind with
  | .falseKeyword => some (.boolean false)
  | .trueKeyword => some (.boolean true)
  | .nilKeyword => some .nil
  | .number | .string => some token.literal
  | _ => none

end Token

/-- The two forms of statements. -/
inductive Form where
  | expression
  | print
deriving DecidableEq

/-- The statement of a form with the given expression. -/
def Form.statement : Form → Expr → Stmt
  | .expression, expr => .expression expr
  | .print, expr => .print expr

/-- What a partial statement needs in place of a token that does not fit. -/
inductive Expected where
  | operand
  | closing
  | terminator (form : Form)
deriving DecidableEq

def Expected.message : Expected → String
  | .operand => "Expect expression."
  | .closing => "Expect ')' after expression."
  | .terminator .expression => "Expect ';' after expression."
  | .terminator .print => "Expect ';' after value."

/-- An operator, with its left operand if it has one, or an open parenthesis. -/
inductive Frame where
  | unary (operator : Token)
  | binary (left : Expr) (operator : Token)
  | group

/-- A statement up to some token. Its operand is the expression that ends there; when there is none,
an operand is due.
-/
structure Partial where
  form : Form
  frames : List Frame
  operand : Option Expr

namespace Partial

/-- A statement before the first token of its expression. -/
def empty (form : Form) : Partial :=
  ⟨form, [], none⟩

/-- Gives the operand to the operators that wait for it, as long as they bind at least as tightly as
`strength`. Unary operators bind most tightly, and no operator reaches over a parenthesis.
-/
def settle (strength : Nat) (operand : Expr) : List Frame → Expr × List Frame
  | [] => (operand, [])
  | .group :: rest => (operand, .group :: rest)
  | .unary operator :: rest => settle strength (.unary operator operand) rest
  | .binary left operator :: rest =>
      if operator.kind.strength?.any (strength ≤ ·) then
        settle strength (.binary left operator operand) rest
      else (operand, .binary left operator :: rest)

/-- What one more token makes of a partial statement. -/
inductive Step where
  | extended (statement : Partial)
  | completed (statement : Stmt)
  | misfit (expected : Expected)

/-- A token where an operand is due. -/
def feedOperand (form : Form) (frames : List Frame) (token : Token) : Step :=
  match token.operand? with
  | some value => .extended ⟨form, frames, some (.literal value)⟩
  | none =>
      if token.kind.isUnary then .extended ⟨form, .unary token :: frames, none⟩
      else if token.kind = .leftParen then .extended ⟨form, .group :: frames, none⟩
      else .misfit .operand

/-- A token after an operand that all operators since the last open parenthesis have taken. -/
def feedEnd (form : Form) (operand : Expr) (frames : List Frame) (token : Token) : Step :=
  match frames with
  | [] =>
      if token.kind = .semicolon then .completed (form.statement operand)
      else .misfit (.terminator form)
  | _ :: outer =>
      if token.kind = .rightParen then .extended ⟨form, outer, some (.grouping operand)⟩
      else .misfit .closing

/-- A token after an operand. -/
def feedOperator (form : Form) (operand : Expr) (frames : List Frame) (token : Token) : Step :=
  match token.kind.strength? with
  | some strength =>
      let (left, outer) := settle strength operand frames
      .extended ⟨form, .binary left token :: outer, none⟩
  | none =>
      let (whole, outer) := settle 0 operand frames
      feedEnd form whole outer token

/-- The partial statement with one more token. -/
def feed (statement : Partial) (token : Token) : Step :=
  match statement.operand with
  | none => feedOperand statement.form statement.frames token
  | some operand => feedOperator statement.form operand statement.frames token

/-- The first token of a statement. -/
def start (token : Token) : Step :=
  if token.kind = .printKeyword then .extended (empty .print)
  else (empty .expression).feed token

end Partial

end Lox
