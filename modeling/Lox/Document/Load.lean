import Lox.Document.Dump
import Lox.Document.Line

/-! Loading documents.
The parts of a node are read in the order in which they are written, and the first fault is the
error. Integers are taken for numbers, and parts that a node does not need are ignored.
-/

namespace Lox.Document

/-- What can be wrong with a document. -/
inductive LoadError where
  | notNode
  | notProgram
  | bodyNotList
  | unknownType (name : Datum)
  | notExpression (found : Node.Class)
  | notStatement (found : Node.Class)
  | literalNotValue (literal : Datum)
  | missing (name : Text)
  | notObject (kind : Datum.Kind)
  | unknownKind (name : Datum)
  /-- A list or an object can name nothing. -/
  | unnamedKind (kind : Datum.Kind)
  | numberTooLarge
  | badLine (error : LineError)

namespace LoadError

/-- The name of a kind of data in messages. -/
def kindName : Datum.Kind → String
  | .nil => "NoneType"
  | .boolean => "bool"
  | .number => "float"
  | .string => "str"
  | .integer => "int"
  | .list => "list"
  | .object => "dict"

def message : LoadError → Text
  | .notNode => "Invalid AST object"
  | .notProgram => "AST document root must be a Program"
  | .bodyNotList => "Program body must be a list"
  | .unknownType name => "Unknown AST node type: " ++ name.bare
  | .notExpression found => "Expected Expr, got " ++ found.name
  | .notStatement found => "Expected Stmt, got " ++ found.name
  | .literalNotValue literal =>
      "Literal value must be a string, number, boolean or null, got " ++ literal.inspect
  | .missing name => Text.quote name
  | .notObject .list => "list indices must be integers or slices, not str"
  | .notObject .string => "string indices must be integers, not 'str'"
  | .notObject kind => Text.quote (kindName kind) ++ " object is not subscriptable"
  | .unknownKind name => name.inspect
  | .unnamedKind kind => "unhashable type: " ++ Text.quote (kindName kind)
  | .numberTooLarge => "int too large to convert to float"
  | .badLine (.notNumeric kind) =>
      "int() argument must be a string, a bytes-like object or a real number, not "
        ++ Text.quote (kindName kind)
  | .badLine (.unreadable text) =>
      -- Of a long text only so much is shown that it stays on the line.
      "invalid literal for int() with base 10: " ++ String.ofList (text.quoted.take 200)
  | .badLine (.tooLong digits) =>
      Text.tooLongText (": value has " ++ toString digits ++ " digits")
  | .badLine .notANumber => "cannot convert float NaN to integer"
  | .badLine .infinite => "cannot convert float infinity to integer"

/-- The error is about a number that is out of range and not about the shape of the document. -/
def isOutOfRange : LoadError → Bool
  | .numberTooLarge | .badLine .infinite => true
  | _ => false

end LoadError

-----------------------------------------------------------------------------------------
-- Parts of nodes
-----------------------------------------------------------------------------------------

theorem sizeOf_lookup_lt {fields : List (Text × Datum)} {name : Text} {content : Datum}
    (h : fields.lookup name = some content)
    : sizeOf content < sizeOf (Datum.object fields) := by
  induction fields with
  | nil => cases h
  | cons field rest ih =>
      obtain ⟨key, first⟩ := field
      rw [List.lookup_cons] at h
      simp only [Datum.object.sizeOf_spec, List.cons.sizeOf_spec, Prod.mk.sizeOf_spec] at ih ⊢
      split at h
      · cases h
        omega
      · have smaller := ih h
        omega

/-- A part of a node, which is smaller than the node. -/
def part (fields : List (Text × Datum)) (name : Text)
    : Except LoadError { content : Datum // sizeOf content < sizeOf (Datum.object fields) } :=
  match h : fields.lookup name with
  | some content => .ok ⟨content, sizeOf_lookup_lt h⟩
  | none => .error (.missing name)

theorem part_of_lookup {fields : List (Text × Datum)} {name : Text} {content : Datum}
    (h : fields.lookup name = some content)
    : part fields name = .ok ⟨content, sizeOf_lookup_lt h⟩ := by
  unfold part
  split
  · rename_i found
    rw [h, Option.some.injEq] at found
    subst found
    rfl
  · rename_i missing
    rw [h] at missing
    cases missing

theorem part_of_lookup_none {fields : List (Text × Datum)} {name : Text}
    (h : fields.lookup name = none)
    : part fields name = .error (.missing name) := by
  unfold part
  split
  · rename_i found
    rw [h] at found
    cases found
  · rfl

/-- An optional part, which is nil when it is missing. -/
def optionalPart (fields : List (Text × Datum)) (name : Text) : Datum :=
  (fields.lookup name).getD .nil

/-- The datum with a number in place of an integer. -/
def withNumber : Datum → Except LoadError Datum
  | .integer n =>
      match Number.ofInteger? n with
      | some x => .ok (.number x)
      | none => .error .numberTooLarge
  | d => .ok d

/-- The value that a literal in a document stands for. -/
def loadLiteral (literal : Datum) : Except LoadError Datum := do
  let value ← withNumber literal
  if value.isValue then .ok value else .error (.literalNotValue value)

/-- The kind of tokens that a datum names. -/
def loadKind : Datum → Except LoadError Token.Kind
  | .string name =>
      match Token.Kind.ofName? name with
      | some kind => .ok kind
      | none => .error (.unknownKind (.string name))
  | .list _ => .error (.unnamedKind .list)
  | .object _ => .error (.unnamedKind .object)
  | d => .error (.unknownKind d)

/-- The line that a datum gives. -/
def loadLine (line : Datum) : Except LoadError Int :=
  (lineOf line).mapError .badLine

/-- The token that an object describes. -/
def loadToken : Datum → Except LoadError Token
  | .object fields => do
      let kind ← loadKind (← part fields "kind").val
      let lexeme ← part fields "lexeme"
      let literal ← withNumber (optionalPart fields "literal")
      let line ← loadLine (← part fields "line").val
      return { kind, lexeme := lexeme.val, literal, line }
  | d => .error (.notObject d.kind)

/-- The type of a node. -/
def loadType (fields : List (Text × Datum)) : Except LoadError NodeType :=
  match optionalPart fields "type" with
  | .string name =>
      match NodeType.ofName? name with
      | some type => .ok type
      | none => .error (.unknownType (.string name))
  | d => .error (.unknownType d)

def asExpression : Node → Except LoadError Expr
  | .expression expr => .ok expr
  | node => .error (.notExpression node.nodeClass)

def asStatement : Node → Except LoadError Stmt
  | .statement stmt => .ok stmt
  | node => .error (.notStatement node.nodeClass)

-----------------------------------------------------------------------------------------
-- Nodes
-----------------------------------------------------------------------------------------

mutual

/-- The node that a datum describes. -/
def load (d : Datum) : Except LoadError Node :=
  match d with
  | .object fields => do
      match ← loadType fields with
      | .program =>
          let body ← part fields "body"
          match body with
          | ⟨.list items, _⟩ => return .program (← loadStatements items)
          | _ => .error .bodyNotList
      | .token => return .token (← loadToken (← part fields "value").val)
      | .printStatement =>
          let expr ← part fields "expr"
          return .statement (.print (← asExpression (← load expr.val)))
      | .expressionStatement =>
          let expr ← part fields "expr"
          return .statement (.expression (← asExpression (← load expr.val)))
      | .binary =>
          let left ← part fields "left"
          let left ← asExpression (← load left.val)
          let operator ← loadToken (← part fields "operator").val
          let right ← part fields "right"
          let right ← asExpression (← load right.val)
          return .expression (.binary left operator right)
      | .grouping =>
          let inner ← part fields "inner"
          return .expression (.grouping (← asExpression (← load inner.val)))
      | .literal => return .expression (.literal (← loadLiteral (optionalPart fields "value")))
      | .unary =>
          let operator ← loadToken (← part fields "operator").val
          let operand ← part fields "operand"
          return .expression (.unary operator (← asExpression (← load operand.val)))
  | _ => .error .notNode
termination_by sizeOf d
decreasing_by
  · rename_i smaller
    simp only [Datum.list.sizeOf_spec] at smaller
    omega
  · exact expr.property
  · exact expr.property
  · exact left.property
  · exact right.property
  · exact inner.property
  · exact operand.property

/-- The statements that data describe. -/
def loadStatements (items : List Datum) : Except LoadError (List Stmt) :=
  match items with
  | [] => .ok []
  | item :: rest => do
      let statement ← asStatement (← load item)
      return statement :: (← loadStatements rest)
termination_by sizeOf items

end

/-- The datum is an object of the type of programs. -/
def isProgram : Datum → Bool
  | .object fields =>
      match loadType fields with
      | .ok type => type = .program
      | .error _ => false
  | _ => false

def asProgram : Node → Except LoadError (List Stmt)
  | .program statements => .ok statements
  | _ => .error .notProgram

/-- The program that a document holds. Nothing in a document of another type is looked at. -/
def loadProgram (d : Datum) : Except LoadError (List Stmt) := do
  if isProgram d then asProgram (← load d) else .error .notProgram

end Lox.Document
