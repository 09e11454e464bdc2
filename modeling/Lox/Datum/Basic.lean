import Lox.Text.Basic

/-! Data that programs compute with and documents are made of.
The first four kinds are the values of the language. The other three occur only in documents: there
they are data like any other, and as operands they are values of no known kind.
-/

namespace Lox

/-- A value of the language, or other data of a document. -/
inductive Datum where
  | nil
  | boolean (truth : Bool)
  | number (x : Float)
  | string (text : Text)
  | integer (n : Int)
  | list (items : List Datum)
  /-- Fields in document order; no two of them share a name. -/
  | object (fields : List (Text × Datum))
deriving Inhabited

namespace Datum

/-- The kind of a datum, without its content. -/
inductive Kind where
  | nil
  | boolean
  | number
  | string
  | integer
  | list
  | object
deriving DecidableEq

def kind : Datum → Kind
  | .nil => .nil
  | .boolean _ => .boolean
  | .number _ => .number
  | .string _ => .string
  | .integer _ => .integer
  | .list _ => .list
  | .object _ => .object

/-- The kind's name in traces. -/
def Kind.name : Kind → String
  | .nil => "nil"
  | .boolean => "boolean"
  | .number => "number"
  | .string => "string"
  | .integer => "int"
  | .list => "list"
  | .object => "dict"

/-- The kind is one that values of the language have. -/
def Kind.isValue : Kind → Bool
  | .nil | .boolean | .number | .string => true
  | .integer | .list | .object => false

/-- The datum is a value of the language. -/
def isValue (d : Datum) : Bool :=
  d.kind.isValue

/-- The fields with one more field at the end, or with its content in place of the content that the
name had.
-/
def putField (fields : List (Text × Datum)) (name : Text) (content : Datum)
    : List (Text × Datum) :=
  match fields with
  | [] => [(name, content)]
  | field :: rest =>
      if field.1 = name then (name, content) :: rest else field :: putField rest name content

end Datum

end Lox
