import Lox.Datum.Basic
import Lox.Number.Text
import Lox.Text.Quoted

/-! Writing JSON text.
Every item and every field stands on a line of its own, indented by two spaces for each list or
object around it. Strings escape only the quote, the backslash and control characters. Only programs
from sources are written, and those have no surrogates to write.
-/

namespace Lox.Json

/-- A character as it stands in a string. -/
def escaped (c : Char) : List Char :=
  if c = '"' ∨ c = '\\' then ['\\', c]
  else if c = '\n' then ['\\', 'n']
  else if c = '\r' then ['\\', 'r']
  else if c = '\t' then ['\\', 't']
  else if c = '\x08' then ['\\', 'b']
  else if c = '\x0c' then ['\\', 'f']
  else if c.toNat < 32 then '\\' :: 'u' :: Text.hexDigits 4 c.toNat
  else [c]

/-- A string between its quotes. -/
def stringText (text : Text) : List Char :=
  '"' :: text.characters.flatMap escaped ++ ['"']

/-- A number; those that are not finite have names. -/
def numberText (x : Float) : List Char :=
  match Number.form x with
  | .notANumber => "NaN".toList
  | .infinite negative => Number.signed negative "Infinity".toList
  | .finite _ _ => Number.natural x

/-- An integer in decimal digits. -/
def integerText (n : Int) : List Char :=
  Number.signed (n < 0) (Nat.toDigits 10 n.natAbs)

/-- A new line at a depth. -/
def newLine (depth : Nat) : List Char :=
  '\n' :: List.replicate (2 * depth) ' '

mutual

/-- The text of a datum inside `depth` lists or objects. -/
def write (depth : Nat) : Datum → List Char
  | .nil => "null".toList
  | .boolean true => "true".toList
  | .boolean false => "false".toList
  | .number x => numberText x
  | .string text => stringText text
  | .integer n => integerText n
  | .list [] => "[]".toList
  | .list (item :: rest) =>
      '[' :: newLine (depth + 1) ++ write (depth + 1) item ++ writeItems (depth + 1) rest
        ++ newLine depth ++ [']']
  | .object [] => ['\x7b', '\x7d']
  | .object ((name, content) :: rest) =>
      '\x7b' :: newLine (depth + 1) ++ stringText name ++ ':' :: ' ' :: write (depth + 1) content
        ++ writeFields (depth + 1) rest ++ newLine depth ++ ['\x7d']

/-- The items after a first one. -/
def writeItems (depth : Nat) : List Datum → List Char
  | [] => []
  | item :: rest => ',' :: newLine depth ++ write depth item ++ writeItems depth rest

/-- The fields after a first one. -/
def writeFields (depth : Nat) : List (Text × Datum) → List Char
  | [] => []
  | (name, content) :: rest =>
      ',' :: newLine depth ++ stringText name ++ ':' :: ' ' :: write depth content
        ++ writeFields depth rest

end

end Lox.Json
