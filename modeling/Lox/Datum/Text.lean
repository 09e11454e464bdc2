import Lox.Datum.Basic
import Lox.Number.Text
import Lox.Text.Numeral
import Lox.Text.Quoted

/-! The texts of a datum.
Traces and error messages show a datum so that its kind can be seen. Programs print values without
quotes and numbers without a power of ten. Trees show literals without quotes, too. An integer with
too many digits has no text, and neither has anything it is in.
-/

namespace Lox.Datum

mutual

/-- The text of a datum in traces and error messages. -/
def inspect : Datum → String
  | .nil => "None"
  | .boolean true => "True"
  | .boolean false => "False"
  | .number x => String.ofList (Number.natural x)
  | .string text => Text.quote text
  | .integer n => toString n
  | .list items => "[" ++ ", ".intercalate (inspectItems items) ++ "]"
  | .object fields => "\x7b" ++ ", ".intercalate (inspectFields fields) ++ "\x7d"

def inspectItems : List Datum → List String
  | [] => []
  | item :: rest => item.inspect :: inspectItems rest

def inspectFields : List (Text × Datum) → List String
  | [] => []
  | (name, content) :: rest => (Text.quote name ++ ": " ++ content.inspect) :: inspectFields rest

end

mutual

/-- No integer in the datum is too long for a text. -/
def isShort : Datum → Bool
  | .integer n => Text.isShort n
  | .list items => areShort items
  | .object fields => areShortFields fields
  | _ => true

def areShort : List Datum → Bool
  | [] => true
  | item :: rest => item.isShort && areShort rest

def areShortFields : List (Text × Datum) → Bool
  | [] => true
  | (_, content) :: rest => content.isShort && areShortFields rest

end

/-- The text of a datum within a sentence: a string stands for itself. -/
def bare : Datum → Text
  | .string text => text
  | d => d.inspect

/-- The text of a literal in a tree. -/
def label : Datum → Text
  | .nil => "nil"
  | .boolean true => "true"
  | .boolean false => "false"
  | d => d.bare

/-- What a program prints for a value. -/
def display? : Datum → Option Text
  | .nil => some ↑"nil"
  | .boolean true => some ↑"true"
  | .boolean false => some ↑"false"
  | .number x => some ↑(String.ofList (Number.plain x))
  | .string text => some text
  | .integer _ | .list _ | .object _ => none

end Lox.Datum
