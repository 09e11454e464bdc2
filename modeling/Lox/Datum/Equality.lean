import Lox.Datum.Basic
import Lox.Number.Text

/-! When two data are equal.
Data of different kinds are never equal, and numbers compare as doubles do, so that one that is not
a number differs even from itself. Inside lists and objects, data that denote the same number are
equal whatever their kind, and the order of fields does not matter.
-/

namespace Lox.Datum

/-- The whole number that a boolean or an integer denotes. -/
def wholeNumber? : Datum → Option Int
  | .boolean truth => some (if truth then 1 else 0)
  | .integer n => some n
  | _ => none

/-- Two data that hold no others denote the same thing. -/
def sameAtom (a b : Datum) : Bool :=
  match a, b with
  | .nil, .nil => true
  | .string s, .string t => s == t
  | .number x, .number y => x == y
  | .number x, b => b.wholeNumber?.any (Number.isInteger x)
  | a, .number y => a.wholeNumber?.any (Number.isInteger y)
  | a, b => a.wholeNumber?.isSome && a.wholeNumber? == b.wholeNumber?

mutual

/-- Two data denote the same thing. -/
def alike : Datum → Datum → Bool
  | .list items, .list others => alikeItems items others
  | .object fields, .object others =>
      fields.length == others.length && alikeFields fields others
  | .list _, _ | .object _, _ => false
  | a, b => sameAtom a b

def alikeItems : List Datum → List Datum → Bool
  | [], [] => true
  | item :: rest, other :: others => alike item other && alikeItems rest others
  | _, _ => false

/-- Each of the fields has a counterpart among the others. -/
def alikeFields : List (Text × Datum) → List (Text × Datum) → Bool
  | [], _ => true
  | (name, content) :: rest, others =>
      (match others.lookup name with
        | some other => alike content other
        | none => false)
      && alikeFields rest others

end

/-- Two data of one kind with the same content. -/
def same (a b : Datum) : Bool :=
  a.kind = b.kind && a.alike b

end Lox.Datum
