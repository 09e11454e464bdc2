import Lox.Operator

/-! Trace notes.
A note records one step of a run. Each note belongs to a level of detail, and a run at some level
takes down the notes up to that level: outcomes of statements, then results of operators, then the
kinds of operands.
-/

namespace Lox

/-- A step of a run, as a trace records it. -/
inductive Note where
  | dispatch (kind : Token.Kind) (left right : Datum.Kind)
  | unary (operator : Token) (operand result : Datum)
  | binary (operator : Token) (left right result : Datum)
  | printed (value : Datum)
  | discarded (value : Datum)
  | stopped (error : RuntimeError)

namespace Note

/-- The lowest level at which a note is taken. -/
def level : Note → Nat
  | .printed _ | .discarded _ | .stopped _ => 1
  | .unary .. | .binary .. => 2
  | .dispatch .. => 3

def text : Note → Text
  | .dispatch kind left right =>
      "dispatch " ++ kind.name ++ " on " ++ left.name ++ ", " ++ right.name
  | .unary operator operand result =>
      operator.lexeme.bare ++ operand.inspect ++ " -> " ++ result.inspect
  | .binary operator left right result =>
      left.inspect ++ " " ++ operator.lexeme.bare ++ " " ++ right.inspect ++ " -> "
        ++ result.inspect
  | .printed value => "print " ++ value.kind.name ++ " " ++ value.inspect
  | .discarded value => "expression statement -> " ++ value.inspect
  | .stopped error =>
      "runtime error at line " ++ toString error.token.line ++ ": " ++ error.message

/-- The notes that are taken at a level when there is one to take. -/
def takenAt (level : Nat) (note : Note) : List Note :=
  if note.level ≤ level then [note] else []

end Note

/-- A result with the notes that were taken on the way to it. -/
structure Traced (α : Type) where
  notes : List Note
  result : Except RuntimeError α

namespace Traced

/-- A result without notes. -/
def of {α : Type} (result : Except RuntimeError α) : Traced α :=
  ⟨[], result⟩

/-- Goes on with a value; an error ends everything. -/
def andThen {α β : Type} (first : Traced α) (next : α → Traced β) : Traced β :=
  match first.result with
  | .error error => ⟨first.notes, .error error⟩
  | .ok value => ⟨first.notes ++ (next value).notes, (next value).result⟩

instance : Monad Traced where
  pure value := .of (.ok value)
  bind := andThen

/-- Takes a note at a level of detail. -/
def note (level : Nat) (note : Note) : Traced Unit :=
  ⟨note.takenAt level, .ok ()⟩

end Traced

end Lox
