import Lox.Evaluate

/-! Execution of statements.
A run is the list of what happens, in order: lines that are printed and notes that are taken. It
stops at the first statement that fails, which prints nothing itself.
-/

namespace Lox

/-- Something that a run does. -/
inductive Event where
  | prompt
  | line (text : Text)
  | note (taken : Note)

namespace Event

def text : Event → Text
  | .prompt => "> "
  | .line text => text ++ "\n"
  | .note taken => taken.text ++ "\n"

def isNote : Event → Bool
  | .note _ => true
  | _ => false

/-- The text of all events. -/
def textOf (events : List Event) : Text :=
  Text.join (events.map text)

/-- What a run writes when its notes go elsewhere. -/
def outputOf (events : List Event) : Text :=
  textOf (events.filter (!·.isNote))

/-- The notes of a run by themselves. -/
def traceOf (events : List Event) : Text :=
  textOf (events.filter (·.isNote))

end Event

/-- Why a run does not reach its end. -/
inductive Stop where
  | failed (error : RuntimeError)
  /-- A datum that is no value was to be printed. -/
  | unprintable (value : Datum)

def Stop.message : Stop → Text
  | .failed error => error.message
  | .unprintable value => "not a Lox value: " ++ value.inspect

/-- What happens in a run, and why it stops early if it does. -/
structure Run where
  events : List Event
  stop : Option Stop

namespace Run

/-- The run of a statement whose expression has a value. -/
def ofValue (level : Nat) (value : Datum) : Stmt → Run
  | .expression _ => ⟨(Note.takenAt level (.discarded value)).map .note, none⟩
  | .print _ =>
      let notes := (Note.takenAt level (.printed value)).map Event.note
      match value.display? with
      | some text => ⟨notes ++ [.line text], none⟩
      | none => ⟨notes, some (.unprintable value)⟩

/-- One run after another; the second is left out when the first stops early. -/
def append (first second : Run) : Run :=
  match first.stop with
  | some _ => first
  | none => ⟨first.events ++ second.events, second.stop⟩

end Run

def Stmt.expr : Stmt → Expr
  | .expression expr | .print expr => expr

/-- Runs a statement at a level of detail. -/
def Stmt.execute (level : Nat) (statement : Stmt) : Run :=
  let evaluation := statement.expr.evaluate level
  let notes := evaluation.notes.map Event.note
  match evaluation.result with
  | .error error => ⟨notes, some (.failed error)⟩
  | .ok value =>
      let outcome := Run.ofValue level value statement
      ⟨notes ++ outcome.events, outcome.stop⟩

/-- Runs statements in order up to the first that stops. -/
def executeAll (level : Nat) : List Stmt → Run
  | [] => ⟨[], none⟩
  | statement :: rest => (statement.execute level).append (executeAll level rest)

/-- Runs a program. A runtime error is noted last. -/
def interpret (level : Nat) (statements : List Stmt) : Run :=
  let run := executeAll level statements
  match run.stop with
  | some (.failed error) =>
      { run with events := run.events ++ (Note.takenAt level (.stopped error)).map .note }
  | _ => run

end Lox
