import Lox.Session.Basic
import Lox.Text.Encoding

/-! Delivery: what becomes of a run when it is written.
A run goes on as long as what it shows can be written. That ends where an integer is to be shown
that is too long for a text, and where a text has a surrogate, which the streams of output and
trace refuse. Nothing happens after that, and nothing is reported.
-/

namespace Lox

/-- Why something is not written. -/
inductive WriteError where
  | tooLong
  | unencodable (error : Text.EncodeError)
deriving DecidableEq

def WriteError.message : WriteError → String
  | .tooLong => Text.tooLongText ""
  | .unencodable error => error.message

namespace RuntimeError

/-- The message of the error is not too long for a text. It quotes an operator that is unknown. -/
def isTold (error : RuntimeError) : Bool :=
  match error.fault with
  | .unknownUnary | .unknownBinary => error.token.lexeme.isShort
  | _ => true

/-- Nothing that is told about the error is too long for a text. -/
def isShort (error : RuntimeError) : Bool :=
  Text.isShort error.token.line && error.isTold

end RuntimeError

namespace Note

/-- Nothing that the note shows is too long for a text. -/
def isShort : Note → Bool
  | .dispatch .. => true
  | .unary operator operand result =>
      operator.lexeme.isShort && operand.isShort && result.isShort
  | .binary operator left right result =>
      operator.lexeme.isShort && left.isShort && right.isShort && result.isShort
  | .printed value | .discarded value => value.isShort
  | .stopped error => error.isShort

/-- Why the note is not written, unless it is. -/
def writeError? (note : Note) : Option WriteError :=
  if note.isShort then note.text.encodeError?.map .unencodable else some .tooLong

end Note

namespace Event

/-- Why the event is not written, unless it is. -/
def writeError? : Event → Option WriteError
  | .prompt => none
  | .line text => text.encodeError?.map .unencodable
  | .note taken => taken.writeError?

/-- The events that are written: those before the first that is not. -/
def written (events : List Event) : List Event :=
  events.takeWhile (·.writeError?.isNone)

end Event

/-- A session after the run of a program, what it has shown, and why the run was broken off if it
was.
-/
structure Delivery where
  session : Session
  transcript : Transcript
  error : Option WriteError

/-- Why the run of a program is broken off, unless it is not. A runtime error is put into words even
where no trace takes it down.
-/
def Transcript.writeError? (transcript : Transcript) (stopped : Option RuntimeError)
    : Option WriteError :=
  (transcript.events.findSome? Event.writeError?).or
    (if stopped.all (·.isShort) then none else some .tooLong)

/-- Runs a program and writes what it shows. -/
def Session.deliver (session : Session) (statements : List Stmt) : Delivery :=
  let (after, transcript) := session.interpret statements
  match transcript.writeError? after.runtimeError with
  | none => ⟨after, transcript, none⟩
  | some error =>
      { session := { session with runtimeError := none }
        transcript := ⟨Event.written transcript.events, []⟩
        error }

end Lox
