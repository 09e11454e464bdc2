import Lox.Execute
import Lox.Source
import Lox.Text.Newlines

/-! Sessions: several units of source, one after another.
A session remembers whether errors were reported since it was last reset, and the error that stopped
the last unit that ran. A unit that is no program is reported and does not run.
-/

namespace Lox

/-- What a session has shown: the events of its runs and the diagnostics. -/
structure Transcript where
  events : List Event
  diagnostics : List Diagnostic

/-- The state of a session. -/
structure Session where
  /-- The level of detail of trace notes. -/
  level : Nat
  /-- A lexical or syntax error was reported. -/
  hadError : Bool
  hadRuntimeError : Bool
  /-- The error that stopped the last unit that ran. -/
  runtimeError : Option RuntimeError

namespace Session

/-- A session at its beginning. -/
def fresh (level : Nat) : Session :=
  ⟨level, false, false, none⟩

/-- Forgets the reported errors. -/
def reset (session : Session) : Session :=
  { session with hadError := false, hadRuntimeError := false }

/-- Remembers that a diagnostic was reported. -/
def report (session : Session) (diagnostic : Diagnostic) : Session :=
  match diagnostic with
  | .lexical .. | .syntactic .. => { session with hadError := true }
  | .runtime .. => { session with hadRuntimeError := true }

/-- Remembers that diagnostics were reported. -/
def reportAll (session : Session) (diagnostics : List Diagnostic) : Session :=
  diagnostics.foldl report session

/-- The status that a process ends with after the session. -/
def exitStatus (session : Session) : Nat :=
  if session.hadError then 65
  else if session.hadRuntimeError then 70
  else 0

/-- Runs a program. -/
def interpret (session : Session) (statements : List Stmt) : Session × Transcript :=
  let run := Lox.interpret session.level statements
  match run.stop with
  | some (.failed error) =>
      let diagnostic := Diagnostic.runtime error.token error.message
      ({ session with runtimeError := some error }.report diagnostic, ⟨run.events, [diagnostic]⟩)
  | _ => ({ session with runtimeError := none }, ⟨run.events, []⟩)

/-- Runs a unit of source. -/
def runSource (session : Session) (text : String) : Session × Transcript :=
  let source := Source.ofString text
  let reported := session.reportAll source.diagnostics
  match source.program with
  | .error _ => (reported, ⟨[], source.diagnostics⟩)
  | .ok statements =>
      let (after, transcript) := reported.interpret statements
      (after, { transcript with diagnostics := source.diagnostics ++ transcript.diagnostics })

/-- Runs a line of a dialogue as a unit of its own and forgets the errors in it. -/
def enter (session : Session) (line : List Char) : Session × Transcript :=
  let (after, transcript) := session.runSource (String.ofList line)
  (after.reset, transcript)

/-- Runs lines of a dialogue, each after a prompt. -/
def runLines (session : Session) : List (List Char) → Session × Transcript
  | [] => (session, ⟨[], []⟩)
  | line :: rest =>
      let (after, first) := session.enter line
      let (last, others) := after.runLines rest
      (last, ⟨.prompt :: first.events ++ others.events, first.diagnostics ++ others.diagnostics⟩)

/-- The lines of an input, however they end. -/
def linesOf (input : String) : List (List Char) :=
  Text.lines (Text.unifyNewlines input.toList)

/-- Runs the lines of an input as a dialogue: a prompt stands before each line and before the end of
the input.
-/
def runPrompt (session : Session) (input : String) : Session × Transcript :=
  let (after, transcript) := session.runLines (linesOf input)
  (after, { transcript with events := transcript.events ++ [.prompt, .line ""] })

end Session

/-- The run of one unit of source by itself. -/
structure UnitRun where
  succeeded : Bool
  session : Session
  transcript : Transcript
  /-- What the trace holds; a unit that does not run leaves no trace, and neither does level 0. -/
  trace : Option Text

/-- Runs one unit of source in a fresh session. -/
def runUnit (level : Nat) (text : String) : UnitRun :=
  let (session, transcript) := (Session.fresh level).runSource text
  { succeeded := !session.hadError && session.runtimeError.isNone
    session
    transcript
    trace :=
      if session.hadError || level = 0 then none
      else some (Event.traceOf transcript.events) }

end Lox
