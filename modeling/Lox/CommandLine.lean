import Lox.Document.Load
import Lox.Files
import Lox.Json.Reader
import Lox.Json.Writer
import Lox.Options
import Lox.Session.Delivery
import Lox.Tree.Text

/-! The command line: what a call of the program does.
A call is a function from its arguments, the files and the standard input to what it writes, the
files it leaves and how it ends.
-/

namespace Lox

/-- What a call is to do. -/
inductive Command where
  | emit (path : Path)
  | print (path : Path)
  | execute (level : Nat) (path : Path)
  | script (level : Nat) (path : Path)
  | prompt (level : Nat)
deriving DecidableEq

/-- The file that a command reads, if it reads one. -/
def Command.input? : Command → Option Path
  | .emit path | .print path | .execute _ path | .script _ path => some path
  | .prompt _ => none

/-- What options ask for. An empty path counts as no path. -/
def Options.command (options : Options) : Command :=
  match options.mode.filter (·.2 ≠ "") with
  | some (.emit, path) => .emit (.ofString path)
  | some (.print, path) => .print (.ofString path)
  | some (.execute, path) => .execute options.verbosity (.ofString path)
  | _ =>
      match (options.script.join).filter (· ≠ "") with
      | some path => .script options.verbosity (.ofString path)
      | none => .prompt options.verbosity

namespace CommandLine

/-- How a call ends: with a status, or because something outside the program is not as needed. -/
inductive Ending where
  | status (code : Nat)
  | folder (path : Path)
  | undecodable (error : Text.Utf8.Error)
  | outOfRange (error : Document.LoadError)
  | unwritable (error : WriteError)

/-- What is told about an ending without a status. -/
def Ending.message : Ending → Text
  | .status _ => ""
  | .folder path => "[Errno 21] Is a directory: " ++ Text.quote path.text
  | .undecodable error => error.message
  | .outOfRange error => error.message
  | .unwritable error => error.message

/-- What a call writes and leaves. The error stream takes surrogates, too, but by number. -/
structure Outcome where
  output : String
  diagnostics : String
  files : Files
  ending : Ending

/-- Nothing is written but a message to the error stream. -/
def Outcome.failure (files : Files) (message : Text) (code : Nat) : Outcome :=
  ⟨"", message.spelled, files, .status code⟩

/-- The call ends without a message of its own. -/
def Outcome.stopped (files : Files) (ending : Ending) : Outcome :=
  ⟨"", "", files, ending⟩

-----------------------------------------------------------------------------------------
-- Reading files
-----------------------------------------------------------------------------------------

/-- Why a file gives no text. -/
inductive ReadError where
  | missing
  | folder
  | undecodable (error : Text.Utf8.Error)

/-- The text of a file, with line feeds only. -/
def readText (files : Files) (path : Path) : Except ReadError (List Char) :=
  match files.find? path with
  | none => .error .missing
  | some .folder => .error .folder
  | some (.file bytes) =>
      match Text.Utf8.decode bytes with
      | .ok text => .ok (Text.unifyNewlines text)
      | .error error => .error (.undecodable error)

def missingText (path : Path) : String :=
  "Error: file " ++ path.text ++ " not found\n"

/-- A call that needs the text of a source file and cannot have it. -/
def unread (files : Files) (path : Path) : ReadError → Outcome
  | .missing => .failure files (missingText path) 1
  | .folder => .stopped files (.folder path)
  | .undecodable error => .stopped files (.undecodable error)

/-- A call that needs the source in a file. -/
def withSource (files : Files) (path : Path) (next : Source → Outcome) : Outcome :=
  match readText files path with
  | .error error => unread files path error
  | .ok text => next (.ofString (String.ofList text))

/-- A call that needs the program in a file. -/
def withProgram (files : Files) (path : Path) (next : List Stmt → Outcome) : Outcome :=
  withSource files path fun source =>
    match source.program with
    | .error _ => .failure files (Diagnostic.textOf source.diagnostics) 65
    | .ok statements => next statements

-----------------------------------------------------------------------------------------
-- Documents and trees
-----------------------------------------------------------------------------------------

/-- The document of a program as text. -/
def documentText (statements : List Stmt) : String :=
  String.ofList (Json.write 0 (Node.program statements).toDatum)

/-- Writes the document of a source file beside it. -/
def emit (files : Files) (path : Path) : Outcome :=
  withProgram files path fun statements =>
    let target := path.addSuffix ".ast.json"
    match files.write? target (documentText statements) with
    | some written => ⟨target.text ++ "\n", "", written, .status 0⟩
    | none => .stopped files (.folder target)

/-- Prints the tree of each statement of a source file. -/
def printTrees (files : Files) (path : Path) : Outcome :=
  withProgram files path fun statements =>
    let trees := Text.join (statements.map fun statement => statement.text ++ "\n")
    ⟨trees.string, "", files, .status 0⟩

-----------------------------------------------------------------------------------------
-- Running
-----------------------------------------------------------------------------------------

/-- Where the trace of a call goes. -/
def tracePath : Path :=
  .ofString "debug.txt"

/-- Leaves a trace, unless the level of detail has none. -/
def leaveTrace (files : Files) (level : Nat) (trace : String) : Files :=
  if level = 0 then files else (files.write? tracePath trace).getD files

/-- The outcome of a session in which everything was written. Its notes go into the trace. -/
def ofSession (files : Files) (session : Session) (transcript : Transcript) : Outcome :=
  { output := (Event.outputOf transcript.events).string
    diagnostics := (Diagnostic.textOf transcript.diagnostics).spelled
    files := leaveTrace files session.level (Event.traceOf transcript.events).string
    ending := .status session.exitStatus }

/-- The outcome of a run, which may have been broken off. -/
def ofDelivery (files : Files) (delivery : Delivery) : Outcome :=
  let outcome := ofSession files delivery.session delivery.transcript
  match delivery.error with
  | none => outcome
  | some error => { outcome with ending := .unwritable error }

/-- Runs a source file. A source has no surrogates, nor lines enough for a number that is too long,
so that all it shows is written.
-/
def runScript (files : Files) (level : Nat) (path : Path) : Outcome :=
  match readText files path with
  | .error error => unread files path error
  | .ok text =>
      let (session, transcript) := (Session.fresh level).runSource (String.ofList text)
      ofSession files session transcript

/-- Runs the lines of the standard input. -/
def runPrompt (files : Files) (level : Nat) (input : String) : Outcome :=
  let (session, transcript) := (Session.fresh level).runPrompt input
  ofSession files session transcript

/-- Why a text is no document of a program. -/
inductive DocumentError where
  | undecodable (error : Text.Utf8.Error)
  | json (error : Json.Error)
  | load (error : Document.LoadError)

def DocumentError.message : DocumentError → Text
  | .undecodable error => error.message
  | .json error => error.message
  | .load error => error.message

/-- The program that the text of a document holds. -/
def programOf (text : List Char) : Except DocumentError (List Stmt) :=
  match Json.read text with
  | .error error => .error (.json error)
  | .ok document => (Document.loadProgram document).mapError .load

/-- A call with an unusable document. Only a number out of range is not answered with a message. -/
def invalidDocument (files : Files) (path : Path) (error : DocumentError) : Outcome :=
  let answer :=
    Outcome.failure files
      ("Error: invalid AST file " ++ path.text ++ ": " ++ error.message ++ "\n") 65
  match error with
  | .load error => if error.isOutOfRange then .stopped files (.outOfRange error) else answer
  | _ => answer

/-- Runs the document in a file. -/
def execute (files : Files) (level : Nat) (path : Path) : Outcome :=
  match readText files path with
  | .error (.undecodable error) => invalidDocument files path (.undecodable error)
  | .error error => unread files path error
  | .ok text =>
      match programOf text with
      | .error error => invalidDocument files path error
      | .ok statements => ofDelivery files ((Session.fresh level).deliver statements)

/-- A run that leaves a trace begins with an empty one. -/
def withTrace (files : Files) (level : Nat) (next : Files → Outcome) : Outcome :=
  if level = 0 then next files
  else
    match files.write? tracePath "" with
    | some files => next files
    | none => .stopped files (.folder tracePath)

/-- Does what a command says. -/
def perform (files : Files) (input : String) : Command → Outcome
  | .emit path => emit files path
  | .print path => printTrees files path
  | .execute level path => withTrace files level (execute · level path)
  | .script level path => withTrace files level (runScript · level path)
  | .prompt level => withTrace files level (runPrompt · level input)

/-- A call of the program. -/
def call (files : Files) (input : String) (arguments : List String) : Outcome :=
  match Options.ofArguments arguments with
  | .error .help => ⟨helpText, "", files, .status 0⟩
  | .error (.error error) => .failure files (usageErrorText error) 2
  | .ok options => perform files input options.command

end CommandLine

end Lox
