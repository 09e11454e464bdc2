import Lox.CommandLine

/-! The program: reads the files that a call needs, and carries out what the call leads to. -/

namespace Lox

/-- What stands at the end of a path on disk. -/
def entryOnDisk (path : Path) : IO (Option Entry) := do
  let place := (← IO.currentDir) / path.text
  if ← place.isDir then return some .folder
  else if ← place.pathExists then return some (.file (← IO.FS.readBinFile place).toList)
  else return none

/-- The files on disk that matter to a command: those that it may read or write. -/
def filesFor (command : Command) : IO Files := do
  let input := command.input?.toList
  let mut files : Files := ⟨[]⟩
  for path in CommandLine.tracePath :: input ++ input.map (·.addSuffix ".ast.json") do
    if let some entry ← entryOnDisk path then files := files.put path entry
  return files

/-- Writes the files that a call changed. -/
def store (files earlier : Files) : IO Unit := do
  for (place, entry) in files.changedSince earlier do
    if let .file bytes := entry then
      IO.FS.writeBinFile ((← IO.currentDir) / place.path.text) ⟨bytes.toArray⟩

/-- Answers each line as soon as it is entered. -/
partial def converse (session : Session) (trace : String) : IO String := do
  let output ← IO.getStdout
  output.putStr Event.prompt.text.string
  output.flush
  let line ← (← IO.getStdin).getLine
  if line.isEmpty then
    output.putStr "\n"
    return trace
  let (after, transcript) := session.runLines (Session.linesOf line)
  output.putStr (Event.outputOf (transcript.events.drop 1)).string
  IO.eprint (Diagnostic.textOf transcript.diagnostics).spelled
  converse after (trace ++ (Event.traceOf transcript.events).string)

/-- Carries out a command. -/
def carryOut (arguments : List String) (command : Command) : IO UInt32 := do
  let files ← filesFor command
  if let .prompt level := command then
    if level = 0 ∨ files.find? CommandLine.tracePath ≠ some .folder then
      let trace ← converse (.fresh level) ""
      store (CommandLine.leaveTrace files level trace) files
      return 0
  let outcome := CommandLine.call files "" arguments
  IO.print outcome.output
  IO.eprint outcome.diagnostics
  store outcome.files files
  match outcome.ending with
  | .status code => return code.toUInt32
  | ending =>
      IO.eprintln ending.message.spelled
      return 1

end Lox

def main (arguments : List String) : IO UInt32 := do
  match Lox.Options.ofArguments arguments with
  | .ok options => Lox.carryOut arguments options.command
  | .error .help =>
      IO.print Lox.helpText
      return 0
  | .error (.error error) =>
      IO.eprint (Lox.usageErrorText error)
      return 2
