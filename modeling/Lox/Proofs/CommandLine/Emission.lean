import Lox.Proofs.CommandLine.Arguments
import Lox.Proofs.Document.RoundTrip
import Lox.Proofs.Files.Write
import Lox.Proofs.Source.Writing
import Lox.Proofs.Text.Lines
import Lox.Proofs.Text.Utf8

/-! Running the document of a script is as good as running the script.
A document holds the program that it was made of, and writing it changes nothing that a run of the
script depends on. So both calls run the same statements.
-/

namespace Lox

theorem Datum.writable_of_isPlain {value : Datum} (plain : value.isPlain = true)
    : value.Writable := by
  cases value with
  | string => exact plain
  | nil | boolean | number => trivial
  | integer | list | object => cases plain

theorem Token.Scanned.writable {token : Token} (scanned : token.Scanned)
    (line : Text.isShort token.line = true)
    : token.Writable := by
  obtain ⟨text, lexeme⟩ := scanned.lexeme
  refine ⟨?_, Datum.writable_of_isPlain scanned.plain, line⟩
  rw [lexeme]
  exact Text.isEncodable_ofString text

theorem Token.Scanned.stable {token : Token} (scanned : token.Scanned) : token.Stable := by
  intro same
  have value := scanned.literal
  rw [Datum.isValue, same] at value
  cases value

namespace CommandLine

variable {files after : Files} {path : Path} {text : String} {statements : List Stmt}

theorem readText_of_find (h : files.find? path = some (.file (Text.Utf8.encode text)))
    : readText files path = .ok (Text.unifyNewlines text.toList) := by
  rw [readText, h]
  simp only [Text.Utf8.decode_encode]

theorem unifyNewlines_documentText (statements : List Stmt)
    : Text.unifyNewlines (documentText statements).toList
      = Json.write 0 (Node.program statements).toDatum := by
  rw [documentText, String.toList_ofList]
  exact Text.unifyNewlines_of_notMem (Json.carriageReturn_notMem_write 0 _)

/-- The document of a program holds that program. -/
theorem programOf_write
    (suits : ∀ statement ∈ statements,
      statement.Satisfies (·.isPlain = true)
        fun token => token.Scanned ∧ Text.isShort token.line = true)
    : programOf (Json.write 0 (Node.program statements).toDatum) = .ok statements := by
  have read := Json.read_write (Node.writable_toDatum fun statement member =>
    (suits statement member).mono (fun _ => Datum.writable_of_isPlain)
      fun _ found => found.1.writable found.2)
  have loaded := Document.loadProgram_toDatum fun statement member =>
    (suits statement member).mono (fun _ => Datum.isValue_of_isPlain) fun _ found => found.1.stable
  rw [programOf, read]
  simp only [loaded]
  rfl

/-- The unit of source that is read where a text was written. -/
def unitOf (text : String) : String :=
  String.ofList (Text.unifyNewlines text.toList)

theorem runScript_of_find (level : Nat)
    (h : files.find? path = some (.file (Text.Utf8.encode text)))
    : runScript files level path
      = ofSession files ((Session.fresh level).runSource (unitOf text)).1
          ((Session.fresh level).runSource (unitOf text)).2 := by
  rw [runScript, readText_of_find h]
  rfl

theorem emit_of_error {failure : Source.Failure}
    (h : files.find? path = some (.file (Text.Utf8.encode text)))
    (malformed : (Source.ofString (unitOf text)).program = .error failure)
    : emit files path
      = .failure files (Diagnostic.textOf (Source.ofString (unitOf text)).diagnostics) 65 := by
  rw [emit, withProgram, withSource, readText_of_find h]
  simp only
  rw [← unitOf, malformed]

theorem emit_of_ok (h : files.find? path = some (.file (Text.Utf8.encode text)))
    (program : (Source.ofString (unitOf text)).program = .ok statements)
    (write : files.write? (path.addSuffix ".ast.json") (documentText statements) = some after)
    : emit files path = ⟨(path.addSuffix ".ast.json").text ++ "\n", "", after, .status 0⟩ := by
  rw [emit, withProgram, withSource, readText_of_find h]
  simp only
  rw [← unitOf, program]
  simp only [write]

theorem execute_of_find (level : Nat)
    (suits : ∀ statement ∈ statements,
      statement.Satisfies (·.isPlain = true)
        fun token => token.Scanned ∧ Text.isShort token.line = true)
    (h : files.find? path = some (.file (Text.Utf8.encode (documentText statements))))
    : execute files level path
      = ofSession files ((Session.fresh level).interpret statements).1
          ((Session.fresh level).interpret statements).2 := by
  rw [execute, readText_of_find h, unifyNewlines_documentText]
  simp only [programOf_write suits, Session.deliver_of_program _ suits]
  rfl

-----------------------------------------------------------------------------------------
-- Traces
-----------------------------------------------------------------------------------------

/-- The place of the trace. -/
def tracePlace : Place :=
  ⟨.working 0, ["debug.txt"]⟩

theorem placeOf_tracePath (files : Files) : files.placeOf tracePath = some tracePlace := by
  have path : tracePath = ⟨0, ["debug.txt"]⟩ := by cbv
  rw [path]
  exact files.placeOf_name (by decide)

/-- The files that a run with a trace begins with. What stands elsewhere is as it was, and what is
left as a trace is found at its place.
-/
structure Begun (files : Files) (level : Nat) (begun : Files) : Prop where
  runs : ∀ next, withTrace files level next = next begun
  elsewhere : ∀ path, (0 < level → files.placeOf path ≠ some tracePlace)
    → begun.find? path = files.find? path
  trace : ∀ trace, (leaveTrace begun level trace).find? tracePath
    = if level = 0 then files.find? tracePath else some (.file (Text.Utf8.encode trace))

theorem exists_begun (files : Files) (level : Nat)
    (traceFree : 0 < level → files.find? tracePath ≠ some .folder)
    : ∃ begun, Begun files level begun := by
  cases level with
  | zero => exact ⟨files, fun _ => rfl, fun _ _ => rfl, fun _ => rfl⟩
  | succ level =>
      have led := placeOf_tracePath files
      have free : files.entryAt tracePlace ≠ some .folder := by
        intro folder
        refine traceFree (by omega) ?_
        rw [Files.find?, led]
        exact folder
      obtain ⟨begun, write, written⟩ := Files.exists_written led free ""
      refine ⟨begun, fun next => ?_, fun path apart => ?_, fun trace => ?_⟩
      · rw [withTrace, if_neg (by omega), write]
      · exact written.find_other (apart (by omega))
      · have led := placeOf_tracePath begun
        have free : begun.entryAt tracePlace ≠ some .folder := by
          rw [written.self]
          intro folder
          cases folder
        obtain ⟨left, write, written⟩ := Files.exists_written led free trace
        rw [leaveTrace, if_neg (by omega), write, if_neg (by omega)]
        exact written.find_self led

-----------------------------------------------------------------------------------------
-- Emission
-----------------------------------------------------------------------------------------

/-- Two calls show the same and leave the same trace. -/
structure Alike (first second : Outcome) : Prop where
  output : first.output = second.output
  diagnostics : first.diagnostics = second.diagnostics
  ending : first.ending = second.ending
  trace : first.files.find? tracePath = second.files.find? tracePath

/-- The call that writes the document of a script. -/
def emission (files : Files) (input script : String) : Outcome :=
  call files input ["--emit-ast", script]

/-- The call that runs a script, or with an option in front of it a document. -/
def run (files : Files) (input : String) (level : Nat) (words : List String) : Outcome :=
  call files input (List.replicate level "-v" ++ words)

/-- The document of a script takes its place: either the script is refused whether its document is
to be written or it is to run, with the same report, or its document is written and runs as the
script does.
-/
def Preserved (files : Files) (input script document : String) (level : Nat) : Prop :=
  (emission files input script).ending = .status 65
      ∧ (emission files input script).files = files
      ∧ (run files input level [script]).ending = .status 65
      ∧ (emission files input script).diagnostics = (run files input level [script]).diagnostics
    ∨ (emission files input script).ending = .status 0
      ∧ (∃ bytes, (emission files input script).files.find? (.ofString document)
        = some (.file bytes))
      ∧ Alike (run (emission files input script).files input level ["--ast", document])
          (run files input level [script])

/-- A script and its document beside it, as calls name them, where the document can be written: no
folder is in its place, and the script has no line with a number that is too long.
-/
structure Setting (files : Files) (script document source : String) : Prop where
  scriptNamed : Word.Names script
  documentNamed : Word.Names document
  beside : Path.ofString document = (Path.ofString script).addSuffix ".ast.json"
  found : files.find? (.ofString script) = some (.file (Text.Utf8.encode source))
  free : files.find? (.ofString document) ≠ some .folder
  numbered : Source.Numbered (unitOf source)

variable {script document source : String} {level : Nat}

/-- The name of a document is no step back, not the name of the trace and not that of the script. -/
theorem suffix_ne (last : String)
    : last ++ ".ast.json" ≠ ".." ∧ last ++ ".ast.json" ≠ "debug.txt"
      ∧ last ++ ".ast.json" ≠ last := by
  refine ⟨fun same => ?_, fun same => ?_, fun same => ?_⟩
  · have ends := congrArg (·.toList.getLast?) same
    simp at ends
  · have ends := congrArg (·.toList.getLast?) same
    simp at ends
  · have lengths := congrArg String.length same
    simp at lengths

/-- A script stands alone in the working folder, and so its document can be written beside it. -/
theorem setting_alone (source : String) (scriptNamed : Word.Names script)
    (documentNamed : Word.Names document) (forth : script ≠ "..")
    (scriptPath : Path.ofString script = ⟨0, [script]⟩)
    (documentPath : Path.ofString document = ⟨0, [script ++ ".ast.json"]⟩)
    (numbered : Source.Numbered (unitOf source))
    : Setting ⟨[(⟨.working 0, [script]⟩, .file (Text.Utf8.encode source))]⟩ script document
        source := by
  obtain ⟨forth', -, longer⟩ := suffix_ne script
  refine ⟨scriptNamed, documentNamed, ?_, ?_, ?_, numbered⟩
  · rw [scriptPath, documentPath]
    rfl
  · exact Files.find_single forth scriptPath _
  · have other : (⟨.working 0, [script ++ ".ast.json"]⟩ : Place) ≠ ⟨.working 0, [script]⟩ := by
      simp [longer]
    rw [documentPath, Files.find?, Files.placeOf_name _ forth']
    simp [Files.entryAt, List.lookup_cons, beq_false_of_ne other, Place.isWithin, longer]

/-- The document has a place of its own, which is neither that of the script nor that of the trace.
-/
theorem Setting.place (setting : Setting files script document source)
    : ∃ place, files.placeOf (.ofString document) = some place
      ∧ files.entryAt place ≠ some .folder
      ∧ place ≠ tracePlace
      ∧ files.placeOf (.ofString script) ≠ some place := by
  obtain ⟨outer, last, led, suffixed⟩ := Files.placeOf_addSuffix setting.found
  obtain ⟨forth, other, longer⟩ := suffix_ne last
  have documentLed := suffixed ".ast.json" forth
  rw [← setting.beside] at documentLed
  refine ⟨_, documentLed, ?_, ?_, ?_⟩
  · intro folder
    refine setting.free ?_
    rw [Files.find?, documentLed]
    exact folder
  · intro same
    have steps := congrArg (·.steps.getLast?) same
    simp [tracePlace] at steps
    exact other steps
  · rw [led]
    intro same
    have steps := congrArg (·.steps.getLast?) (Option.some.inj same)
    simp at steps
    exact longer steps.symm

/-- A run begins by emptying the trace, which leaves the script as it is unless that is the trace.
-/
theorem Setting.run_script (setting : Setting files script document source) (input : String)
    (traceFree : 0 < level → files.find? tracePath ≠ some .folder)
    (apart : 0 < level → files.placeOf (.ofString script) ≠ files.placeOf tracePath)
    : ∃ begun, Begun files level begun
      ∧ run files input level [script]
        = ofSession begun ((Session.fresh level).runSource (unitOf source)).1
            ((Session.fresh level).runSource (unitOf source)).2 := by
  obtain ⟨begun, spec⟩ := exists_begun files level traceFree
  have found : begun.find? (.ofString script) = some (.file (Text.Utf8.encode source)) := by
    rw [spec.elsewhere, setting.found]
    intro positive
    rw [← placeOf_tracePath files]
    exact apart positive
  refine ⟨begun, spec, ?_⟩
  rw [run, call_script files input level setting.scriptNamed, spec.runs,
    runScript_of_find level found]

theorem Setting.emission_of_error (setting : Setting files script document source)
    (input : String) {failure : Source.Failure}
    (malformed : (Source.ofString (unitOf source)).program = .error failure)
    : emission files input script
      = .failure files (Diagnostic.textOf (Source.ofString (unitOf source)).diagnostics) 65 := by
  rw [emission, call_emit files input setting.scriptNamed,
    emit_of_error setting.found malformed]

/-- What is left when the document of a program was written. -/
structure Emitted (files : Files) (input script document : String) (statements : List Stmt)
    : Prop where
  ending : (emission files input script).ending = .status 0
  stored : (emission files input script).files.find? (.ofString document)
    = some (.file (Text.Utf8.encode (documentText statements)))
  apart : (emission files input script).files.placeOf (.ofString document) ≠ some tracePlace
  trace : (emission files input script).files.find? tracePath = files.find? tracePath

/-- The document of a program is written, and the trace stays as it was. -/
theorem Setting.emitted (setting : Setting files script document source) (input : String)
    (program : (Source.ofString (unitOf source)).program = .ok statements)
    : Emitted files input script document statements := by
  obtain ⟨place, led, free, apart, other⟩ := setting.place
  obtain ⟨after, write, written⟩ := Files.exists_written led free (documentText statements)
  have emitted : emission files input script
      = ⟨((Path.ofString script).addSuffix ".ast.json").text ++ "\n", "", after, .status 0⟩ := by
    rw [setting.beside] at write
    rw [emission, call_emit files input setting.scriptNamed, emit_of_ok setting.found program write]
  constructor
  · rw [emitted]
  · rw [emitted]
    exact written.find_self led
  · rw [emitted, written.placeOf, led]
    exact fun same => apart (Option.some.inj same)
  · rw [emitted]
    apply written.find_other
    rw [placeOf_tracePath]
    exact fun same => apart (Option.some.inj same).symm

/-- Running the document of a program runs that program. -/
theorem Setting.run_document (setting : Setting files script document source) (input : String)
    (program : (Source.ofString (unitOf source)).program = .ok statements)
    (traceFree : 0 < level → files.find? tracePath ≠ some .folder)
    : ∃ begun, Begun (emission files input script).files level begun
      ∧ run (emission files input script).files input level ["--ast", document]
        = ofSession begun ((Session.fresh level).interpret statements).1
            ((Session.fresh level).interpret statements).2 := by
  have emitted := setting.emitted input program
  obtain ⟨begun, spec⟩ := exists_begun (emission files input script).files level
    (by rwa [emitted.trace])
  have found : begun.find? (.ofString document)
      = some (.file (Text.Utf8.encode (documentText statements))) := by
    rw [spec.elsewhere _ fun _ => emitted.apart, emitted.stored]
  refine ⟨begun, spec, ?_⟩
  rw [run, call_document _ input level setting.documentNamed, spec.runs,
    execute_of_find level (Source.numbered_of_program setting.numbered program) found]

/-- The same statements show the same and leave the same trace, whatever files they begin with. -/
theorem alike_ofSession {first second begun begun' : Files} {session : Session}
    (spec : Begun first level begun) (spec' : Begun second level begun')
    (same : first.find? tracePath = second.find? tracePath) (h : session.level = level)
    (transcript : Transcript)
    : Alike (ofSession begun session transcript) (ofSession begun' session transcript) where
  output := rfl
  diagnostics := rfl
  ending := rfl
  trace := by
    simp only [ofSession, h]
    rw [spec.trace, spec'.trace, same]

/-- The document of a script takes its place at every level of detail, unless the trace takes the
place of the script itself.
-/
theorem emission_preserves (input : String)
    (setting : Setting files script document source)
    (traceFree : 0 < level → files.find? tracePath ≠ some .folder)
    (apart : 0 < level → files.placeOf (.ofString script) ≠ files.placeOf tracePath)
    : Preserved files input script document level := by
  obtain ⟨begun, spec, ran⟩ := setting.run_script input traceFree apart
  cases program : (Source.ofString (unitOf source)).program with
  | error failure =>
      have emitted := setting.emission_of_error input program
      rw [Session.runSource_of_error _ program] at ran
      have status : (run files input level [script]).ending = .status 65 := by
        rw [ran, ofSession, Session.reportAll_of_error _ program]
        rfl
      refine .inl ⟨?_, ?_, status, ?_⟩
      · rw [emitted]
        rfl
      · rw [emitted]
        rfl
      · rw [emitted, ran]
        rfl
  | ok statements =>
      rw [Session.runSource_of_ok _ program] at ran
      have emitted := setting.emitted input program
      obtain ⟨begun', spec', executed⟩ := setting.run_document input program traceFree
      refine .inr ⟨emitted.ending, ⟨_, emitted.stored⟩, ?_⟩
      rw [executed, ran]
      exact alike_ofSession spec' spec emitted.trace (Session.interpret_level _ _) _

/-- A script with numbers, at the second level of detail. -/
theorem emission_preserves_difference
    : let place : Place := ⟨.working 0, ["difference.lox"]⟩
      let files : Files := ⟨[(place, .file (Text.Utf8.encode "print 3 - 1.5;"))]⟩
      Setting files "difference.lox" "difference.lox.ast.json" "print 3 - 1.5;"
      ∧ Preserved files "" "difference.lox" "difference.lox.ast.json" 2 := by
  intro place files
  have script : Path.ofString "difference.lox" = ⟨0, ["difference.lox"]⟩ := by cbv
  have setting
      : Setting files "difference.lox" "difference.lox.ast.json" "print 3 - 1.5;" :=
    setting_alone _ (Word.names_of_plain (by simp) (by decide))
      (Word.names_of_plain (by simp) (by decide)) (by decide) script (by cbv) (by cbv)
  refine ⟨setting, emission_preserves "" setting (fun _ => ?_) (fun _ => ?_)⟩
  · rw [Files.find?, placeOf_tracePath]
    intro folder
    cases folder
  · rw [script, placeOf_tracePath, files.placeOf_name (by decide)]
    decide

/-- A script that is itself the trace is lost before it is read, while its document is not. -/
theorem emission_loses_script_at_trace
    : let files : Files := ⟨[(tracePlace, .file (Text.Utf8.encode "print nil;"))]⟩
      Setting files "debug.txt" "debug.txt.ast.json" "print nil;"
      ∧ files.find? tracePath ≠ some .folder
      ∧ ¬Preserved files "" "debug.txt" "debug.txt.ast.json" 1 := by
  intro files
  have script : Path.ofString "debug.txt" = ⟨0, ["debug.txt"]⟩ := by cbv
  have setting : Setting files "debug.txt" "debug.txt.ast.json" "print nil;" :=
    setting_alone _ (Word.names_of_plain (by simp) (by decide))
      (Word.names_of_plain (by simp) (by decide)) (by decide) script (by cbv) (by cbv)
  have traceFree : files.find? tracePath ≠ some .folder := by
    rw [tracePath, setting.found]
    intro folder
    cases folder
  have program : (Source.ofString (unitOf "print nil;")).program
      = .ok [.print (.literal .nil)] := by cbv
  have lost : (run files "" 1 ["debug.txt"]).ending = .status 0
      ∧ (run files "" 1 ["debug.txt"]).output = "" := by
    constructor <;> cbv
  refine ⟨setting, traceFree, ?_⟩
  rintro (⟨-, -, refused, -⟩ | ⟨-, -, alike⟩)
  · rw [lost.1] at refused
    cases refused
  · obtain ⟨begun, -, executed⟩ := setting.run_document "" program fun _ => traceFree
    have output := alike.output
    have shown : (run (emission files "" "debug.txt").files "" 1
        ["--ast", "debug.txt.ast.json"]).output = "nil\n" := by
      rw [executed]
      rfl
    rw [lost.2, shown] at output
    revert output
    decide

end CommandLine

end Lox
