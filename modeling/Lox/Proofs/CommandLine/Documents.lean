import Lox.Proofs.CommandLine.Emission
import Lox.Proofs.Document.Lengths
import Lox.Proofs.Document.Range
import Lox.Proofs.Session.Levels

/-! Calls with documents, usable or not.
A document is run, or it is refused with one message and nothing runs. Only a number that is out of
range is answered in neither way, and a run is broken off where it prints a surrogate.
-/

namespace Lox.CommandLine

/-- The program that the bytes of a document hold. -/
def programIn (bytes : List UInt8) : Except DocumentError (List Stmt) :=
  match Text.Utf8.decode bytes with
  | .error error => .error (.undecodable error)
  | .ok text => programOf (Text.unifyNewlines text)

/-- What a call shows for a document and how it ends, by the program that the document holds. -/
inductive Handled (files : Files) (path : Path)
    : Except DocumentError (List Stmt) → Outcome → Prop
  | ended {statements : List Stmt}
    (all : (executeAll 0 statements).stop = none)
    : Handled files path (.ok statements)
        ⟨(Event.outputOf (executeAll 0 statements).events).string, "", files, .status 0⟩
  | failed {before after : List Stmt} {failing : Stmt} {error : RuntimeError}
    (earlier : (executeAll 0 before).stop = none)
    (fails : (failing.execute 0).stop = some (.failed error))
    : Handled files path (.ok (before ++ failing :: after))
        ⟨(Event.outputOf (executeAll 0 before).events).string,
          (Diagnostic.runtime error.token error.message).text.spelled, files, .status 70⟩
  | refused (error : DocumentError)
    : Handled files path (.error error)
        (.failure files
          ("Error: invalid AST file " ++ path.text ++ ": " ++ error.message ++ "\n") 65)

/-- Loading the document comes upon a number that is out of range. -/
def OutOfRange (bytes : List UInt8) (error : Document.LoadError) : Prop :=
  programIn bytes = .error (.load error) ∧ error.isOutOfRange = true

/-- Running the program of the document comes upon a line with a surrogate. -/
def Unwritable (bytes : List UInt8) (before : List Event) (error : Text.EncodeError) : Prop :=
  ∃ statements line after,
    programIn bytes = .ok statements
    ∧ (executeAll 0 statements).events = before ++ .line line :: after
    ∧ (∀ event ∈ before, event.text.isEncodable = true)
    ∧ line.encodeError? = some error

variable {files : Files} {path : Path} {word : String} {bytes : List UInt8}

theorem Handled.status {program : Except DocumentError (List Stmt)} {outcome : Outcome}
    (handled : Handled files path program outcome)
    : ∃ code, outcome.ending = .status code := by
  cases handled <;> exact ⟨_, rfl⟩

-----------------------------------------------------------------------------------------
-- Loading
-----------------------------------------------------------------------------------------

theorem exists_document {error : Document.LoadError}
    (h : programIn bytes = .error (.load error))
    : ∃ text document,
        Text.Utf8.decode bytes = .ok text
        ∧ Json.read (Text.unifyNewlines text) = .ok document
        ∧ Document.loadProgram document = .error error := by
  unfold programIn at h
  split at h
  case h_1 => cases h
  case h_2 text decoded =>
    unfold programOf at h
    split at h
    case h_1 => cases h
    case h_2 document read =>
      refine ⟨text, document, decoded, read, ?_⟩
      cases loaded : Document.loadProgram document with
      | ok =>
          rw [loaded] at h
          cases h
      | error =>
          rw [loaded] at h
          cases h
          rfl

theorem programOf_eq_ok {text : List Char} {statements : List Stmt}
    (h : programOf text = .ok statements)
    : ∃ document,
        Json.read text = .ok document ∧ Document.loadProgram document = .ok statements := by
  unfold programOf at h
  split at h
  case h_1 => cases h
  case h_2 document read =>
    refine ⟨document, read, ?_⟩
    cases loaded : Document.loadProgram document with
    | error =>
        rw [loaded] at h
        cases h
    | ok =>
        rw [loaded] at h
        cases h
        rfl

/-- A program that is loaded has values for literals, and its operators are not too long. -/
theorem satisfies_of_programIn {statements : List Stmt} (h : programIn bytes = .ok statements)
    : ∀ statement ∈ statements, statement.Satisfies (·.isValue = true) (·.isShort = true) := by
  unfold programIn at h
  split at h
  case h_1 => cases h
  case h_2 =>
    obtain ⟨document, read, loaded⟩ := programOf_eq_ok h
    exact Document.isShort_of_loadProgram read loaded

/-- Where a document was written it is the one that is loaded. -/
theorem programIn_write {document : Datum} (writable : document.Writable)
    : programIn (Text.Utf8.encode (String.ofList (Json.write 0 document)))
      = (Document.loadProgram document).mapError .load := by
  rw [programIn, Text.Utf8.decode_encode]
  simp only [String.toList_ofList]
  rw [Text.unifyNewlines_of_notMem (Json.carriageReturn_notMem_write 0 document), programOf,
    Json.read_write writable]

-----------------------------------------------------------------------------------------
-- Documents with one literal
-----------------------------------------------------------------------------------------

/-- The document of a program that prints a literal. -/
def printing (literal : Datum) : Datum :=
  let expr := NodeType.literal.node [("value", literal)]
  programDatum [NodeType.printStatement.node [("expr", expr)]]

/-- The file with the document, alone in the working folder. -/
def alone (name : String) (document : Datum) : Files :=
  ⟨[(⟨.working 0, [name]⟩, .file (Text.Utf8.encode (String.ofList (Json.write 0 document))))]⟩

theorem loadProgram_printing {literal : Datum} {error : Document.LoadError}
    (unusable : Document.loadLiteral literal = .error error)
    : Document.loadProgram (printing literal) = .error error := by
  have expr : Document.load (NodeType.literal.node [("value", literal)]) = .error error := by
    rw [NodeType.node, Document.load, Document.loadType_node .literal, ok_bind]
    change (Document.loadLiteral literal >>= _) = _
    rw [unusable]
    rfl
  have statement
      : Document.load (NodeType.printStatement.node
          [("expr", NodeType.literal.node [("value", literal)])])
        = .error error := by
    rw [NodeType.node, Document.load, Document.loadType_node .printStatement, ok_bind]
    refine (Document.part_bind rfl _).trans ?_
    rw [expr]
    rfl
  have program : Document.isProgram (printing literal) = true := by
    simp only [printing, programDatum, NodeType.node, Document.isProgram,
      Document.loadType_node .program, decide_true]
  rw [Document.loadProgram, if_pos program, printing, programDatum, NodeType.node, Document.load,
    Document.loadType_node .program, ok_bind]
  refine (congrArg (· >>= _) (Document.part_bind rfl _)).trans ?_
  simp only [Document.loadStatements, statement]
  rfl

theorem loadLiteral_of_isInf {n : Int} (infinite : (Float.ofInt n).isInf = true)
    : Document.loadLiteral (.integer n) = .error .numberTooLarge := by
  have far : Number.ofInteger? n = none := if_pos infinite
  simp only [Document.loadLiteral, Document.withNumber, far]
  rfl

theorem writable_printing {literal : Datum} (writable : literal.Writable)
    : (printing literal).Writable := by
  have name := Text.isEncodable_ofString
  have expr : (NodeType.literal.node [("value", literal)]).Writable :=
    NodeType.literal.writable_node (by simp) ⟨name _, writable, trivial⟩
  have statement
      : (NodeType.printStatement.node
          [("expr", NodeType.literal.node [("value", literal)])]).Writable :=
    NodeType.printStatement.writable_node (by simp) ⟨name _, expr, trivial⟩
  exact writable_programDatum (List.forall_mem_singleton.mpr statement)

/-- A document with an unusable literal holds the error of that literal. -/
theorem programIn_printing {literal : Datum} {error : Document.LoadError}
    (writable : literal.Writable) (unusable : Document.loadLiteral literal = .error error)
    : programIn (Text.Utf8.encode (String.ofList (Json.write 0 (printing literal))))
      = .error (.load error) := by
  rw [programIn_write (writable_printing writable), loadProgram_printing unusable]
  rfl

-----------------------------------------------------------------------------------------
-- Runs without notes
-----------------------------------------------------------------------------------------

theorem events_of_interpret_zero (statements : List Stmt)
    : ((Session.fresh 0).interpret statements).2.events = (executeAll 0 statements).events := by
  have none (run : Run) : run.lastNotes 0 = [] := by
    unfold Run.lastNotes Note.takenAt
    split <;> rfl
  rw [Session.events_of_interpret]
  change (interpret 0 statements).events = _
  rw [interpret_events, none, List.map_nil, List.append_nil]

theorem isNote_of_executeAll_zero {statements : List Stmt} {event : Event}
    (member : event ∈ (executeAll 0 statements).events)
    : event.isNote = false := by
  have plain := ((Session.fresh 0).interpret_nested statements).plain 0
  change ((Session.fresh 0).interpret statements).2.events.filter (!·.isNote)
    = ((Session.fresh 0).interpret statements).2.events at plain
  rw [events_of_interpret_zero, List.filter_eq_self] at plain
  simpa using plain event member

/-- Without notes only a surrogate keeps an event from being written. -/
theorem writeError_eq_none_iff {event : Event} (line : event.isNote = false)
    : event.writeError? = none ↔ event.text.isEncodable = true := by
  cases event with
  | prompt => exact iff_of_true rfl rfl
  | line text => simp [Event.writeError?, Event.text, Text.encodeError_eq_none_iff]
  | note => cases line

theorem deliver_error_zero {statements : List Stmt}
    (suits : ∀ statement ∈ statements,
      statement.Satisfies (·.isValue = true) (·.isShort = true))
    : ((Session.fresh 0).deliver statements).error
      = (executeAll 0 statements).events.findSome? Event.writeError? := by
  have short : ((Session.fresh 0).interpret statements).1.runtimeError.all (·.isShort) = true := by
    rw [Option.all_eq_true]
    intro error failed
    have token := token_of_failed closed_isValue suits (Session.stop_of_runtimeError failed)
    exact RuntimeError.isShort_of_token token
  rw [Session.deliver_error, Transcript.writeError?, events_of_interpret_zero, short]
  exact Option.or_none

/-- A run is broken off at the first line that has a surrogate. -/
theorem unwritable_of_error {statements : List Stmt} {error : WriteError}
    (program : programIn bytes = .ok statements)
    (failed : ((Session.fresh 0).deliver statements).error = some error)
    : ∃ before found, Unwritable bytes before found := by
  rw [deliver_error_zero (satisfies_of_programIn program), List.findSome?_eq_some_iff] at failed
  obtain ⟨before, event, after, events, found, earlier⟩ := failed
  have plain : ∀ shown ∈ before ++ event :: after, shown.isNote = false := by
    rw [← events]
    exact fun _ => isNote_of_executeAll_zero
  cases event with
  | prompt => cases found
  | note taken => cases plain (.note taken) (by simp)
  | line text =>
      obtain ⟨surrogates, found, -⟩ := Option.map_eq_some_iff.mp found
      refine ⟨before, surrogates, statements, text, after, program, events, ?_, found⟩
      intro event member
      exact (writeError_eq_none_iff (plain event (by simp [member]))).mp (earlier event member)

theorem deliver_of_unwritable {statements : List Stmt} {before : List Event}
    {error : Text.EncodeError} (program : programIn bytes = .ok statements)
    (unwritable : Unwritable bytes before error)
    : (Session.fresh 0).deliver statements
      = ⟨Session.fresh 0, ⟨before, []⟩, some (.unencodable error)⟩ := by
  obtain ⟨_, line, after, same, events, encodable, found⟩ := unwritable
  obtain rfl := Except.ok.inj (program.symm.trans same)
  have plain : ∀ event ∈ before ++ .line line :: after, event.isNote = false := by
    rw [← events]
    exact fun _ => isNote_of_executeAll_zero
  have earlier : ∀ event ∈ before, event.writeError? = none := fun event member =>
    (writeError_eq_none_iff (plain event (by simp [member]))).mpr (encodable event member)
  have here : (Event.line line).writeError? = some (.unencodable error) :=
    congrArg (Option.map WriteError.unencodable) found
  have failed
      : ((Session.fresh 0).deliver statements).error = some (.unencodable error) := by
    rw [deliver_error_zero (satisfies_of_programIn program), events, List.findSome?_append,
      List.findSome?_eq_none_iff.mpr earlier, List.findSome?_cons, here]
    rfl
  have written : Event.written (before ++ .line line :: after) = before := by
    rw [Event.written, List.takeWhile_append_of_pos, List.takeWhile_cons_of_neg, List.append_nil]
    · simp [here]
    · simpa using earlier
  rw [Session.deliver_of_error_eq_some failed, events_of_interpret_zero, events, written]
  rfl

/-- Only a literal with a surrogate leads to a line with one. -/
theorem literal_of_unwritable {before : List Event} {error : Text.EncodeError}
    (unwritable : Unwritable bytes before error)
    : ∃ statements,
        programIn bytes = .ok statements
        ∧ ∃ statement ∈ statements, ∃ value,
            .literal value ∈ statement.expr.parts ∧ value.isPlain = false := by
  obtain ⟨statements, line, after, program, events, -, found⟩ := unwritable
  refine ⟨statements, program, ?_⟩
  by_contra plain
  have suits : ∀ statement ∈ statements,
      statement.Satisfies (·.isPlain = true) fun _ => True := by
    intro statement member
    refine Stmt.satisfies_iff.mpr ⟨fun value inside => ?_, fun _ _ => trivial⟩
    by_contra half
    exact plain ⟨statement, member, value, inside, Bool.eq_false_iff.mpr half⟩
  have shown : Event.line line ∈ (executeAll 0 statements).events := by simp [events]
  obtain ⟨value, fits, display⟩ := executeAll_satisfies closed_isPlain suits shown
  have encodable := Text.encodeError_eq_none_iff.mpr (Datum.isEncodable_of_display fits display)
  rw [encodable] at found
  cases found

-----------------------------------------------------------------------------------------
-- Calls
-----------------------------------------------------------------------------------------

theorem call_of_error (input : String) (names : Word.Names word)
    (found : files.find? (.ofString word) = some (.file bytes)) {error : DocumentError}
    (h : programIn bytes = .error error)
    : call files input ["--ast", word] = invalidDocument files (.ofString word) error := by
  refine (call_document files input 0 names).trans ?_
  change execute files 0 (.ofString word) = _
  unfold programIn at h
  simp only [execute, readText, found]
  split at h
  case h_1 failed =>
    cases h
    simp only [failed]
  case h_2 text decoded => simp only [decoded, h]

theorem call_of_ok (input : String) (names : Word.Names word)
    (found : files.find? (.ofString word) = some (.file bytes)) {statements : List Stmt}
    (h : programIn bytes = .ok statements)
    : call files input ["--ast", word]
      = ofDelivery files ((Session.fresh 0).deliver statements) := by
  refine (call_document files input 0 names).trans ?_
  change execute files 0 (.ofString word) = _
  unfold programIn at h
  simp only [execute, readText, found]
  split at h
  case h_1 => cases h
  case h_2 text decoded => simp only [decoded, h]

theorem handled_ofSession (path : Path) {statements : List Stmt}
    (valued : ∀ statement ∈ statements, statement.expr.Valued)
    : Handled files path (.ok statements)
        (ofSession files ((Session.fresh 0).interpret statements).1
          ((Session.fresh 0).interpret statements).2) := by
  have execution := (Session.fresh 0).execution_of_valued valued
  generalize (Session.fresh 0).interpret statements = shown at execution ⊢
  cases execution with
  | @failed _ _ _ error notes earlier fails =>
      have said
          : Diagnostic.textOf [.runtime error.token error.message]
            = (Diagnostic.runtime error.token error.message).text := by simp [Diagnostic.textOf]
      simp only [ofSession, Event.outputOf_append_notes, said]
      exact .failed earlier fails
  | ended all => exact .ended all

theorem invalidDocument_of_outOfRange {error : Document.LoadError}
    (outOfRange : error.isOutOfRange = true)
    : invalidDocument files path (.load error) = .stopped files (.outOfRange error) := by
  simp only [invalidDocument, outOfRange, if_true]

/-- Every other error is told. -/
theorem handled_invalidDocument {error : DocumentError}
    (told : ∀ fault, error = .load fault → fault.isOutOfRange = false)
    : Handled files path (.error error) (invalidDocument files path error) := by
  cases error with
  | undecodable | json => exact .refused _
  | load fault =>
      simp only [invalidDocument, told fault rfl, Bool.false_eq_true, if_false]
      exact .refused _

/-- What a call does with a document whose run is broken off. -/
theorem call_of_unwritable (input : String) (names : Word.Names word)
    (found : files.find? (.ofString word) = some (.file bytes)) {before : List Event}
    {error : Text.EncodeError} (unwritable : Unwritable bytes before error)
    : call files input ["--ast", word]
      = ⟨(Event.outputOf before).string, "", files, .unwritable (.unencodable error)⟩ := by
  obtain ⟨statements, -, -, program, -⟩ := id unwritable
  rw [call_of_ok input names found program, deliver_of_unwritable program unwritable]
  rfl

theorem handled_of_program (input : String) (names : Word.Names word)
    (found : files.find? (.ofString word) = some (.file bytes)) {statements : List Stmt}
    (program : programIn bytes = .ok statements)
    : Handled files (.ofString word) (.ok statements) (call files input ["--ast", word])
      ↔ ¬∃ before error, Unwritable bytes before error := by
  constructor
  · rintro handled ⟨before, error, unwritable⟩
    rw [call_of_unwritable input names found unwritable] at handled
    obtain ⟨code, status⟩ := handled.status
    cases status
  · intro written
    have whole : ((Session.fresh 0).deliver statements).error = none := by
      by_contra failed
      obtain ⟨error, failed⟩ := Option.ne_none_iff_exists'.mp failed
      exact written (unwritable_of_error program failed)
    rw [call_of_ok input names found program, Session.deliver_of_error_eq_none whole]
    exact handled_ofSession _ fun statement member =>
      (satisfies_of_programIn program statement member).expr.valued closed_isValue

theorem handled_iff (input : String) (names : Word.Names word)
    (found : files.find? (.ofString word) = some (.file bytes))
    : Handled files (.ofString word) (programIn bytes) (call files input ["--ast", word])
      ↔ (¬∃ error, OutOfRange bytes error) ∧ ¬∃ before error, Unwritable bytes before error := by
  cases program : programIn bytes with
  | ok statements =>
      have inside : ¬∃ error, OutOfRange bytes error := by
        rintro ⟨error, failed, -⟩
        rw [program] at failed
        cases failed
      rw [handled_of_program input names found program, and_iff_right inside]
  | error error =>
      have written : ¬∃ before error, Unwritable bytes before error := by
        rintro ⟨before, error, statements, -, -, failed, -⟩
        rw [program] at failed
        cases failed
      rw [call_of_error input names found program, and_iff_left written]
      constructor
      · rintro handled ⟨fault, failed, outOfRange⟩
        rw [program] at failed
        cases failed
        rw [invalidDocument_of_outOfRange outOfRange] at handled
        obtain ⟨code, status⟩ := handled.status
        cases status
      · intro inside
        refine handled_invalidDocument fun fault same => ?_
        subst same
        rw [← Bool.not_eq_true]
        exact fun outOfRange => inside ⟨fault, program, outOfRange⟩

/-- A call with a document in a file either runs the document or refuses it with one message and
runs nothing, unless loading it comes upon a number that is out of range or running it upon a line
that has a surrogate: then the call has neither a status nor a message. The first takes a document
with such a number in it, so that a text that is no document is always refused. The second takes a
program with a surrogate in a literal, of which all is printed that comes before.
-/
theorem documents_run_or_are_refused (input : String) (names : Word.Names word)
    (found : files.find? (.ofString word) = some (.file bytes))
    : (Handled files (.ofString word) (programIn bytes) (call files input ["--ast", word])
        ↔ (¬∃ error, OutOfRange bytes error) ∧ ¬∃ before error, Unwritable bytes before error)
      ∧ (∀ error, OutOfRange bytes error →
          call files input ["--ast", word] = .stopped files (.outOfRange error)
          ∧ ∃ text document,
              Text.Utf8.decode bytes = .ok text
              ∧ Json.read (Text.unifyNewlines text) = .ok document
              ∧ ¬document.InRange)
      ∧ ∀ before error, Unwritable bytes before error →
          call files input ["--ast", word]
            = ⟨(Event.outputOf before).string, "", files, .unwritable (.unencodable error)⟩
          ∧ ∃ statements,
              programIn bytes = .ok statements
              ∧ ∃ statement ∈ statements, ∃ value,
                  .literal value ∈ statement.expr.parts ∧ value.isPlain = false := by
  refine ⟨handled_iff input names found, fun error outOfRange => ⟨?_, ?_⟩, ?_⟩
  · rw [call_of_error input names found outOfRange.1]
    exact invalidDocument_of_outOfRange outOfRange.2
  · obtain ⟨text, document, decoded, read, loaded⟩ := exists_document outOfRange.1
    refine ⟨text, document, decoded, read, fun inRange => ?_⟩
    have shape := Document.failsByShape_loadProgram inRange error loaded
    rw [outOfRange.2] at shape
    cases shape
  · exact fun before error unwritable =>
      ⟨call_of_unwritable input names found unwritable, literal_of_unwritable unwritable⟩

/-- A list in place of a literal is refused. -/
theorem documents_run_or_are_refused_at_list
    : let name := "list.json"
      let document := printing (.list [.integer 1, .integer 2])
      let files := alone name document
      let bytes := Text.Utf8.encode (String.ofList (Json.write 0 document))
      Word.Names name
      ∧ files.find? (.ofString name) = some (.file bytes)
      ∧ Handled files (.ofString name) (programIn bytes) (call files "" ["--ast", name])
      ∧ (call files "" ["--ast", name]).ending = .status 65 := by
  intro name document files bytes
  have names : Word.Names name := Word.names_of_plain (by simp [name]) (by decide)
  have found : files.find? (.ofString name) = some (.file bytes) :=
    Files.find_single (by decide) (by cbv) _
  have writable : (Datum.list [.integer 1, .integer 2]).Writable := ⟨rfl, rfl, trivial⟩
  have program : programIn bytes = .error (.load (.literalNotValue (.list _))) :=
    programIn_printing writable rfl
  have handled
      : Handled files (.ofString name) (programIn bytes) (call files "" ["--ast", name]) := by
    refine (documents_run_or_are_refused "" names found).1.mpr ⟨?_, ?_⟩
    · rintro ⟨error, failed, outOfRange⟩
      rw [program] at failed
      cases failed
      cases outOfRange
    · rintro ⟨before, error, statements, line, after, loaded, -⟩
      rw [program] at loaded
      cases loaded
  refine ⟨names, found, handled, ?_⟩
  rw [program] at handled
  generalize call files "" ["--ast", name] = outcome at handled ⊢
  cases handled
  rfl

/-- A literal that is too large for a double is neither run nor refused. -/
theorem large_literal_is_not_refused
    : let name := "large.json"
      let document := printing (.integer (10 ^ 400 : Nat))
      let files := alone name document
      let bytes := Text.Utf8.encode (String.ofList (Json.write 0 document))
      Word.Names name
      ∧ files.find? (.ofString name) = some (.file bytes)
      ∧ call files "" ["--ast", name] = .stopped files (.outOfRange .numberTooLarge)
      ∧ ¬Handled files (.ofString name) (programIn bytes) (call files "" ["--ast", name]) := by
  intro name document files bytes
  have names : Word.Names name := Word.names_of_plain (by simp [name]) (by decide)
  have found : files.find? (.ofString name) = some (.file bytes) :=
    Files.find_single (by decide) (by cbv) _
  have infinite : (Float.ofInt (10 ^ 400 : Nat)).isInf = true := by decide +kernel
  have writable : (Datum.integer (10 ^ 400 : Nat)).Writable :=
    Text.isShort_pow 400 (by decide)
  have program : programIn bytes = .error (.load .numberTooLarge) :=
    programIn_printing writable (loadLiteral_of_isInf infinite)
  have stopped : call files "" ["--ast", name] = .stopped files (.outOfRange .numberTooLarge) := by
    rw [call_of_error "" names found program]
    exact invalidDocument_of_outOfRange rfl
  refine ⟨names, found, stopped, fun handled => ?_⟩
  rw [stopped] at handled
  obtain ⟨code, status⟩ := handled.status
  cases status

end Lox.CommandLine
