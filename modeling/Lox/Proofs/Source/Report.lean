import Lox.Proofs.Session.Unit
import Lox.Proofs.Source.Lines

/-! How errors are reported.
A scan and a parse hand each error to the reporter when they find it, and keep it in a list of their
own. Nothing is lost on the way: what the reporter was told is what the lists hold in the end, and
what is raised tells whether there was anything to report.
-/

namespace Lox

variable {Reporter : Type} (tell : Reporter → Diagnostic → Reporter)

-----------------------------------------------------------------------------------------
-- Scanning
-----------------------------------------------------------------------------------------

/-- A scan under way, with the reporter that its errors are handed to. -/
structure Scanning (Reporter : Type) where
  line : Nat
  tokens : List Token
  errors : List LexicalError
  reporter : Reporter

namespace Scanning

/-- A scan at the beginning of a text. -/
def start (reporter : Reporter) : Scanning Reporter :=
  ⟨1, [], [], reporter⟩

/-- The scan with one more error. -/
def error (scanning : Scanning Reporter) (error : LexicalError) : Scanning Reporter :=
  { scanning with
    errors := scanning.errors ++ [error]
    reporter := tell scanning.reporter (.ofLexical error) }

/-- The scan behind one more piece. -/
def step (scanning : Scanning Reporter) (piece : Piece) : Scanning Reporter :=
  let after := { scanning with line := scanning.line + Scan.lineFeeds piece.text }
  match piece with
  | .token kind text =>
      { after with tokens := scanning.tokens ++ [Scan.tokenOf kind text scanning.line] }
  | .blank _ | .comment _ => after
  | .unclosed _ => after.error tell ⟨after.line, .unterminatedString⟩
  | .stray _ => after.error tell ⟨scanning.line, .unexpectedCharacter⟩

/-- What a scan has found in the end. -/
def finish (scanning : Scanning Reporter) : Scan :=
  ⟨scanning.tokens ++ [Scan.endToken scanning.line], scanning.errors⟩

/-- The scan goes on as the scan of the pieces that are left, and the reporter is told their errors.
By induction on the pieces.
-/
theorem foldl_step (scanning : Scanning Reporter) (pieces : List Piece)
    : let rest := Scan.ofPieces scanning.line pieces
      let last := pieces.foldl (step tell) scanning
      last.finish = ⟨scanning.tokens ++ rest.tokens, scanning.errors ++ rest.errors⟩
      ∧ last.reporter = (rest.errors.map .ofLexical).foldl tell scanning.reporter := by
  induction pieces generalizing scanning with
  | nil => simp [Scan.ofPieces, finish]
  | cons piece rest ih =>
      obtain ⟨found, told⟩ := ih (scanning.step tell piece)
      cases piece with
      | token | blank | comment | unclosed | stray =>
          constructor
          · simpa [Scan.ofPieces, Piece.text, step, error] using found
          · simpa [Scan.ofPieces, Piece.text, step, error] using told

/-- From its beginning, a scan ends as the scan of the text. -/
theorem foldl_start (text : String) (reporter : Reporter)
    : let last := (Lexicon.pieces text.toList).foldl (step tell) (start reporter)
      last.finish = Scan.ofSource text
      ∧ last.reporter = ((Scan.ofSource text).errors.map .ofLexical).foldl tell reporter :=
  foldl_step tell (start reporter) (Lexicon.pieces text.toList)

end Scanning

-----------------------------------------------------------------------------------------
-- Parsing
-----------------------------------------------------------------------------------------

/-- A parse under way, with the reporter that its errors are handed to. It has no position when it
is over.
-/
structure Parsing (Reporter : Type) where
  position : Option Position
  statements : List Stmt
  errors : List SyntaxError
  reporter : Reporter

namespace Parsing

/-- A parse at the beginning of a program. -/
def start (reporter : Reporter) : Parsing Reporter :=
  ⟨some .boundary, [], [], reporter⟩

/-- The parse with one more error. -/
def error (parsing : Parsing Reporter) (error : SyntaxError) : Parsing Reporter :=
  { parsing with
    errors := parsing.errors ++ [error]
    reporter := tell parsing.reporter (.ofSyntactic error) }

/-- The parse behind a token that makes a move. -/
def after (parsing : Parsing Reporter) (token : Token) : Position.Move → Parsing Reporter
  | .advance next => { parsing with position := some next }
  | .complete statement =>
      { parsing with
        position := some .boundary
        statements := parsing.statements ++ [statement] }
  | .misfit expected =>
      let next := if token.kind = .endOfInput then none else some (.afterSkipped token)
      { parsing.error tell ⟨token, expected⟩ with position := next }
  | .finish => { parsing with position := none }

/-- The parse behind one more token. -/
def step (parsing : Parsing Reporter) (token : Token) : Parsing Reporter :=
  match parsing.position with
  | none => parsing
  | some position => parsing.after tell token (position.move token)

/-- What a parse has read in the end. -/
def finish (parsing : Parsing Reporter) : Parse :=
  ⟨parsing.statements, parsing.errors, parsing.position.isNone⟩

variable {parsing : Parsing Reporter}

theorem step_of_position {position : Position} (here : parsing.position = some position)
    (token : Token)
    : parsing.step tell token = parsing.after tell token (position.move token) := by
  rw [step, here]

theorem foldl_step_of_ended (ended : parsing.position = none) (tokens : List Token)
    : tokens.foldl (step tell) parsing = parsing := by
  induction tokens with
  | nil => rfl
  | cons token rest ih =>
      have same : parsing.step tell token = parsing := by rw [step, ended]
      rw [List.foldl_cons, same, ih]

/-- The parse goes on as the parse of the tokens that are left, and the reporter is told their
errors. By induction on the tokens.
-/
theorem foldl_step {position : Position} (here : parsing.position = some position)
    (tokens : List Token)
    : let rest := Parse.continuing position tokens
      let last := tokens.foldl (step tell) parsing
      last.finish
        = ⟨parsing.statements ++ rest.statements, parsing.errors ++ rest.errors, rest.ended⟩
      ∧ last.reporter = (rest.errors.map .ofSyntactic).foldl tell parsing.reporter := by
  induction tokens generalizing parsing position with
  | nil => simp [Parse.continuing, finish, here]
  | cons token rest ih =>
      rw [List.foldl_cons, step_of_position tell here, Parse.continuing]
      cases position.move token with
      | advance next => exact ih rfl
      | complete statement =>
          have later := @ih (parsing.after tell token (.complete statement)) .boundary rfl
          simpa [after] using later
      | misfit expected =>
          by_cases ends : token.kind = .endOfInput
          · rw [foldl_step_of_ended tell (by simp [after, ends])]
            simp [after, error, finish, ends]
          · have later := @ih (parsing.after tell token (.misfit expected)) (.afterSkipped token)
              (by simp [after, ends])
            simpa [after, error, ends] using later
      | finish =>
          rw [foldl_step_of_ended tell rfl]
          simp [after, finish]

/-- From its beginning, a parse ends as the parse of the tokens. -/
theorem foldl_start (tokens : List Token) (reporter : Reporter)
    : let last := tokens.foldl (step tell) (start reporter)
      last.finish = Parse.ofTokens tokens
      ∧ last.reporter = ((Parse.ofTokens tokens).errors.map .ofSyntactic).foldl tell reporter :=
  foldl_step tell rfl tokens

end Parsing

-----------------------------------------------------------------------------------------
-- Reading
-----------------------------------------------------------------------------------------

namespace Source

/-- Reads a text as a program. Each error is handed to the reporter when it is found; what comes of
the text is decided in the end, from the errors that were kept.
-/
def reading (text : String) (reporter : Reporter) : Except Failure (List Stmt) × Reporter :=
  let scanning := (Lexicon.pieces text.toList).foldl (Scanning.step tell) (.start reporter)
  let scan := scanning.finish
  let parsing := scan.tokens.foldl (Parsing.step tell) (.start scanning.reporter)
  (Source.program ⟨scan, parsing.finish⟩, parsing.reporter)

/-- What comes of a text does not depend on the reporter, which is told everything about it. -/
theorem reading_eq (text : String) (reporter : Reporter)
    : reading tell text reporter
      = ((ofString text).program, (ofString text).diagnostics.foldl tell reporter) := by
  obtain ⟨scanned, first⟩ := Scanning.foldl_start tell text reporter
  obtain ⟨parsed, second⟩ := Parsing.foldl_start tell (Scan.ofSource text).tokens
    (((Scan.ofSource text).errors.map .ofLexical).foldl tell reporter)
  unfold reading
  simp only [scanned, first, parsed, second]
  rw [diagnostics, List.foldl_append]
  rfl

-----------------------------------------------------------------------------------------
-- What is raised
-----------------------------------------------------------------------------------------

variable {text : String}

theorem program_of_malformed (some : (ofString text).parse.errors ≠ [])
    : (ofString text).program = .error (.parse (.malformed (ofString text).parse.errors)) := by
  have read
      : (ofString text).parse.program = .error (.malformed (ofString text).parse.errors) := by
    simp [Parse.program, parse_ended, some]
  rw [program, read]

theorem parse_of_wellFormed (none : (ofString text).parse.errors = [])
    : (ofString text).parse.program = .ok (ofString text).parse.statements := by
  simp [Parse.program, parse_ended, none]

theorem program_of_unlexed (none : (ofString text).parse.errors = [])
    (some : (ofString text).scan.errors ≠ [])
    : (ofString text).program = .error (.scan (ofString text).scan.errors) := by
  simp [program, parse_of_wellFormed none, some]

theorem program_of_clean (none : (ofString text).parse.errors = [])
    (none' : (ofString text).scan.errors = [])
    : (ofString text).program = .ok (ofString text).parse.statements := by
  simp [program, parse_of_wellFormed none, none']

end Source

-----------------------------------------------------------------------------------------
-- What is written
-----------------------------------------------------------------------------------------

/-- What a reporter remembers: the marks of errors in a session, and everything that was written. -/
structure Journal where
  session : Session
  written : Text

namespace Journal

def report (journal : Journal) (diagnostic : Diagnostic) : Journal :=
  ⟨journal.session.report diagnostic, journal.written ++ diagnostic.text⟩

/-- Hands a diagnostic to the reporter, if there is one. -/
def hand (journal : Option Journal) (diagnostic : Diagnostic) : Option Journal :=
  journal.map (·.report diagnostic)

theorem foldl_hand_none (diagnostics : List Diagnostic) : diagnostics.foldl hand none = none := by
  induction diagnostics with
  | nil => rfl
  | cons diagnostic rest ih => exact ih

/-- The texts of diagnostics are written one behind the other. By induction on the diagnostics. -/
theorem foldl_hand_some (journal : Journal) (diagnostics : List Diagnostic)
    : diagnostics.foldl hand (some journal)
      = some ⟨journal.session.reportAll diagnostics,
          journal.written ++ Diagnostic.textOf diagnostics⟩ := by
  induction diagnostics generalizing journal with
  | nil => simp [Diagnostic.textOf, Session.reportAll]
  | cons diagnostic rest ih =>
      refine (ih (journal.report diagnostic)).trans ?_
      simp [report, Diagnostic.textOf, Session.reportAll, Text.append_assoc]

end Journal

namespace Diagnostic

/-- One diagnostic for each error, lexical ones first. -/
def ofErrors (lexical : List LexicalError) (syntactic : List SyntaxError) : List Diagnostic :=
  lexical.map .ofLexical ++ syntactic.map .ofSyntactic

/-- The diagnostic is written with the line in front. -/
def OnLine (line : Int) (diagnostic : Diagnostic) : Prop :=
  ∃ message, diagnostic.text = "[line " ++ toString line ++ "] Error" ++ message

theorem onLine_lexical (line : Int) (message : Text) : OnLine line (.lexical line message) := by
  have mark : "] Error: " = "] Error" ++ ": " := rfl
  refine ⟨": " ++ message ++ "\n", ?_⟩
  simp only [text, mark, Text.ofString_append, Text.append_assoc]

theorem onLine_syntactic (token : Token) (message : Text)
    : OnLine token.line (.syntactic token message) := by
  refine ⟨place token ++ ": " ++ message ++ "\n", ?_⟩
  simp only [text, Text.append_assoc]

end Diagnostic

namespace Source

open Journal

/-- What is raised and what is written about a text that has these errors. -/
structure Reported (text : String) (lexical : List LexicalError) (syntactic : List SyntaxError)
    : Prop where
  /-- Syntax errors hide lexical ones from what is raised. -/
  malformed
    : syntactic ≠ [] → (ofString text).program = .error (.parse (.malformed syntactic))
  unlexed
    : syntactic = [] → lexical ≠ [] → (ofString text).program = .error (.scan lexical)
  derived
    : syntactic = [] → lexical = [] →
        ∃ statements body last,
          (ofString text).program = .ok statements
          ∧ (Scan.ofSource text).tokens = body ++ [last]
          ∧ last.kind = .endOfInput
          ∧ (∀ token ∈ body, token.kind ≠ .endOfInput)
          ∧ Grammar.Program body statements
  /-- Nothing depends on whether there is a reporter. -/
  alone : reading hand text none = ((ofString text).program, none)
  written
    : ∀ journal : Journal, ∃ told : Journal,
        reading hand text (some journal) = ((ofString text).program, some told)
        ∧ told.written
          = journal.written ++ Diagnostic.textOf (Diagnostic.ofErrors lexical syntactic)
        ∧ (journal.session.hadError = false →
          (told.session.hadError = true ↔ ∃ failure, (ofString text).program = .error failure))
  lexicalLines : ∀ error ∈ lexical, (Diagnostic.ofLexical error).OnLine error.line
  syntacticLines : ∀ error ∈ syntactic, (Diagnostic.ofSyntactic error).OnLine error.token.line

/-- The mark of an error is left just when there is one. -/
theorem hadError_reportAll_iff (text : String) {session : Session}
    (clean : session.hadError = false)
    : (session.reportAll (ofString text).diagnostics).hadError = true
      ↔ ∃ failure, (ofString text).program = .error failure := by
  cases outcome : (ofString text).program with
  | error failure =>
      rw [session.reportAll_of_error outcome]
      exact iff_of_true rfl ⟨failure, rfl⟩
  | ok statements =>
      rw [diagnostics_of_ok outcome]
      refine iff_of_false ?_ ?_
      · rw [Session.reportAll, List.foldl_nil, clean]
        exact Bool.false_ne_true
      · rintro ⟨_, same⟩
        cases same

/-- Whatever a text is, its syntax errors are raised if there are any, and otherwise its lexical
errors. Without errors, its tokens derive the program. A reporter is told each error once, lexical
ones first, and is left with the mark of an error just when something is raised.
-/
theorem reading_reports_everything (text : String)
    : Reported text (Scan.ofSource text).errors
        (Parse.ofTokens (Scan.ofSource text).tokens).errors where
  malformed := program_of_malformed
  unlexed := program_of_unlexed
  derived none none' := by
    have outcome := program_of_clean none none'
    obtain ⟨-, body, last, tokens, ends, scanned, program⟩ := derived_of_program outcome
    exact ⟨_, body, last, outcome, tokens, ends, fun token member => (scanned token member).kind,
      program⟩
  alone := by rw [reading_eq, foldl_hand_none]
  written journal := by
    refine ⟨⟨journal.session.reportAll (ofString text).diagnostics,
      journal.written ++ Diagnostic.textOf (ofString text).diagnostics⟩, ?_, rfl,
      hadError_reportAll_iff text⟩
    rw [reading_eq, foldl_hand_some]
  lexicalLines error _ := Diagnostic.onLine_lexical _ _
  syntacticLines error _ := Diagnostic.onLine_syntactic _ _

/-- A stray character in front of a missing semicolon, of which only the latter is raised. -/
example
    : Diagnostic.textOf (ofString "nil\n@").diagnostics
      = "[line 2] Error: Unexpected character.\n"
        ++ "[line 2] Error at end: Expect ';' after expression.\n" := by
  cbv

end Source

end Lox
