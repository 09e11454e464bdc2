import Lox.Proofs.CommandLine.Emission
import Lox.Proofs.Session.Course

/-! One verdict on a unit, wherever it runs.
A unit by itself and a call with the unit as its script show the same, and the status of the call
tells which of the three ways the unit went.
-/

namespace Lox

variable {text : String} {level : Nat}

theorem Diagnostic.text_ne_empty (diagnostic : Diagnostic) : diagnostic.text ≠ "" := by
  intro none
  have last := congrArg (·.characters.getLast?) none
  cases diagnostic <;> simp [text] at last

theorem Diagnostic.textOf_eq_empty_iff {diagnostics : List Diagnostic}
    : textOf diagnostics = "" ↔ diagnostics = [] := by
  cases diagnostics with
  | nil => simp [textOf]
  | cons diagnostic rest =>
      rw [textOf, List.map_cons, Text.join_cons]
      simp [diagnostic.text_ne_empty]

/-- The text is a program whose statements all run to their end. -/
def Source.Succeeds (level : Nat) (text : String) : Prop :=
  ∃ statements,
    (Source.ofString text).program = .ok statements
    ∧ ∀ statement ∈ statements, (statement.execute level).stop = none

/-- The text is a program of which some statement fails. -/
def Source.Fails (level : Nat) (text : String) : Prop :=
  ∃ statements,
    (Source.ofString text).program = .ok statements
    ∧ ∃ statement ∈ statements, ∃ error, (statement.execute level).stop = some (.failed error)

theorem Source.not_succeeds_of_error {failure : Source.Failure}
    (malformed : (Source.ofString text).program = .error failure)
    : ¬Succeeds level text := by
  rintro ⟨statements, program, -⟩
  rw [malformed] at program
  cases program

theorem Source.not_fails_of_error {failure : Source.Failure}
    (malformed : (Source.ofString text).program = .error failure)
    : ¬Fails level text := by
  rintro ⟨statements, program, -⟩
  rw [malformed] at program
  cases program

/-- A program does not both run to its end and fail. -/
theorem Source.Succeeds.not_fails (succeeds : Succeeds level text) : ¬Fails level text := by
  rintro ⟨statements, program, failing, member, error, fails⟩
  obtain ⟨others, same, ended⟩ := succeeds
  obtain rfl := Except.ok.inj (program.symm.trans same)
  rw [ended failing member] at fails
  cases fails

theorem Source.fails_of_split {before after : List Stmt} {failing : Stmt} {error : RuntimeError}
    (program : (Source.ofString text).program = .ok (before ++ failing :: after))
    (fails : (failing.execute level).stop = some (.failed error))
    : Fails level text :=
  ⟨_, program, failing, List.mem_append_right before List.mem_cons_self, error, fails⟩

theorem Source.succeeds_of_ended {statements : List Stmt}
    (program : (Source.ofString text).program = .ok statements)
    (all : (executeAll level statements).stop = none)
    : Succeeds level text :=
  ⟨statements, program, executeAll_stop_eq_none_iff.mp all⟩

-----------------------------------------------------------------------------------------
-- A unit by itself
-----------------------------------------------------------------------------------------

/-- What is said of the run of a unit is also seen in its diagnostics and in the session. -/
structure Judged (level : Nat) (text : String) (unit : UnitRun) : Prop where
  succeeded : unit.succeeded = true ↔ Source.Succeeds level text
  reported : unit.succeeded = false ↔ unit.transcript.diagnostics ≠ []
  written : unit.succeeded = false ↔ Diagnostic.textOf unit.transcript.diagnostics ≠ ""
  marked : unit.succeeded = false
    ↔ unit.session.hadError = true ∨ unit.session.hadRuntimeError = true
  once : ¬(unit.session.hadError = true ∧ unit.session.hadRuntimeError = true)

theorem judged_runUnit (level : Nat) (text : String) : Judged level text (runUnit level text) := by
  have course := (Session.fresh level).course_of_runSource text
  unfold runUnit
  generalize (Session.fresh level).runSource text = shown at course ⊢
  cases course with
  | refused malformed =>
      have some := Source.diagnostics_ne_nil malformed
      have none : ¬Source.Succeeds level text := Source.not_succeeds_of_error malformed
      constructor <;> simp [Session.fresh, Diagnostic.textOf_eq_empty_iff, some, none]
  | ran program execution =>
      cases execution with
      | failed notes earlier fails =>
          have failed : Source.Fails level text := Source.fails_of_split program fails
          have none : ¬Source.Succeeds level text := fun succeeds => succeeds.not_fails failed
          constructor <;> simp [Session.fresh, Diagnostic.textOf_eq_empty_iff, none]
      | ended all =>
          have succeeds : Source.Succeeds level text := Source.succeeds_of_ended program all
          constructor <;> simp [Session.fresh, Diagnostic.textOf_eq_empty_iff, succeeds]

-----------------------------------------------------------------------------------------
-- A call with the unit as its script
-----------------------------------------------------------------------------------------

/-- What a call shows for a script and how it ends, from the unit that the script holds. -/
structure Agreed (text : String) (unit : UnitRun) (outcome : CommandLine.Outcome) : Prop where
  output : outcome.output = Event.outputOf unit.transcript.events
  diagnostics : outcome.diagnostics = Diagnostic.textOf unit.transcript.diagnostics
  refused : outcome.ending = .status 65
    ↔ ∃ failure, (Source.ofString text).program = .error failure
  failed : outcome.ending = .status 70 ↔ Source.Fails 0 text
  otherwise : outcome.ending = .status 0
    ↔ (∃ statements, (Source.ofString text).program = .ok statements) ∧ ¬Source.Fails 0 text
  /-- Nothing of a text that is refused runs. -/
  idle : outcome.ending = .status 65 → unit.transcript.events = [] ∧ outcome.output = ""
  /-- A program that fails has printed what its statements before the failing one print. -/
  stopped : outcome.ending = .status 70 →
    ∃ before failing after error,
      (Source.ofString text).program = .ok (before ++ failing :: after)
      ∧ (executeAll 0 before).stop = none
      ∧ (failing.execute 0).stop = some (.failed error)
      ∧ unit.transcript.diagnostics = [.runtime error.token error.message]
      ∧ outcome.output = Event.outputOf (executeAll 0 before).events

/-- What a call shows and how it ends tells which way the unit of its script goes. -/
theorem agreed_of_shown {text : String} {outcome : CommandLine.Outcome}
    (output : outcome.output = Event.outputOf (runUnit 0 text).transcript.events)
    (diagnostics : outcome.diagnostics = Diagnostic.textOf (runUnit 0 text).transcript.diagnostics)
    (ending : outcome.ending = .status (runUnit 0 text).session.exitStatus)
    : Agreed text (runUnit 0 text) outcome := by
  have course := (Session.fresh 0).course_of_runSource text
  unfold runUnit at output diagnostics ending ⊢
  generalize (Session.fresh 0).runSource text = shown at course output diagnostics ending ⊢
  cases course with
  | @refused failure malformed =>
      have none : ¬Source.Fails 0 text := Source.not_fails_of_error malformed
      have silent : outcome.output = "" := Text.ofString_inj.mp output
      constructor
      case output => exact output
      case diagnostics => exact diagnostics
      all_goals simp [ending, Session.exitStatus, malformed, none, silent]
  | ran program execution =>
      cases execution with
      | @failed before after failing error notes earlier fails =>
          have failed : Source.Fails 0 text := Source.fails_of_split program fails
          have printed : outcome.output = Event.outputOf (executeAll 0 before).events :=
            output.trans (Event.outputOf_append_notes (executeAll 0 before).events notes)
          constructor
          case output => exact output
          case diagnostics => exact diagnostics
          case stopped =>
            exact fun _ => ⟨before, failing, after, error, program, earlier, fails, rfl, printed⟩
          all_goals simp [ending, Session.fresh, Session.exitStatus, program, failed]
      | ended all =>
          have none : ¬Source.Fails 0 text := (Source.succeeds_of_ended program all).not_fails
          constructor
          case output => exact output
          case diagnostics => exact diagnostics
          all_goals simp [ending, Session.fresh, Session.exitStatus, program, none]

theorem agreed_ofSession (files : Files) (text : String)
    : Agreed text (runUnit 0 text)
        (CommandLine.ofSession files (runUnit 0 text).session (runUnit 0 text).transcript) := by
  obtain ⟨output, diagnostics⟩ := (Session.fresh 0).isEncodable_of_runSource text
  exact agreed_of_shown (Text.ofString_string output) (Text.ofString_spelled diagnostics) rfl

theorem CommandLine.unitOf_of_notMem (plain : '\r' ∉ text.toList) : unitOf text = text := by
  rw [unitOf, Text.unifyNewlines_of_notMem plain, String.ofList_toList]

/-- A unit succeeds just when nothing is reported about it, whether that is its text or its run. If
a call has it as its script, the call shows what the unit shows by itself, and ends with the status
of the way that the unit goes.
-/
theorem units_and_calls_agree
    : (∀ level text, Judged level text (runUnit level text))
      ∧ ∀ files input script text, Word.Names script → '\r' ∉ text.toList →
          files.find? (.ofString script) = some (.file (Text.Utf8.encode text)) →
          Agreed text (runUnit 0 text) (CommandLine.call files input [script]) := by
  refine ⟨judged_runUnit, fun files input script text names plain found => ?_⟩
  have call : CommandLine.call files input [script]
      = CommandLine.ofSession files (runUnit 0 text).session (runUnit 0 text).transcript := by
    refine (CommandLine.call_script files input 0 names).trans ?_
    refine (CommandLine.runScript_of_find 0 found).trans ?_
    rw [CommandLine.unitOf_of_notMem plain]
    rfl
  rw [call]
  exact agreed_ofSession files text

/-- A script that fails at its second statement, which prints nothing, as does the third. -/
theorem units_and_calls_agree_on_failure
    : let script := "late.lox"
      let text := "print \"a\"; print -nil; print \"b\";"
      let files : Files := ⟨[(⟨.working 0, [script]⟩, .file (Text.Utf8.encode text))]⟩
      let call := CommandLine.call files "" [script]
      Word.Names script
      ∧ '\r' ∉ text.toList
      ∧ files.find? (.ofString script) = some (.file (Text.Utf8.encode text))
      ∧ Agreed text (runUnit 0 text) call
      ∧ call.ending = .status 70
      ∧ call.output = "a\n" := by
  intro script text files call
  have names : Word.Names script := Word.names_of_plain (by simp [script]) (by decide)
  have plain : '\r' ∉ text.toList := by decide
  have found : files.find? (.ofString script) = some (.file (Text.Utf8.encode text)) :=
    Files.find_single (by decide) (by cbv) _
  have agreed := units_and_calls_agree.2 files "" script text names plain found
  let minus : Token := ⟨.minus, .string "-", .nil, 1⟩
  let failing : Stmt := .print (.unary minus (.literal .nil))
  let statements : List Stmt :=
    [.print (.literal (.string "a")), failing, .print (.literal (.string "b"))]
  have program : (Source.ofString text).program = .ok statements := by cbv
  have fails : (failing.execute 0).stop = some (.failed ⟨minus, .operandNotNumber⟩) := rfl
  refine ⟨names, plain, found, agreed, agreed.failed.mpr ?_, ?_⟩
  · exact ⟨statements, program, failing, by simp [statements], _, fails⟩
  · have transcript : (runUnit 0 text).transcript = ((Session.fresh 0).interpret statements).2 :=
      congrArg Prod.snd (Session.runSource_of_ok _ program)
    have output := agreed.output
    rw [transcript] at output
    exact Text.ofString_inj.mp output

end Lox
