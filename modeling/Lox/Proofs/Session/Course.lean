import Lox.Proofs.Evaluation.Settling
import Lox.Proofs.Evaluation.Sequence
import Lox.Proofs.Session.Unit

/-! The ways a unit can go.
A text that is no program is only reported. A program runs up to its first statement that fails, and
to its end if there is none, and its statements fail or not whatever runs before them.
-/

namespace Lox

variable {level : Nat}

/-- Notes by themselves are no output. -/
theorem Event.outputOf_notes (notes : List Note) : outputOf (notes.map .note) = "" := by
  have none : (notes.map Event.note).filter (!·.isNote) = [] := by
    rw [List.filter_eq_nil_iff]
    intro event member
    obtain ⟨note, -, rfl⟩ := List.mem_map.mp member
    simp [isNote]
  rw [outputOf, none]
  rfl

theorem Event.outputOf_append_notes (events : List Event) (notes : List Note)
    : outputOf (events ++ notes.map .note) = outputOf events := by
  rw [outputOf_append, outputOf_notes, Text.append_empty]

/-- Statements run to their end together when each of them does, by induction on the statements. -/
theorem executeAll_stop_eq_none_iff {statements : List Stmt}
    : (executeAll level statements).stop = none
      ↔ ∀ statement ∈ statements, (statement.execute level).stop = none := by
  induction statements with
  | nil => simp [executeAll]
  | cons statement rest ih =>
      rw [List.forall_mem_cons, ← ih]
      cases first : (statement.execute level).stop with
      | none => simp [executeAll_cons_of_none first]
      | some stop => simp [executeAll_cons_of_some first]

/-- A statement fails only where its expression does: a value may stop it, but it does not fail. -/
theorem Stmt.result_of_failed {statement : Stmt} {error : RuntimeError}
    (h : (statement.execute level).stop = some (.failed error))
    : (statement.expr.evaluate level).result = .error error := by
  unfold execute at h
  dsimp only at h
  split at h
  case h_1 found =>
    cases h
    exact found
  case h_2 value _ =>
    cases statement with
    | expression => cases h
    | print expr =>
        unfold Run.ofValue at h
        cases shown : value.display? <;> simp [shown] at h

/-- A statement that fails leaves notes only. -/
theorem Stmt.events_of_failed {statement : Stmt} {error : RuntimeError}
    (h : (statement.execute level).stop = some (.failed error))
    : (statement.execute level).events = (statement.expr.evaluate level).notes.map .note := by
  simp only [execute, Stmt.result_of_failed h]

/-- A program that fails has done what its statements before the failing one do, and has taken
notes.
-/
theorem events_of_failed {before : List Stmt} {failing : Stmt} (after : List Stmt)
    {error : RuntimeError}
    (earlier : (executeAll level before).stop = none)
    (fails : (failing.execute level).stop = some (.failed error))
    : ∃ notes : List Note,
        (interpret level (before ++ failing :: after)).events
          = (executeAll level before).events ++ notes.map .note
        ∧ (interpret level (before ++ failing :: after)).stop = some (.failed error) := by
  have run
      : executeAll level (before ++ failing :: after)
        = ⟨(executeAll level before).events ++ (failing.execute level).events,
          some (.failed error)⟩ := by
    simp only [executeAll_append, executeAll, Run.append, earlier, fails]
  refine ⟨(failing.expr.evaluate level).notes ++ Note.takenAt level (.stopped error), ?_, ?_⟩
  · unfold interpret
    rw [run]
    simp [Stmt.events_of_failed fails]
  · rw [interpret_stop, run]

/-- What running statements does to a session and what it shows: one of them fails, or none does. -/
inductive Execution (session : Session) : List Stmt → Session × Transcript → Prop
  | failed {before after : List Stmt} {failing : Stmt} {error : RuntimeError} (notes : List Note)
    (earlier : (executeAll session.level before).stop = none)
    (fails : (failing.execute session.level).stop = some (.failed error))
    : Execution session (before ++ failing :: after)
        ({ session with hadRuntimeError := true, runtimeError := some error },
          ⟨(executeAll session.level before).events ++ notes.map .note,
            [.runtime error.token error.message]⟩)
  | ended {statements : List Stmt}
    (all : (executeAll session.level statements).stop = none)
    : Execution session statements
        ({ session with runtimeError := none },
          ⟨(executeAll session.level statements).events, []⟩)

/-- What a unit does to a session and what it shows: it is refused, or its statements run. -/
inductive Course (session : Session) (text : String) : Session × Transcript → Prop
  | refused {failure : Source.Failure}
    (malformed : (Source.ofString text).program = .error failure)
    : Course session text
        ({ session with hadError := true }, ⟨[], (Source.ofString text).diagnostics⟩)
  | ran {statements : List Stmt} {shown : Session × Transcript}
    (program : (Source.ofString text).program = .ok statements)
    (execution : Execution session statements shown)
    : Course session text shown

namespace Session

theorem interpret_of_failed (session : Session) {statements : List Stmt} {error : RuntimeError}
    (h : (Lox.interpret session.level statements).stop = some (.failed error))
    : session.interpret statements
      = ({ session with hadRuntimeError := true, runtimeError := some error },
        ⟨(Lox.interpret session.level statements).events,
          [.runtime error.token error.message]⟩) := by
  unfold interpret
  simp only [h]
  rfl

theorem interpret_of_ended (session : Session) {statements : List Stmt}
    (h : (Lox.interpret session.level statements).stop = none)
    : session.interpret statements
      = ({ session with runtimeError := none },
        ⟨(Lox.interpret session.level statements).events, []⟩) := by
  unfold interpret
  simp only [h]

/-- Statements that all run to their end run as a program that ends without an error. -/
theorem interpret_of_executed (session : Session) {statements : List Stmt}
    (all : (executeAll session.level statements).stop = none)
    : session.interpret statements
      = ({ session with runtimeError := none },
        ⟨(executeAll session.level statements).events, []⟩) := by
  have ended := (interpret_stop session.level statements).trans all
  rw [session.interpret_of_ended ended]
  unfold Lox.interpret
  simp only [all]

/-- Statements over values run to their end or fail. Kinds tell which, and at which statement. -/
theorem execution_of_valued (session : Session) {statements : List Stmt}
    (valued : ∀ statement ∈ statements, statement.expr.Valued)
    : Execution session statements (session.interpret statements) := by
  have failure := executeAll_failure session.level valued
  split at failure
  case h_1 =>
    obtain ⟨all, -⟩ := failure
    rw [session.interpret_of_executed all]
    exact .ended all
  case h_2 error _ =>
    obtain ⟨-, before, failing, after, rfl, -, earlier, fails⟩ := failure
    obtain ⟨notes, events, stop⟩ := events_of_failed after earlier fails
    rw [session.interpret_of_failed stop, events]
    exact .failed notes earlier fails

/-- Every unit is refused or runs. -/
theorem course_of_runSource (session : Session) (text : String)
    : Course session text (session.runSource text) := by
  cases program : (Source.ofString text).program with
  | error failure =>
      rw [session.runSource_of_error program, session.reportAll_of_error program]
      exact .refused program
  | ok statements =>
      rw [session.runSource_of_ok program]
      refine .ran program (session.execution_of_valued fun statement member => ?_)
      exact (Source.over_of_program program statement member).valued

end Session

end Lox
