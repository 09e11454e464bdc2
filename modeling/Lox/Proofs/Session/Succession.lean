import Lox.Proofs.Session.Course
import Lox.Proofs.Session.Joining

/-! Programs one after the other.
The statements of two programs together do what the first program does and then what the second one
does in the session that the first leaves. Behind a runtime error nothing happens any more, and the
statement that fails has printed nothing.
-/

namespace Lox

theorem Event.traceOf_append (first second : List Event)
    : traceOf (first ++ second) = traceOf first ++ traceOf second := by
  rw [traceOf, List.filter_append, textOf_append]
  rfl

/-- A statement that fails prints nothing. -/
theorem Stmt.outputOf_of_failed {level : Nat} {statement : Stmt} {error : RuntimeError}
    (h : (statement.execute level).stop = some (.failed error))
    : Event.outputOf (statement.execute level).events = "" := by
  rw [Stmt.events_of_failed h, Event.outputOf_notes]

namespace Session

variable {first second statements : List Stmt}

/-- What is shown for both is what is shown for the first and then for the second. -/
structure Follows (first second both : Session × Transcript) : Prop where
  session : both.1 = second.1
  events : both.2.events = first.2.events ++ second.2.events
  diagnostics : both.2.diagnostics = first.2.diagnostics ++ second.2.diagnostics
  output : Event.outputOf both.2.events
    = Event.outputOf first.2.events ++ Event.outputOf second.2.events
  trace : Event.traceOf both.2.events
    = Event.traceOf first.2.events ++ Event.traceOf second.2.events
  errors : Diagnostic.textOf both.2.diagnostics
    = Diagnostic.textOf first.2.diagnostics ++ Diagnostic.textOf second.2.diagnostics

theorem follows_of_append {first second both : Session × Transcript}
    (session : both.1 = second.1)
    (events : both.2.events = first.2.events ++ second.2.events)
    (diagnostics : both.2.diagnostics = first.2.diagnostics ++ second.2.diagnostics)
    : Follows first second both where
  session := session
  events := events
  diagnostics := diagnostics
  output := by rw [events, Event.outputOf_append]
  trace := by rw [events, Event.traceOf_append]
  errors := by rw [diagnostics, Diagnostic.textOf_append]

/-- The statements of two programs together run as one program after the other. -/
structure Successive (session : Session) (first second : List Stmt) : Prop where
  /-- A program that ends without an error leaves the session to the next one. -/
  ended : (session.interpret first).1.runtimeError = none →
    Follows (session.interpret first) ((session.interpret first).1.interpret second)
      (session.interpret (first ++ second))
  /-- To the next program it does not matter whether another one ran before it. -/
  unaffected : (session.interpret first).1.runtimeError = none →
    (session.interpret first).1.interpret second = session.interpret second
  /-- Nothing happens behind a runtime error. -/
  stopped : (session.interpret first).1.runtimeError ≠ none →
    session.interpret (first ++ second) = session.interpret first

/-- A program is stopped by one error, which is told once, or by none. -/
structure StopsOnce (session : Session) (statements : List Stmt) : Prop where
  diagnostics :
    (session.interpret statements).2.diagnostics
      = ((session.interpret statements).1.runtimeError.map fun error =>
          Diagnostic.runtime error.token error.message).toList
  once : (session.interpret statements).2.diagnostics.length ≤ 1
  /-- Only the statements before the one that fails have printed anything. -/
  silent : ∀ error, (session.interpret statements).1.runtimeError = some error →
    ∃ before failing after,
      statements = before ++ failing :: after
      ∧ (session.interpret before).1.runtimeError = none
      ∧ (failing.expr.evaluate session.level).result = .error error
      ∧ Event.outputOf (failing.execute session.level).events = ""
      ∧ Event.outputOf (session.interpret statements).2.events
        = Event.outputOf (session.interpret before).2.events

/-- To a program it does not matter which error stopped the one before it. -/
theorem interpret_forgets (session : Session) (error : Option RuntimeError)
    (statements : List Stmt)
    : { session with runtimeError := error }.interpret statements
      = session.interpret statements :=
  rfl

theorem successive_of_valued (session : Session) (second : List Stmt)
    (valued : ∀ statement ∈ first, statement.expr.Valued)
    : Successive session first second := by
  rcases session.interpret_runtimeError valued with ⟨ended, clean⟩ | ⟨error, stopped, failed⟩
  · have left := session.interpret_of_ended ended
    have both := session.interpret_append_of_none second ended
    have next : (session.interpret first).1.interpret second = session.interpret second := by
      rw [left, interpret_forgets]
    refine ⟨fun _ => ?_, fun _ => next, fun failed => absurd clean failed⟩
    rw [next]
    apply follows_of_append <;> rw [both]
    rw [left]
    rfl
  · have both := session.interpret_append_of_some second stopped
    refine ⟨fun clean => ?_, fun clean => ?_, fun _ => both⟩
    all_goals
      rw [failed] at clean
      cases clean

theorem stopsOnce_of_valued (session : Session)
    (valued : ∀ statement ∈ statements, statement.expr.Valued)
    : StopsOnce session statements := by
  have execution := session.execution_of_valued valued
  generalize found : session.interpret statements = shown at execution
  cases execution with
  | @failed before after failing error notes earlier fails =>
      constructor <;> rw [found]
      case diagnostics => rfl
      case once => exact le_rfl
      case silent =>
        intro _ same
        cases same
        have ended := session.interpret_of_executed earlier
        refine ⟨before, failing, after, rfl, ?_, Stmt.result_of_failed fails,
          Stmt.outputOf_of_failed fails, ?_⟩
        · rw [ended]
        · rw [ended]
          exact Event.outputOf_append_notes _ notes
  | ended =>
      constructor <;> rw [found]
      case diagnostics => rfl
      case once => exact Nat.zero_le 1
      case silent =>
        intro _ none
        cases none

/-- In every session and at every level, two programs over values run one after the other: the
second one goes on where the first ends, and does not run if the first is stopped. A program is
stopped by at most one error, which is told once, and the statement that fails prints nothing.
-/
theorem programs_run_in_succession
    : (∀ (session : Session) (first second : List Stmt),
        (∀ statement ∈ first, statement.expr.Valued) → Successive session first second)
      ∧ ∀ (session : Session) (statements : List Stmt),
        (∀ statement ∈ statements, statement.expr.Valued) → StopsOnce session statements :=
  ⟨fun session _ second valued => session.successive_of_valued second valued,
    fun session _ valued => session.stopsOnce_of_valued valued⟩

/-- An error that an earlier program left is gone, one that stops a program is told once, and what
stands behind it does not run.
-/
theorem programs_run_in_succession_around_failure
    : let minus : Token := ⟨.minus, .string "-", .nil, 1⟩
      let session : Session := ⟨1, true, false, some ⟨minus, .unknownUnary⟩⟩
      let printing := [Stmt.print (.literal .nil)]
      let failing := [Stmt.print (.unary minus (.literal .nil))]
      (∀ statement ∈ printing, statement.expr.Valued)
      ∧ (∀ statement ∈ failing, statement.expr.Valued)
      ∧ (session.interpret (printing ++ failing)).2.diagnostics
        = [.runtime minus "Operand must be a number."]
      ∧ Event.outputOf (session.interpret (printing ++ failing)).2.events = "nil\n"
      ∧ session.interpret (failing ++ printing) = session.interpret failing
      ∧ StopsOnce session (printing ++ failing) := by
  intro minus session printing failing
  have first : ∀ statement ∈ printing, statement.expr.Valued := List.forall_mem_singleton.mpr rfl
  have second : ∀ statement ∈ failing, statement.expr.Valued := List.forall_mem_singleton.mpr rfl
  obtain ⟨succeed, stop⟩ := programs_run_in_succession
  have follows := (succeed session printing failing first).ended rfl
  have stopped : (session.interpret failing).1.runtimeError ≠ none := nofun
  refine ⟨first, second, follows.diagnostics, follows.output, ?_, ?_⟩
  · exact (succeed session failing printing second).stopped stopped
  · exact stop session _ (List.forall_mem_append.mpr ⟨first, second⟩)

end Session

end Lox
