import Lox.Proofs.Evaluation.Settling
import Lox.Proofs.Session.Interpretation
import Lox.Proofs.Session.Unit
import Lox.Proofs.Source.Joining

/-! Units of source that are joined.
A text made of two programs, one below the other, runs as the first and then as the second one,
whose errors are told further down. A runtime error of the first ends both.
-/

namespace Lox

/-- A run is told with every token further down. -/
def Retelling.moveDown (lines : Nat) : Retelling :=
  ⟨.moveDown lines, fun note => [note.mapTokens (.moveDown lines)]⟩

theorem Note.level_mapTokens (change : Token → Token) (note : Note)
    : (note.mapTokens change).level = note.level := by
  cases note <;> rfl

theorem Retelling.suits_moveDown (lines level : Nat)
    : (Retelling.moveDown lines).Suits level level where
  kind _ := rfl
  notes note := by
    unfold Note.takenAt
    rw [Note.level_mapTokens]
    split <;> rfl

namespace Session

/-- What a session shows for a unit of two programs, from what it shows for each by itself. -/
structure Joined (lines : Nat) (upper lower both : Session × Transcript) : Prop where
  /-- A runtime error of the upper program is the last thing that happens. -/
  stopped : upper.1.runtimeError ≠ none → both = upper
  session : upper.1.runtimeError = none →
    both.1 = { lower.1 with
      runtimeError := lower.1.runtimeError.map fun error =>
        ⟨error.token.moveDown lines, error.fault⟩ }
  diagnostics : upper.1.runtimeError = none →
    both.2.diagnostics = lower.2.diagnostics.map (.mapToken (.moveDown lines))
  events : upper.1.runtimeError = none →
    both.2.events = upper.2.events ++ lower.2.events.flatMap (Retelling.moveDown lines).event
  output : upper.1.runtimeError = none →
    Event.outputOf both.2.events = Event.outputOf upper.2.events ++ Event.outputOf lower.2.events

/-- A program over values either comes to its end or leaves a runtime error behind. -/
theorem interpret_runtimeError (session : Session) {statements : List Stmt}
    (valued : ∀ statement ∈ statements, statement.expr.Valued)
    : (Lox.interpret session.level statements).stop = none
        ∧ (session.interpret statements).1.runtimeError = none
      ∨ ∃ error,
          (Lox.interpret session.level statements).stop = some (.failed error)
          ∧ (session.interpret statements).1.runtimeError = some error := by
  unfold interpret
  rcases interpret_settles session.level valued with ended | ⟨error, _, -, stopped, -⟩
  · exact .inl ⟨ended, by simp [ended]⟩
  · exact .inr ⟨error, stopped, by simp [stopped, report]⟩

/-- Statements and other ones further down run one after another. -/
theorem joined_interpret (session : Session) (lines : Nat) {upper : List Stmt} (lower : List Stmt)
    (valued : ∀ statement ∈ upper, statement.expr.Valued)
    : Joined lines (session.interpret upper) (session.interpret lower)
        (session.interpret (upper ++ lower.map (.mapTokens (.moveDown lines)))) := by
  rcases session.interpret_runtimeError valued with ⟨ended, clean⟩ | ⟨error, stopped, failed⟩
  · let move := Token.moveDown lines
    have moved
        : session.interpret (lower.map (.mapTokens move))
          = ((session.interpret lower).1.retold (.moveDown lines) session.level,
            (session.interpret lower).2.retold (.moveDown lines)) :=
      session.interpret_retold (Retelling.suits_moveDown lines session.level) (fun _ => rfl) lower
    have both := session.interpret_append_of_none (lower.map (.mapTokens move)) ended
    rw [moved] at both
    have level := session.interpret_level lower
    refine ⟨fun failed => absurd clean failed, fun _ => ?_, fun _ => ?_, fun _ => ?_, fun _ => ?_⟩
    · rw [both, retold, ← level]
      rfl
    · rw [both]
      rfl
    · rw [both]
      rfl
    · rw [both, Event.outputOf_append]
      exact congrArg _ (Event.outputOf_retold _ _)
  -- The second program does not run, and all else that is said of it is about another case.
  · have both := session.interpret_append_of_some (lower.map (.mapTokens (.moveDown lines))) stopped
    refine ⟨fun _ => both, ?_, ?_, ?_, ?_⟩
    all_goals
      intro clean
      rw [failed] at clean
      cases clean

/-- Two units that are programs make up a program, one below the other: the statements of both,
those of the second one further down by the lines of the first. In every session it runs as the
first unit does, and then as the second unless the first leaves a runtime error behind.
-/
theorem units_compose {first second : String} {upper lower : List Stmt}
    (one : (Source.ofString first).program = .ok upper)
    (other : (Source.ofString second).program = .ok lower)
    : (Source.ofString (first ++ "\n" ++ second)).program
        = .ok (upper ++ lower.map (.mapTokens (.moveDown (1 + first.toList.count '\n'))))
      ∧ ∀ session : Session,
          Joined (1 + first.toList.count '\n') (session.runSource first) (session.runSource second)
            (session.runSource (first ++ "\n" ++ second)) := by
  have joined := Source.program_joined one other
  refine ⟨joined, fun session => ?_⟩
  rw [runSource_of_ok session one, runSource_of_ok session other, runSource_of_ok session joined]
  refine session.joined_interpret _ lower fun statement member => ?_
  exact (Source.over_of_program one statement member).valued

/-- A comment at the end of the first unit does not reach into the second, whose error is told on
the third line of both.
-/
theorem units_compose_below_comment
    : let first := "print nil; // -nil;"
      let second := "\n-nil;"
      let minus := fun line => Token.mk .minus (.string "-") .nil line
      let upper := [Stmt.print (.literal .nil)]
      let lower := fun line => [Stmt.expression (.unary (minus line) (.literal .nil))]
      let both := (fresh 0).runSource (first ++ "\n" ++ second)
      (Source.ofString first).program = .ok upper
      ∧ (Source.ofString second).program = .ok (lower 2)
      ∧ (Source.ofString (first ++ "\n" ++ second)).program = .ok (upper ++ lower 3)
      ∧ Event.outputOf both.2.events = "nil\n"
      ∧ both.1.runtimeError = some ⟨minus 3, .operandNotNumber⟩ := by
  intro first second minus upper lower both
  have one : (Source.ofString first).program = .ok upper := by cbv
  have other : (Source.ofString second).program = .ok (lower 2) := by cbv
  obtain ⟨program, runs⟩ := units_compose one other
  have joined := runs (fresh 0)
  have single : first.toList.count '\n' = 0 := by cbv
  rw [single] at program joined
  rw [runSource_of_ok _ one, runSource_of_ok _ other] at joined
  refine ⟨one, other, program, ?_, ?_⟩
  · exact (joined.output rfl).trans rfl
  · exact (congrArg Session.runtimeError (joined.session rfl)).trans rfl

end Session

end Lox
