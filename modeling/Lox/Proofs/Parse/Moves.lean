import Lox.Parse.Program

/-! What single tokens do to the reader.
The end of the input fits into no statement, and nothing else ends the reading: a parse has come to
an end just when the end of the input was among its tokens.
-/

namespace Lox

namespace Position

theorem Move.extended_of_ofStep {step : Partial.Step} {next : Position}
    (h : Move.ofStep step = .advance next)
    : ∃ statement, step = .extended statement ∧ next = .inside statement := by
  cases step <;> cases h
  exact ⟨_, rfl, rfl⟩

theorem Move.completed_of_ofStep {step : Partial.Step} {statement : Stmt}
    (h : Move.ofStep step = .complete statement)
    : step = .completed statement := by
  cases step <;> cases h
  rfl

theorem Move.ofStep_ne_finish (step : Partial.Step) : Move.ofStep step ≠ .finish := by
  cases step <;> exact Move.noConfusion

end Position

/-- The end of the input fits into no statement. -/
theorem Partial.feed_endOfInput (statement : Partial) {token : Token}
    (ends : token.kind = .endOfInput)
    : ∃ expected, statement.feed token = .misfit expected := by
  obtain ⟨form, frames, operand⟩ := statement
  cases operand with
  | none =>
      refine ⟨.operand, ?_⟩
      simp [Partial.feed, Partial.feedOperand, Token.operand?, Token.Kind.isUnary, ends]
  | some operand =>
      simp only [Partial.feed, Partial.feedOperator, Token.Kind.strength?, ends]
      unfold Partial.feedEnd
      split
      · exact ⟨.terminator form, by simp [ends]⟩
      · exact ⟨.closing, by simp [ends]⟩

namespace Position

/-- No position goes on behind the end of the input. -/
theorem move_endOfInput (position : Position) {token : Token} (ends : token.kind = .endOfInput)
    : position.move token = .finish ∨ ∃ expected, position.move token = .misfit expected := by
  cases position with
  | boundary | skipping => exact .inl (by simp [move, ends])
  | inside statement =>
      obtain ⟨expected, step⟩ := statement.feed_endOfInput ends
      exact .inr ⟨expected, by rw [move, step, Move.ofStep]⟩

/-- Only the end of the input finishes the reading. -/
theorem endOfInput_of_finish {position : Position} {token : Token}
    (h : position.move token = .finish)
    : token.kind = .endOfInput := by
  refine Decidable.byContradiction fun more => ?_
  cases position with
  | boundary =>
      simp only [move, more, if_false] at h
      exact Move.ofStep_ne_finish _ h
  | inside statement => exact Move.ofStep_ne_finish _ h
  | skipping =>
      simp only [move, more, if_false] at h
      split at h
      · exact Move.ofStep_ne_finish _ h
      · cases h

end Position

/-- Reading comes to an end just when the end of the input is among the tokens, by induction on the
tokens.
-/
theorem Parse.continuing_ended (position : Position) (tokens : List Token)
    : (continuing position tokens).ended = true
      ↔ ∃ token ∈ tokens, token.kind = .endOfInput := by
  induction tokens generalizing position with
  | nil => simp [continuing]
  | cons token rest ih =>
      by_cases ends : token.kind = .endOfInput
      · rcases position.move_endOfInput ends with step | ⟨expected, step⟩ <;>
          simp [continuing, step, ends]
      · have later
            : (∃ found ∈ token :: rest, found.kind = .endOfInput)
              ↔ ∃ found ∈ rest, found.kind = .endOfInput := by
          simp [ends]
        rw [later, continuing]
        cases step : position.move token with
        | advance next => exact ih next
        | complete statement => exact ih .boundary
        | misfit expected =>
            simp only [ends, if_false]
            exact ih (.afterSkipped token)
        | finish => exact absurd (Position.endOfInput_of_finish step) ends

end Lox
