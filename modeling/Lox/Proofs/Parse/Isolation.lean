import Lox.Proofs.Parse.Parts

/-! A semicolon isolates errors.
Whether a semicolon completes a statement, does not fit into one, or is skipped, the reader stands
between statements behind it. What follows is therefore read as if it stood alone.
-/

namespace Lox

/-- No partial statement goes on behind a semicolon. -/
theorem Partial.feed_semicolon_ne_extended (statement : Partial) {token : Token} {next : Partial}
    (kind : token.kind = .semicolon)
    : statement.feed token ≠ .extended next := by
  intro step
  obtain ⟨form, frames, operand⟩ := statement
  cases operand with
  | none =>
      simp [feed, feedOperand, Token.operand?, Token.Kind.isUnary, kind] at step
  | some operand =>
      simp only [feed, feedOperator, Token.Kind.strength?, kind] at step
      generalize (settle 0 operand frames).2 = outer at step
      cases outer <;> simp [feedEnd, kind] at step

/-- No statement begins with a semicolon. -/
theorem Partial.start_semicolon_ne_extended {token : Token} {next : Partial}
    (kind : token.kind = .semicolon)
    : start token ≠ .extended next := by
  intro step
  have other : token.kind ≠ .printKeyword := by simp [kind]
  rw [start, if_neg other] at step
  exact (empty .expression).feed_semicolon_ne_extended kind step

namespace Position

/-- Whatever a semicolon does, the reader stands between statements behind it. -/
theorem next_semicolon (position : Position) {token : Token} (kind : token.kind = .semicolon)
    : position.next token = .boundary := by
  have skipped : afterSkipped token = .boundary := by simp [afterSkipped, kind]
  have inner : token.kind ≠ .endOfInput := by simp [kind]
  rw [next]
  cases step : position.move token with
  | complete => rfl
  | misfit => exact skipped
  | finish => exact absurd (endOfInput_of_finish step) inner
  | advance next =>
      cases position with
      | boundary =>
          rw [move, if_neg inner] at step
          obtain ⟨statement, extended, -⟩ := Move.extended_of_ofStep step
          exact absurd extended (Partial.start_semicolon_ne_extended kind)
      | inside statement =>
          obtain ⟨further, extended, -⟩ := Move.extended_of_ofStep step
          exact absurd extended (statement.feed_semicolon_ne_extended kind)
      | skipping =>
          have dull : token.kind.beginsStatement = false := by
            simp [kind, Token.Kind.beginsStatement]
          simp only [move, if_neg inner, dull, Bool.false_eq_true, if_false] at step
          cases step
          exact skipped

/-- Behind tokens that are none or end in a semicolon, the reader stands between statements. -/
theorem behind_closed {tokens : List Token}
    (closed : ∀ last ∈ tokens.getLast?, last.kind = .semicolon)
    : boundary.behind tokens = .boundary := by
  rcases List.eq_nil_or_concat tokens with rfl | ⟨front, last, rfl⟩
  · rfl
  · rw [List.concat_eq_append, behind, List.foldl_append]
    exact next_semicolon _ (closed last (by simp))

end Position

namespace Parse

/-- Tokens that are none or end in a semicolon are read by themselves, and so is what follows. -/
theorem ofTokens_append {first : List Token} (second : List Token)
    (inner : ∀ token ∈ first, token.kind ≠ .endOfInput)
    (closed : ∀ last ∈ first.getLast?, last.kind = .semicolon)
    : ofTokens (first ++ second) = (ofTokens first).append (ofTokens second) := by
  rw [ofTokens, continuing_append .boundary second inner, Position.behind_closed closed]
  rfl

/-- An end of the input behind such tokens adds nothing to them. -/
theorem ofTokens_append_end {first : List Token} {last : Token}
    (inner : ∀ token ∈ first, token.kind ≠ .endOfInput)
    (closed : ∀ last ∈ first.getLast?, last.kind = .semicolon)
    (ends : last.kind = .endOfInput)
    : ofTokens (first ++ [last]) = { ofTokens first with ended := true } := by
  rw [ofTokens_append [last] inner closed, ofTokens.eq_def [last], continuing_boundary_end ends]
  simp [append]

/-- The errors of two parts, the first of which is closed by a semicolon, are those of the first
followed by those of the second; without errors their statements are, too. So the parts are a
program together just when each is one by itself.
-/
theorem semicolon_isolates_errors {first second : List Token} {last : Token}
    (inner : ∀ token ∈ first, token.kind ≠ .endOfInput)
    (closed : ∀ last ∈ first.getLast?, last.kind = .semicolon)
    (ends : last.kind = .endOfInput)
    (ended : ∃ token ∈ second, token.kind = .endOfInput)
    : (ofTokens (first ++ second)).errors
        = (ofTokens (first ++ [last])).errors ++ (ofTokens second).errors
      ∧ ((ofTokens (first ++ second)).errors = [] →
          ∃ before after,
            (ofTokens (first ++ [last])).program = .ok before
            ∧ (ofTokens second).program = .ok after
            ∧ (ofTokens (first ++ second)).program = .ok (before ++ after))
      ∧ ((ofTokens (first ++ second)).errors ≠ [] →
          (ofTokens (first ++ second)).program
            = .error (.malformed
                ((ofTokens (first ++ [last])).errors ++ (ofTokens second).errors))) := by
  have whole := ofTokens_append second inner closed
  have front := ofTokens_append_end inner closed ends
  have secondEnded : (ofTokens second).ended = true := (continuing_ended .boundary second).mpr ended
  have wholeEnded : (ofTokens (first ++ second)).ended = true := by rw [whole]; exact secondEnded
  have frontEnded : (ofTokens (first ++ [last])).ended = true := by rw [front]
  have errors
      : (ofTokens (first ++ second)).errors
        = (ofTokens (first ++ [last])).errors ++ (ofTokens second).errors := by
    rw [whole, front]
    rfl
  refine ⟨errors, ?_, ?_⟩
  · intro clean
    obtain ⟨frontClean, secondClean⟩ := List.append_eq_nil_iff.mp (errors ▸ clean)
    refine ⟨_, _, program_of_errors_nil frontEnded frontClean,
      program_of_errors_nil secondEnded secondClean, ?_⟩
    rw [program_of_errors_nil wholeEnded clean, whole, front]
    rfl
  · intro faulty
    rw [program_of_errors_ne_nil wholeEnded faulty, errors]

/-- `print (- ;` is malformed at its semicolon. The `nil nil ;` behind it is malformed at the second
`nil` and nowhere else, although a parenthesis stands open in front of it.
-/
theorem semicolon_isolates_errors_behind_open_parenthesis
    : let word := fun kind => Token.mk kind .nil .nil 1
      let first := [.printKeyword, .leftParen, .minus, .semicolon].map word
      let second := [.nilKeyword, .nilKeyword, .semicolon, .endOfInput].map word
      (∀ token ∈ first, token.kind ≠ .endOfInput)
      ∧ (∀ last ∈ first.getLast?, last.kind = .semicolon)
      ∧ (word .endOfInput).kind = .endOfInput
      ∧ (∃ token ∈ second, token.kind = .endOfInput)
      ∧ (ofTokens (first ++ second)).errors
          = [⟨word .semicolon, .operand⟩, ⟨word .nilKeyword, .terminator .expression⟩] := by
  intro word first second
  have inner : ∀ token ∈ first, token.kind ≠ .endOfInput := by decide
  have closed : ∀ last ∈ first.getLast?, last.kind = .semicolon := by
    intro last isLast
    cases isLast
    rfl
  have ends : (word .endOfInput).kind = .endOfInput := rfl
  have ended : ∃ token ∈ second, token.kind = .endOfInput := by decide
  exact ⟨inner, closed, ends, ended,
    (semicolon_isolates_errors inner closed ends ended).1.trans rfl⟩

end Parse

end Lox
