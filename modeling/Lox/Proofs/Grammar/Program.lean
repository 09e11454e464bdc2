import Lox.Execute
import Lox.Proofs.Grammar.Completeness
import Lox.Proofs.Grammar.Soundness
import Lox.Proofs.Parse.Moves

/-! The reader accepts exactly the grammar.
Tokens up to the end of the input are read as a program just when the program derives them, so no
tokens have two derivations; otherwise they are malformed.
-/

namespace Lox.Grammar

/-- The tokens that were read since the last boundary. -/
inductive Since : Position → List Token → Prop
  | boundary : Since .boundary []
  | inside {statement tokens} (h : ReadFrom statement tokens) : Since (.inside statement) tokens

theorem readFrom_empty : ReadFrom (.empty .expression) [] :=
  .intro .expression .nil .none

/-- The first token of a statement is remembered. -/
theorem readFrom_start {token : Token} {next : Partial}
    (h : Partial.start token = .extended next)
    : ReadFrom next [token] := by
  unfold Partial.start at h
  split at h
  · rename_i kind
    cases h
    exact .intro (.print kind) .nil .none
  · exact readFrom_empty.extend h

theorem statement_of_start {token : Token} {statement : Stmt}
    (h : Partial.start token = .completed statement)
    : Statement [token] statement := by
  unfold Partial.start at h
  split at h
  · cases h
  · exact readFrom_empty.complete h

/-- A token that moves the reader on is remembered. -/
theorem Since.advance {position next : Position} {tokens : List Token} {token : Token}
    (h : Since position tokens)
    (step : position.move token = .advance next)
    : Since next (tokens ++ [token]) := by
  cases h with
  | boundary =>
      simp only [Position.move] at step
      split at step
      · cases step
      · obtain ⟨statement, found, rfl⟩ := Position.Move.extended_of_ofStep step
        exact .inside (readFrom_start found)
  | inside read =>
      obtain ⟨statement, found, rfl⟩ := Position.Move.extended_of_ofStep step
      exact .inside (read.extend found)

/-- A token that completes a statement completes a derivation. -/
theorem Since.complete {position : Position} {tokens : List Token} {token : Token}
    {statement : Stmt}
    (h : Since position tokens)
    (step : position.move token = .complete statement)
    : Statement (tokens ++ [token]) statement := by
  cases h with
  | boundary =>
      simp only [Position.move] at step
      split at step
      · cases step
      · exact statement_of_start (Position.Move.completed_of_ofStep step)
  | inside read => exact read.complete (Position.Move.completed_of_ofStep step)

/-- What is read without an error is derived, by induction on the tokens that are still to come. -/
theorem Since.program {position : Position} {consumed body : List Token} {last : Token}
    (h : Since position consumed)
    (inner : ∀ token ∈ body, token.kind ≠ .endOfInput)
    (ends : last.kind = .endOfInput)
    (clean : (Parse.continuing position (body ++ [last])).errors = [])
    : Program (consumed ++ body) (Parse.continuing position (body ++ [last])).statements := by
  induction body generalizing position consumed with
  | nil =>
      rw [List.nil_append, Parse.continuing] at clean ⊢
      cases h with
      | boundary => simpa [Position.move, ends] using Program.nil
      | @inside statement =>
          obtain ⟨expected, step⟩ := statement.feed_endOfInput ends
          simp [Position.move, step, Position.Move.ofStep, ends] at clean
  | cons token rest ih =>
      have more : token.kind ≠ .endOfInput := inner token (by simp)
      have innerRest : ∀ token ∈ rest, token.kind ≠ .endOfInput :=
        fun token member => inner token (by simp [member])
      rw [List.cons_append, Parse.continuing] at clean ⊢
      cases step : position.move token with
      | advance next =>
          simp only [step] at clean ⊢
          simpa using ih (h.advance step) innerRest clean
      | complete statement =>
          simp only [step] at clean ⊢
          simpa using Program.cons (h.complete step) (ih .boundary innerRest clean)
      | misfit expected => simp [step, more] at clean
      | finish => exact absurd (Position.endOfInput_of_finish step) more

-----------------------------------------------------------------------------------------
-- The reader decides the grammar
-----------------------------------------------------------------------------------------

/-- Tokens that end the input last are read as a program just when the program derives them. -/
theorem program_ok_iff {body : List Token} {last : Token}
    (inner : ∀ token ∈ body, token.kind ≠ .endOfInput)
    (ends : last.kind = .endOfInput)
    (statements : List Stmt)
    : (Parse.ofTokens (body ++ [last])).program = .ok statements ↔ Program body statements := by
  have ended : (Parse.ofTokens (body ++ [last])).ended = true :=
    (Parse.continuing_ended .boundary _).mpr ⟨last, by simp, ends⟩
  constructor
  · intro h
    simp only [Parse.program, ended, Bool.not_true, Bool.false_eq_true, if_false] at h
    split at h
    · rename_i clean
      cases h
      exact Since.boundary.program inner ends (List.isEmpty_iff.mp clean)
    · cases h
  · intro h
    simp [Parse.ofTokens, h.continuing ends, Parse.program]

/-- Tokens with an end of the input among them are a program or malformed. -/
theorem malformed_of_not_ok {tokens : List Token}
    (ended : ∃ token ∈ tokens, token.kind = .endOfInput)
    (none : ∀ statements, (Parse.ofTokens tokens).program ≠ .ok statements)
    : ∃ errors, errors ≠ [] ∧ (Parse.ofTokens tokens).program = .error (.malformed errors) := by
  have reached : (Parse.ofTokens tokens).ended = true :=
    (Parse.continuing_ended .boundary tokens).mpr ended
  by_cases clean : (Parse.ofTokens tokens).errors.isEmpty
  · exact absurd (by simp [Parse.program, reached, clean])
      (none (Parse.ofTokens tokens).statements)
  · refine ⟨(Parse.ofTokens tokens).errors, ?_, by simp [Parse.program, reached, clean]⟩
    simpa using clean

/-- No tokens have two derivations: reading them gives the one tree. -/
theorem Program.unique {tokens : List Token} {first second : List Stmt}
    (one : Program tokens first) (other : Program tokens second)
    : first = second := by
  have ends : (⟨.endOfInput, .nil, .nil, 0⟩ : Token).kind = .endOfInput := rfl
  have same := (one.continuing ends).symm.trans (other.continuing ends)
  exact congrArg Parse.statements same

/-- Every expression of a derived program keeps precedence and associativity. -/
theorem Program.layered {tokens : List Token} {statements : List Stmt}
    (h : Program tokens statements)
    : ∀ statement ∈ statements, Layered statement.expr := by
  induction h with
  | nil =>
      intro statement member
      cases member
  | cons head _ ih =>
      intro statement member
      rcases List.mem_cons.mp member with rfl | later
      · cases head with
        | expression derived | print _ derived => exact derived.layered
      · exact ih statement later

/-- The reader accepts exactly the tokens that a program derives, and builds that program; all other
tokens are malformed. No tokens have two programs, and each binary operator of a program is
left-associative and keeps to the levels of precedence.
-/
theorem reader_decides_grammar {body : List Token} {last : Token}
    (inner : ∀ token ∈ body, token.kind ≠ .endOfInput)
    (ends : last.kind = .endOfInput)
    : (∀ statements,
        (Parse.ofTokens (body ++ [last])).program = .ok statements ↔ Program body statements)
      ∧ ((¬∃ statements, Program body statements)
        → ∃ errors,
            errors ≠ []
            ∧ (Parse.ofTokens (body ++ [last])).program = .error (.malformed errors))
      ∧ (∀ first second, Program body first → Program body second → first = second)
      ∧ ∀ statements, Program body statements →
          ∀ statement ∈ statements, Layered statement.expr := by
  refine ⟨program_ok_iff inner ends, ?_, fun _ _ => Program.unique, fun _ => Program.layered⟩
  intro none
  apply malformed_of_not_ok ⟨last, by simp, ends⟩
  intro statements read
  exact none ⟨statements, (program_ok_iff inner ends statements).mp read⟩

/-- Two subtractions fold to the left, and a product behind them binds more tightly. -/
theorem reader_decides_two_subtractions
    : let word := fun kind => Token.mk kind .nil .nil 1
      let body :=
        [.trueKeyword, .minus, .nilKeyword, .minus, .falseKeyword, .star, .trueKeyword,
          .semicolon].map word
      let truth := Expr.literal (.boolean true)
      let product := Expr.binary (.literal (.boolean false)) (word .star) truth
      (∀ token ∈ body, token.kind ≠ .endOfInput)
      ∧ Program body
          [.expression
            (.binary (.binary truth (word .minus) (.literal .nil)) (word .minus) product)] := by
  intro word body truth product
  have inner : ∀ token ∈ body, token.kind ≠ .endOfInput := by decide
  have ends : (word .endOfInput).kind = .endOfInput := rfl
  exact ⟨inner, ((reader_decides_grammar inner ends).1 _).mp rfl⟩

end Lox.Grammar
