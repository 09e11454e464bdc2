import Lox.Diagnostic
import Lox.Proofs.Grammar.Prefixes
import Lox.Proofs.Parse.Faults

/-! Errors stand at the first token that no statement can have.
An attempt that ends with an error has read the beginning of some statement, and no statement begins
with those tokens and the one that the error names.
-/

namespace Lox.Grammar

/-- The partial statement that tokens leave, if they are the beginning of one. -/
def begun? : List Token → Option Partial
  | [] => none
  | token :: rest =>
      match Partial.start token with
      | .extended statement => after? statement rest
      | _ => none

/-- What a token makes of a statement that has been read so far. -/
inductive Meets : List Token → Token → Partial.Step → Prop
  | first {token step} (inner : token.kind ≠ .endOfInput) (h : Partial.start token = step)
    : Meets [] token step
  | later {tokens statement token step} (begun : begun? tokens = some statement)
    (h : statement.feed token = step)
    : Meets tokens token step

/-- The tokens of the statement that the reader is inside of; outside there are none. -/
inductive Heads : Position → List Token → Prop
  | boundary : Heads .boundary []
  | skipping : Heads .skipping []
  | inside {statement tokens} (begun : begun? tokens = some statement)
    : Heads (.inside statement) tokens

-----------------------------------------------------------------------------------------
-- What has been read since a statement began
-----------------------------------------------------------------------------------------

theorem readFrom_after {statement next : Partial} {tokens more : List Token}
    (h : ReadFrom statement tokens)
    (read : after? statement more = some next)
    : ReadFrom next (tokens ++ more) := by
  induction more generalizing statement tokens with
  | nil =>
      cases read
      rwa [List.append_nil]
  | cons token rest ih =>
      rw [after?] at read
      split at read
      · rename_i between step
        have further := ih (h.extend step) read
        rwa [List.append_assoc] at further
      · cases read

theorem readFrom_of_begun {statement : Partial} {tokens : List Token}
    (h : begun? tokens = some statement)
    : ReadFrom statement tokens := by
  cases tokens with
  | nil => cases h
  | cons token rest =>
      rw [begun?] at h
      split at h
      · rename_i entered step
        exact readFrom_after (readFrom_start step) h
      · cases h

/-- No statement begins with the end of the input. -/
theorem ne_endOfInput_of_start {token : Token} {statement : Partial}
    (h : Partial.start token = .extended statement)
    : token.kind ≠ .endOfInput := by
  intro ends
  obtain ⟨expected, step⟩ := (Partial.empty .expression).feed_endOfInput ends
  simp [Partial.start, ends, step] at h

/-- Tokens that begin a statement lead from between statements into it. -/
theorem continuing_of_begun {statement : Partial} {tokens : List Token} (rest : List Token)
    (h : begun? tokens = some statement)
    : Parse.continuing .boundary (tokens ++ rest)
      = Parse.continuing (.inside statement) rest := by
  cases tokens with
  | nil => cases h
  | cons token more =>
      rw [begun?] at h
      split at h
      · rename_i entered step
        rw [List.cons_append, Parse.continuing]
        simp only [Position.move, if_neg (ne_endOfInput_of_start step), step,
          Position.Move.ofStep]
        exact continuing_after rest h
      · cases h

theorem begun_append {statement next : Partial} {tokens : List Token} {token : Token}
    (h : begun? tokens = some statement)
    (step : statement.feed token = .extended next)
    : begun? (tokens ++ [token]) = some next := by
  cases tokens with
  | nil => cases h
  | cons first rest =>
      rw [begun?] at h
      split at h
      · rename_i entered start
        rw [List.cons_append, begun?]
        simp only [start]
        rw [after?_append _ h, after?_cons _ step]
        rfl
      · cases h

-----------------------------------------------------------------------------------------
-- What a token makes of it
-----------------------------------------------------------------------------------------

variable {tokens : List Token} {token : Token}

theorem Meets.begun {next : Partial} (h : Meets tokens token (.extended next))
    : begun? (tokens ++ [token]) = some next := by
  cases h with
  | first inner step =>
      rw [List.nil_append, begun?]
      simp only [step]
      rfl
  | later begun step => exact begun_append begun step

theorem Meets.statement {statement : Stmt} (h : Meets tokens token (.completed statement))
    : Statement (tokens ++ [token]) statement := by
  cases h with
  | first inner step => exact statement_of_start step
  | later begun step => exact (readFrom_of_begun begun).complete step

/-- Whatever the token is, the statement could have been completed before it. -/
theorem Meets.unfinished {step : Partial.Step} (h : Meets tokens token step)
    : Unfinished tokens := by
  cases h with
  | first => exact readFrom_empty.unfinished
  | later begun => exact (readFrom_of_begun begun).unfinished

/-- No statement goes on with a token that does not fit: the reader would report it. -/
theorem Meets.not_begins {expected : Expected} (h : Meets tokens token (.misfit expected))
    : ¬Begins (tokens ++ [token]) := by
  intro begins
  obtain ⟨rest, clean⟩ := begins.exists_clean
  rw [List.append_assoc, List.singleton_append] at clean
  cases h with
  | first inner step =>
      simp [Parse.continuing, Position.move, inner, step, Position.Move.ofStep] at clean
  | later begun step =>
      rw [continuing_of_begun _ begun, Parse.continuing] at clean
      simp only [Position.move, step, Position.Move.ofStep] at clean
      split at clean <;> cases clean

/-- At every position a token ends the reading, is skipped, or is met by a statement. -/
theorem Heads.move {position : Position} (h : Heads position tokens) (token : Token)
    : position.move token = .finish
      ∨ position.move token = .advance (.afterSkipped token)
      ∨ ∃ step, position.move token = .ofStep step ∧ Meets tokens token step := by
  cases h with
  | inside begun => exact .inr (.inr ⟨_, rfl, .later begun rfl⟩)
  | boundary =>
      by_cases ends : token.kind = .endOfInput
      · exact .inl (by rw [Position.move, if_pos ends])
      · exact .inr (.inr ⟨_, by rw [Position.move, if_neg ends], .first ends rfl⟩)
  | skipping =>
      by_cases ends : token.kind = .endOfInput
      · exact .inl (by rw [Position.move, if_pos ends])
      · by_cases begins : token.kind.beginsStatement
        · exact .inr (.inr ⟨_, by rw [Position.move, if_neg ends, if_pos begins], .first ends rfl⟩)
        · exact .inr (.inl (by rw [Position.move, if_neg ends, if_neg begins]))

-----------------------------------------------------------------------------------------
-- Attempts
-----------------------------------------------------------------------------------------

theorem extract_self (tokens : List Token) (index : Nat) : tokens.extract index index = [] := by
  simp

theorem extract_succ {first index : Nat} (order : first ≤ index)
    (here : tokens[index]? = some token)
    : tokens.extract first (index + 1) = tokens.extract first index ++ [token] := by
  have within : first + (index - first) = index := by omega
  rw [List.extract_eq_take_drop, List.extract_eq_take_drop, Nat.sub_add_comm order,
    List.take_add_one, List.getElem?_drop, within, here]
  rfl

theorem heads_afterSkipped (tokens : List Token) (token : Token) (first index : Nat)
    : Heads (.afterSkipped token)
        (tokens.extract ((Position.afterSkipped token).firstAt first index) index) := by
  unfold Position.afterSkipped
  split
  · exact extract_self tokens index ▸ .boundary
  · exact extract_self tokens index ▸ .skipping

/-- The step of a statement that an attempt comes to. -/
def stepOf : Except SyntaxError Stmt → Partial.Step
  | .ok statement => .completed statement
  | .error error => .misfit error.expected

/-- The reader always has the tokens of the statement that it is inside of behind it. -/
theorem Heads.next {position : Position} {first index : Nat}
    (order : position.firstAt first index ≤ index)
    (h : Heads position (tokens.extract (position.firstAt first index) index))
    (here : tokens[index]? = some token)
    (inner : token.kind ≠ .endOfInput)
    : Heads (position.next token)
        (tokens.extract
          ((position.next token).firstAt (position.firstAt first index) (index + 1))
          (index + 1)) := by
  unfold Position.next
  rcases h.move token with finish | skipped | ⟨step, move, meets⟩
  · exact absurd (Position.endOfInput_of_finish finish) inner
  · rw [skipped]
    exact heads_afterSkipped tokens token _ _
  · rw [move]
    cases step with
    | extended next => exact .inside (extract_succ order here ▸ meets.begun)
    | completed => exact extract_self tokens (index + 1) ▸ .boundary
    | misfit => exact heads_afterSkipped tokens token _ _

/-- An attempt ends where a token completes the statement that it has read, or does not fit. -/
theorem Heads.outcome {position : Position} {outcome : Except SyntaxError Stmt}
    (h : Heads position tokens)
    (found : position.outcome? token = some outcome)
    : Meets tokens token (stepOf outcome) := by
  unfold Position.outcome? at found
  rcases h.move token with finish | skipped | ⟨step, move, meets⟩
  · rw [finish] at found
    cases found
  · rw [skipped] at found
    cases found
  · rw [move] at found
    cases step <;> cases found <;> exact meets

/-- Each attempt meets the token with which it ends behind the tokens that it has read. -/
theorem meets_of_attempts {attempt : Attempt} (member : attempt ∈ Parse.attempts tokens)
    : ∃ token,
        tokens[attempt.stop]? = some token
        ∧ Meets (tokens.extract attempt.first attempt.stop) token (stepOf attempt.outcome) := by
  refine Parse.forall_attemptsFrom tokens
    (fun first index position =>
      first ≤ index ∧ Heads position (tokens.extract (position.firstAt first index) index))
    (fun attempt =>
      ∃ token,
        tokens[attempt.stop]? = some token
        ∧ Meets (tokens.extract attempt.first attempt.stop) token (stepOf attempt.outcome))
    ?_ ?_ ⟨Nat.le_refl 0, extract_self tokens 0 ▸ .boundary⟩ rfl attempt member
  · intro first index position token ⟨bound, heads⟩ here inner
    have order := position.firstAt_le bound
    exact ⟨Nat.le_succ_of_le order, heads.next order here inner⟩
  · intro first index position token outcome ⟨_, heads⟩ here found
    exact ⟨token, here, heads.outcome found⟩

-----------------------------------------------------------------------------------------
-- Errors
-----------------------------------------------------------------------------------------

theorem extract_append {first middle last : Nat} (low : first ≤ middle) (high : middle ≤ last)
    : tokens.extract first last = tokens.extract first middle ++ tokens.extract middle last := by
  have parts : last - first = (middle - first) + (last - middle) := by omega
  have behind : first + (middle - first) = middle := by omega
  simp only [List.extract_eq_take_drop]
  rw [parts, List.take_add, List.drop_drop, behind]

/-- Once an attempt has ended, no statement goes on behind what it has read. -/
theorem not_unfinished_of_stop {attempt : Attempt} {last : Nat}
    (member : attempt ∈ Parse.attempts tokens)
    (ended : attempt.stop < last)
    : ¬Unfinished (tokens.extract attempt.first last) := by
  obtain ⟨token, here, meets⟩ := meets_of_attempts member
  have order := (Parse.stop_of_attempts member).1
  rw [extract_append (Nat.le_succ_of_le order) ended, extract_succ order here]
  cases found : attempt.outcome with
  | ok statement =>
      rw [found] at meets
      exact meets.statement.not_unfinished _
  | error error =>
      rw [found] at meets
      intro unfinished
      exact meets.not_begins unfinished.begins.of_append

/-- No statement ends with the end of the input. -/
theorem Statement.ne_endOfInput {statement : Stmt} (h : Statement (tokens ++ [token]) statement)
    : token.kind ≠ .endOfInput := by
  obtain ⟨body, terminator, same, kind, -⟩ := h.ends
  obtain ⟨-, last⟩ := List.append_inj' same rfl
  obtain rfl := List.cons.inj last |>.1
  simp [kind]

theorem place_eq_end_iff (token : Token)
    : Diagnostic.place token = " at end" ↔ token.kind = .endOfInput := by
  rw [Diagnostic.place]
  split
  · rename_i ends
    exact iff_of_true rfl ends
  · rename_i inner
    refine iff_of_false ?_ inner
    intro same
    have texts := congrArg Text.characters same
    simp at texts

/-- The token of an error is the first one that no statement can have there. -/
theorem impossible_at_stop {attempt : Attempt} {error : SyntaxError}
    (member : attempt ∈ Parse.attempts tokens)
    (found : attempt.error? = some error)
    : tokens[attempt.stop]? = some error.token
      ∧ attempt.first ≤ attempt.stop
      ∧ Unfinished (tokens.extract attempt.first attempt.stop)
      ∧ ¬Begins (tokens.extract attempt.first (attempt.stop + 1)) := by
  obtain ⟨order, named⟩ := Parse.stop_of_attempts member
  obtain ⟨token, here, meets⟩ := meets_of_attempts member
  rw [Attempt.error?_eq_some_iff.mp found] at meets
  exact ⟨named error found, order, meets.unfinished, extract_succ order here ▸ meets.not_begins⟩

/-- An attempt fails at the end just when it could have been completed there. -/
theorem fails_at_end_iff {attempt : Attempt} (member : attempt ∈ Parse.attempts tokens)
    : (∃ error, attempt.error? = some error ∧ Diagnostic.place error.token = " at end")
      ↔ Unfinished (tokens.extract attempt.first (Parse.firstEnd tokens)) := by
  obtain ⟨-, named⟩ := Parse.stop_of_attempts member
  obtain ⟨token, here, meets⟩ := meets_of_attempts member
  constructor
  · rintro ⟨error, found, place⟩
    have ends := (place_eq_end_iff error.token).mp place
    have reached : Parse.firstEnd tokens ≤ attempt.stop := by
      apply Nat.le_of_not_lt
      intro before
      exact Parse.ne_endOfInput_of_lt before (named error found) ends
    rw [Nat.le_antisymm reached (Parse.stop_le member)]
    exact meets.unfinished
  · intro unfinished
    have reached : attempt.stop = Parse.firstEnd tokens := by
      apply Nat.le_antisymm (Parse.stop_le member)
      apply Nat.le_of_not_lt
      intro before
      exact not_unfinished_of_stop member before unfinished
    have ends : token.kind = .endOfInput := Parse.kind_firstEnd (reached ▸ here)
    cases outcome : attempt.outcome with
    | ok statement =>
        rw [outcome] at meets
        exact absurd ends meets.statement.ne_endOfInput
    | error error =>
        have found := Attempt.error?_eq_some_iff.mpr outcome
        have same : token = error.token := Option.some.inj (here.symm.trans (named error found))
        exact ⟨error, found, (place_eq_end_iff _).mpr (same ▸ ends)⟩

/-- Every error stands at the first token at which its statement became impossible: what the attempt
has read is a proper part of a statement, and no statement begins with it and the token of the
error. The error is reported at the end just when the tokens up to the end of the input could still
have been completed.
-/
theorem errors_stand_at_first_impossible_token (tokens : List Token)
    : (Parse.ofTokens tokens).errors = (Parse.attempts tokens).filterMap Attempt.error?
      ∧ (∀ attempt ∈ Parse.attempts tokens, ∀ error, attempt.error? = some error →
          tokens[attempt.stop]? = some error.token
          ∧ attempt.first ≤ attempt.stop
          ∧ Unfinished (tokens.extract attempt.first attempt.stop)
          ∧ ¬Begins (tokens.extract attempt.first (attempt.stop + 1)))
      ∧ ∀ attempt ∈ Parse.attempts tokens,
          (∃ error,
            attempt.error? = some error ∧ Diagnostic.place error.token = " at end")
          ↔ Unfinished (tokens.extract attempt.first (Parse.firstEnd tokens)) :=
  ⟨Parse.errors_eq tokens, fun _ member _ found => impossible_at_stop member found,
    fun _ member => fails_at_end_iff member⟩

/-- A semicolon inside a parenthesis fits into no statement, but a closing parenthesis would have;
the sign behind it lacks an operand only because the input is over.
-/
theorem errors_stand_at_first_impossible_token_of_open_parenthesis
    : let word := fun kind => Token.mk kind .nil .nil 1
      let tokens :=
        [.printKeyword, .leftParen, .nilKeyword, .semicolon, .minus, .endOfInput].map word
      Parse.attempts tokens
        = [⟨0, 3, .error ⟨word .semicolon, .closing⟩⟩, ⟨4, 5, .error ⟨word .endOfInput, .operand⟩⟩]
      ∧ Unfinished ([.printKeyword, .leftParen, .nilKeyword].map word)
      ∧ ¬Begins ([.printKeyword, .leftParen, .nilKeyword, .semicolon].map word)
      ∧ Unfinished [word .minus] := by
  intro word tokens
  have tried
      : Parse.attempts tokens
        = [⟨0, 3, .error ⟨word .semicolon, .closing⟩⟩,
          ⟨4, 5, .error ⟨word .endOfInput, .operand⟩⟩] :=
    rfl
  obtain ⟨-, impossible, atEnd⟩ := errors_stand_at_first_impossible_token tokens
  obtain ⟨-, -, unfinished, none⟩ := impossible _ (tried ▸ List.mem_cons_self) _ rfl
  have last := (atEnd _ (tried ▸ List.mem_cons_of_mem _ List.mem_cons_self)).mp ⟨_, rfl, rfl⟩
  exact ⟨tried, unfinished, none, last⟩

end Lox.Grammar
