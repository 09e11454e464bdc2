import Lox.Proofs.Parse.Parts

/-! Attempts at statements, and where they stand among the tokens.
An attempt starts at a token between statements, or at one that ends the skipping of a malformed
statement. It ends with a statement, or with an error at the first token that does not fit.
-/

namespace Lox

/-- One attempt at a statement: the index of its first token, that of the token with which it ends,
and the statement or error that it comes to.
-/
structure Attempt where
  first : Nat
  stop : Nat
  outcome : Except SyntaxError Stmt

namespace Attempt

def statement? (attempt : Attempt) : Option Stmt :=
  match attempt.outcome with
  | .ok statement => some statement
  | .error _ => none

def error? (attempt : Attempt) : Option SyntaxError :=
  match attempt.outcome with
  | .ok _ => none
  | .error error => some error

theorem error?_eq_some_iff {attempt : Attempt} {error : SyntaxError}
    : attempt.error? = some error ↔ attempt.outcome = .error error := by
  rw [error?]
  cases attempt.outcome <;> simp

end Attempt

namespace Position

/-- What an attempt comes to at a token, if it ends there. -/
def outcome? (position : Position) (token : Token) : Option (Except SyntaxError Stmt) :=
  match position.move token with
  | .complete statement => some (.ok statement)
  | .misfit expected => some (.error ⟨token, expected⟩)
  | .advance _ | .finish => none

/-- Where the attempt starts that the token at an index belongs to. Inside a statement it started
before.
-/
def firstAt (first index : Nat) : Position → Nat
  | .inside _ => first
  | .boundary | .skipping => index

theorem firstAt_le {first index : Nat} (position : Position) (bound : first ≤ index)
    : position.firstAt first index ≤ index := by
  cases position with
  | inside => exact bound
  | boundary | skipping => exact Nat.le_refl index

end Position

namespace Parse

/-- The attempts of the reader from a position on. The next token has the given index, and a
statement that it continues started at `first`.
-/
def attemptsFrom (first index : Nat) (position : Position) : List Token → List Attempt
  | [] => []
  | token :: rest =>
      let first := position.firstAt first index
      let ended := (position.outcome? token).map (Attempt.mk first index)
      let later :=
        if token.kind = .endOfInput then []
        else attemptsFrom first (index + 1) (position.next token) rest
      ended.toList ++ later

/-- The attempts of the reader at statements, in their order. -/
def attempts (tokens : List Token) : List Attempt :=
  attemptsFrom 0 0 .boundary tokens

-----------------------------------------------------------------------------------------
-- A parse is what its attempts come to
-----------------------------------------------------------------------------------------

theorem continuing_singleton (position : Position) (token : Token) (first index : Nat)
    : (continuing position [token]).statements
        = ((position.outcome? token).map (Attempt.mk first index)).toList.filterMap
            Attempt.statement?
      ∧ (continuing position [token]).errors
        = ((position.outcome? token).map (Attempt.mk first index)).toList.filterMap
            Attempt.error? := by
  rw [continuing, Position.outcome?]
  cases position.move token with
  | misfit expected =>
      by_cases ends : token.kind = .endOfInput <;>
        simp [continuing, ends, Attempt.statement?, Attempt.error?]
  | _ => simp [continuing, Attempt.statement?, Attempt.error?]

/-- The statements and errors of a parse are those of its attempts, by induction on the tokens. -/
theorem continuing_eq_attempts (first index : Nat) (position : Position) (tokens : List Token)
    : (continuing position tokens).statements
        = (attemptsFrom first index position tokens).filterMap Attempt.statement?
      ∧ (continuing position tokens).errors
        = (attemptsFrom first index position tokens).filterMap Attempt.error? := by
  induction tokens generalizing first index position with
  | nil => exact ⟨rfl, rfl⟩
  | cons token rest ih =>
      obtain ⟨statements, errors⟩ :=
        continuing_singleton position token (position.firstAt first index) index
      by_cases ends : token.kind = .endOfInput
      · rw [continuing_end position rest ends]
        simpa only [attemptsFrom, if_pos ends, List.append_nil] using ⟨statements, errors⟩
      · obtain ⟨laterStatements, laterErrors⟩ :=
          ih (position.firstAt first index) (index + 1) (position.next token)
        simp only [continuing_cons position rest ends, append, statements, errors,
          laterStatements, laterErrors, attemptsFrom, if_neg ends, List.filterMap_append,
          and_self]

theorem statements_eq (tokens : List Token)
    : (ofTokens tokens).statements = (attempts tokens).filterMap Attempt.statement? :=
  (continuing_eq_attempts 0 0 .boundary tokens).1

theorem errors_eq (tokens : List Token)
    : (ofTokens tokens).errors = (attempts tokens).filterMap Attempt.error? :=
  (continuing_eq_attempts 0 0 .boundary tokens).2

-----------------------------------------------------------------------------------------
-- What holds of all attempts
-----------------------------------------------------------------------------------------

/-- An invariant of the reader that each token keeps up to the end of the input says of every
attempt what it says at the token with which the attempt ends. By induction on the tokens that are
still to come.
-/
theorem forall_attemptsFrom (all : List Token) (invariant : Nat → Nat → Position → Prop)
    (such : Attempt → Prop)
    (step
      : ∀ {first index position token},
          invariant first index position
          → all[index]? = some token
          → token.kind ≠ .endOfInput
          → invariant (position.firstAt first index) (index + 1) (position.next token))
    (ending
      : ∀ {first index position token outcome},
          invariant first index position
          → all[index]? = some token
          → position.outcome? token = some outcome
          → such ⟨position.firstAt first index, index, outcome⟩)
    {first index : Nat} {position : Position} {tokens : List Token}
    (holds : invariant first index position)
    (rest : all.drop index = tokens)
    : ∀ attempt ∈ attemptsFrom first index position tokens, such attempt := by
  induction tokens generalizing first index position with
  | nil =>
      intro attempt member
      cases member
  | cons token later ih =>
      have here : all[index]? = some token := by
        rw [← List.head?_drop, rest, List.head?_cons]
      have behind : all.drop (index + 1) = later := by
        rw [← List.drop_drop, rest, List.drop_one, List.tail_cons]
      intro attempt member
      rcases List.mem_append.mp member with ended | after
      · obtain ⟨outcome, found, rfl⟩ := Option.map_eq_some_iff.mp (Option.mem_toList.mp ended)
        exact ending holds here found
      · split at after
        · cases after
        · rename_i inner
          exact ih (step holds here inner) behind attempt after

end Parse

end Lox
