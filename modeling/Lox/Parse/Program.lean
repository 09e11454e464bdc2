import Lox.Parse.Partial

/-! Reading programs from tokens.
The reader is always at a boundary between statements, inside a statement, or skipping the rest of a
malformed one. A malformed statement is reported once. After it the reader skips to the end of the
statement or to a word that begins another, and goes on from there.
-/

namespace Lox

/-- A token that does not fit, and what is needed in its place. -/
structure SyntaxError where
  token : Token
  expected : Expected

/-- Where the reader is. -/
inductive Position where
  | boundary
  | inside (statement : Partial)
  | skipping

namespace Position

/-- What one token does to the reader. -/
inductive Move where
  | advance (next : Position)
  | complete (statement : Stmt)
  | misfit (expected : Expected)
  | finish

def Move.ofStep : Partial.Step → Move
  | .extended statement => .advance (.inside statement)
  | .completed statement => .complete statement
  | .misfit expected => .misfit expected

/-- The position after a token that is skipped: a semicolon ends the malformed statement. -/
def afterSkipped (token : Token) : Position :=
  if token.kind = .semicolon then .boundary else .skipping

/-- What a token does at a position. -/
def move (position : Position) (token : Token) : Move :=
  match position with
  | .inside statement => .ofStep (statement.feed token)
  | .boundary =>
      if token.kind = .endOfInput then .finish
      else .ofStep (Partial.start token)
  | .skipping =>
      if token.kind = .endOfInput then .finish
      else if token.kind.beginsStatement then .ofStep (Partial.start token)
      else .advance (afterSkipped token)

end Position

/-- What was read: the well-formed statements, the errors, and whether an end of the input was found
among the tokens.
-/
structure Parse where
  statements : List Stmt
  errors : List SyntaxError
  ended : Bool

namespace Parse

/-- Reads the tokens from a position on. Nothing after the first end of the input is read. -/
def continuing (position : Position) : List Token → Parse
  | [] => ⟨[], [], false⟩
  | token :: rest =>
      match position.move token with
      | .advance next => continuing next rest
      | .complete statement =>
          let after := continuing .boundary rest
          { after with statements := statement :: after.statements }
      | .misfit expected =>
          if token.kind = .endOfInput then ⟨[], [⟨token, expected⟩], true⟩
          else
            let after := continuing (.afterSkipped token) rest
            { after with errors := ⟨token, expected⟩ :: after.errors }
      | .finish => ⟨[], [], true⟩

/-- Reads a whole program. -/
def ofTokens (tokens : List Token) : Parse :=
  continuing .boundary tokens

/-- Why tokens make no program. -/
inductive Failure where
  /-- The tokens are over before an end of the input. -/
  | exhausted
  | malformed (errors : List SyntaxError)

def Failure.message : Failure → String
  | .exhausted => "list index out of range"
  | .malformed errors => toString errors.length ++ " syntax error(s)"

/-- The program, if every statement is well-formed and the end was found. -/
def program (parse : Parse) : Except Failure (List Stmt) :=
  if !parse.ended then .error .exhausted
  else if parse.errors.isEmpty then .ok parse.statements
  else .error (.malformed parse.errors)

end Parse

end Lox
