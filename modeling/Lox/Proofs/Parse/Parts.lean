import Lox.Proofs.Parse.Moves

/-! Reading in parts.
As long as no end of the input comes, each token leads to one next position, and what is read from
there on does not depend on how the position was reached. So the parse of two parts is the parse of
the first one, followed by that of the second from where the first one led.
-/

namespace Lox

namespace Position

/-- Where the reader stands behind a token. The end of the input moves it nowhere. -/
def next (position : Position) (token : Token) : Position :=
  match position.move token with
  | .advance next => next
  | .complete _ => .boundary
  | .misfit _ => .afterSkipped token
  | .finish => position

/-- Where the reader stands behind tokens. -/
def behind (position : Position) (tokens : List Token) : Position :=
  tokens.foldl next position

end Position

namespace Parse

/-- One parse after another. -/
def append (first second : Parse) : Parse :=
  ⟨first.statements ++ second.statements, first.errors ++ second.errors, second.ended⟩

theorem append_assoc (first second third : Parse)
    : (first.append second).append third = first.append (second.append third) := by
  simp [append]

/-- One token more is read first, and the others from behind it. -/
theorem continuing_cons (position : Position) {token : Token} (rest : List Token)
    (inner : token.kind ≠ .endOfInput)
    : continuing position (token :: rest)
      = (continuing position [token]).append (continuing (position.next token) rest) := by
  rw [continuing, continuing, Position.next]
  cases step : position.move token with
  | advance | complete => simp [continuing, append]
  | misfit => simp [continuing, append, inner]
  | finish => exact absurd (Position.endOfInput_of_finish step) inner

/-- Tokens without an end of the input are read before all others, by induction on them. -/
theorem continuing_append (position : Position) {first : List Token} (second : List Token)
    (inner : ∀ token ∈ first, token.kind ≠ .endOfInput)
    : continuing position (first ++ second)
      = (continuing position first).append (continuing (position.behind first) second) := by
  induction first generalizing position with
  | nil => rfl
  | cons token rest ih =>
      obtain ⟨head, tail⟩ := List.forall_mem_cons.mp inner
      rw [List.cons_append, continuing_cons position (rest ++ second) head,
        ih (position.next token) tail, continuing_cons position rest head, append_assoc]
      rfl

/-- Nothing behind an end of the input is read. -/
theorem continuing_end (position : Position) {last : Token} (after : List Token)
    (ends : last.kind = .endOfInput)
    : continuing position (last :: after) = continuing position [last] := by
  rw [continuing, continuing]
  rcases position.move_endOfInput ends with step | ⟨expected, step⟩ <;> simp [step, ends]

/-- Between statements an end of the input adds nothing. -/
theorem continuing_boundary_end {last : Token} (ends : last.kind = .endOfInput)
    : continuing .boundary [last] = ⟨[], [], true⟩ := by
  simp [continuing, Position.move, ends]

/-- A parse without errors is a program, if an end of the input was found. -/
theorem program_of_errors_nil {parse : Parse} (ended : parse.ended = true)
    (clean : parse.errors = [])
    : parse.program = .ok parse.statements := by
  simp [program, ended, clean]

/-- A parse with errors is malformed, if an end of the input was found. -/
theorem program_of_errors_ne_nil {parse : Parse} (ended : parse.ended = true)
    (faulty : parse.errors ≠ [])
    : parse.program = .error (.malformed parse.errors) := by
  simp [program, ended, faulty]

end Parse

end Lox
