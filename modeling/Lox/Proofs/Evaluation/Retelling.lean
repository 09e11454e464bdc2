import Lox.Execute
import Lox.Proofs.Tree.Replacement

/-! Runs that are told in another way.
A retelling puts other tokens in place of operators, and for each note the notes that are to stand
in its place. A program with other operators, or at another level of detail, then runs as the
retelling of its run says.
-/

namespace Lox

/-- The note with another token in place of each operator. -/
def Note.mapTokens (change : Token → Token) : Note → Note
  | .dispatch kind left right => .dispatch kind left right
  | .unary operator operand result => .unary (change operator) operand result
  | .binary operator left right result => .binary (change operator) left right result
  | .printed value => .printed value
  | .discarded value => .discarded value
  | .stopped error => .stopped ⟨change error.token, error.fault⟩

/-- Another way to tell a run. -/
structure Retelling where
  token : Token → Token
  notes : Note → List Note

namespace Retelling

variable {α β : Type}

def error (retelling : Retelling) (error : RuntimeError) : RuntimeError :=
  ⟨retelling.token error.token, error.fault⟩

def traced (retelling : Retelling) (traced : Traced α) : Traced α :=
  ⟨traced.notes.flatMap retelling.notes, traced.result.mapError retelling.error⟩

def event (retelling : Retelling) : Event → List Event
  | .note taken => (retelling.notes taken).map .note
  | .prompt => [.prompt]
  | .line text => [.line text]

def stop (retelling : Retelling) : Stop → Stop
  | .failed error => .failed (retelling.error error)
  | .unprintable value => .unprintable value

def run (retelling : Retelling) (run : Run) : Run :=
  ⟨run.events.flatMap retelling.event, run.stop.map retelling.stop⟩

/-- What is noted at one level, told again, is what is noted at the other one with the other tokens.
These are of the same kinds.
-/
structure Suits (retelling : Retelling) (level other : Nat) : Prop where
  kind : ∀ token, (retelling.token token).kind = token.kind
  notes : ∀ note : Note,
    (note.mapTokens retelling.token).takenAt other = (note.takenAt level).flatMap retelling.notes

-----------------------------------------------------------------------------------------
-- Evaluation
-----------------------------------------------------------------------------------------

theorem traced_ok (retelling : Retelling) (notes : List Note) (value : α)
    : retelling.traced ⟨notes, .ok value⟩ = ⟨notes.flatMap retelling.notes, .ok value⟩ :=
  rfl

theorem traced_error (retelling : Retelling) (notes : List Note) (error : RuntimeError)
    : retelling.traced (⟨notes, .error error⟩ : Traced α)
      = ⟨notes.flatMap retelling.notes, .error (retelling.error error)⟩ :=
  rfl

theorem traced_bind (retelling : Retelling) (first : Traced α) (next : α → Traced β)
    : retelling.traced (first >>= next)
      = retelling.traced first >>= fun value => retelling.traced (next value) := by
  obtain ⟨notes, result⟩ := first
  change retelling.traced (Traced.andThen _ _) = Traced.andThen _ _
  cases result with
  | error => rfl
  | ok value =>
      simp only [Traced.andThen, traced_ok]
      simp [traced]

theorem traced_pure (retelling : Retelling) (value : α)
    : retelling.traced (pure value) = pure value :=
  rfl

theorem traced_of (retelling : Retelling) (result : Except RuntimeError α)
    : retelling.traced (.of result) = .of (result.mapError retelling.error) :=
  rfl

variable {retelling : Retelling} {level other : Nat}

theorem Suits.note (suits : retelling.Suits level other) (note : Note)
    : retelling.traced (.note level note) = .note other (note.mapTokens retelling.token) := by
  rw [traced, Traced.note, Traced.note, suits.notes note]
  rfl

theorem Suits.applyUnary (suits : retelling.Suits level other) (operator : Token) (operand : Datum)
    : (retelling.token operator).applyUnary operand
      = (operator.applyUnary operand).mapError retelling.error := by
  unfold Token.applyUnary
  rw [suits.kind operator]
  split
  · split <;> rfl
  · rfl
  · rfl

theorem applyNumeric (retelling : Retelling) (operator : Token)
    (operation : Float → Float → Datum) (left right : Datum)
    : (retelling.token operator).applyNumeric operation left right
      = (operator.applyNumeric operation left right).mapError retelling.error := by
  unfold Token.applyNumeric
  split <;> rfl

theorem Suits.applyBinary (suits : retelling.Suits level other) (operator : Token)
    (left right : Datum)
    : (retelling.token operator).applyBinary left right
      = (operator.applyBinary left right).mapError retelling.error := by
  unfold Token.applyBinary
  rw [suits.kind operator]
  split
  case h_1 =>
    unfold Token.applyPlus
    split <;> rfl
  case h_9 | h_10 | h_11 => rfl
  all_goals exact retelling.applyNumeric operator _ left right

/-- An expression with other operators is evaluated as the retelling of its evaluation says, by
induction on the expression.
-/
theorem Suits.evaluate (suits : retelling.Suits level other) (expr : Expr)
    : (expr.mapTokens retelling.token).evaluate other = retelling.traced (expr.evaluate level) := by
  induction expr with
  | literal => rfl
  | grouping _ ih => exact ih
  | unary operator operand ih =>
      simp only [Expr.mapTokens, Expr.evaluate, ih, traced_bind, traced_of, traced_pure, suits.note,
        suits.applyUnary]
      rfl
  | binary left operator right leftIh rightIh =>
      simp only [Expr.mapTokens, Expr.evaluate, dispatch, leftIh, rightIh, traced_bind, traced_of,
        traced_pure, suits.note, suits.applyBinary, suits.kind]
      rfl

-----------------------------------------------------------------------------------------
-- Runs
-----------------------------------------------------------------------------------------

theorem run_append (retelling : Retelling) (first second : Run)
    : retelling.run (first.append second)
      = (retelling.run first).append (retelling.run second) := by
  obtain ⟨events, stop⟩ := first
  cases stop with
  | some => rfl
  | none => simp [run, Run.append]

theorem events_of_notes (retelling : Retelling) (notes : List Note)
    : (notes.map Event.note).flatMap retelling.event
      = (notes.flatMap retelling.notes).map Event.note := by
  rw [List.flatMap_map, List.map_flatMap]
  rfl

theorem Suits.ofValue (suits : retelling.Suits level other) (value : Datum) (statement : Stmt)
    : Run.ofValue other value (statement.mapTokens retelling.token)
      = retelling.run (Run.ofValue level value statement) := by
  cases statement with
  | expression expr =>
      have note := suits.notes (.discarded value)
      simp only [Note.mapTokens] at note
      simp [Stmt.mapTokens, Run.ofValue, run, events_of_notes, note]
  | print expr =>
      have note := suits.notes (.printed value)
      simp only [Note.mapTokens] at note
      cases shown : value.display? <;>
        simp [Stmt.mapTokens, Run.ofValue, run, shown, events_of_notes, note, event, stop]

theorem expr_mapTokens (change : Token → Token) (statement : Stmt)
    : (statement.mapTokens change).expr = statement.expr.mapTokens change := by
  cases statement <;> rfl

theorem Suits.execute (suits : retelling.Suits level other) (statement : Stmt)
    : (statement.mapTokens retelling.token).execute other
      = retelling.run (statement.execute level) := by
  have evaluated := suits.evaluate statement.expr
  unfold Stmt.execute
  rw [expr_mapTokens, evaluated]
  obtain ⟨notes, result⟩ := statement.expr.evaluate level
  cases result with
  | error error => simp [traced_error, run, events_of_notes, stop]
  | ok value => simp [traced_ok, suits.ofValue, run, events_of_notes]

/-- Statements with other operators run as the retelling of their run says, by induction on them. -/
theorem Suits.executeAll (suits : retelling.Suits level other) (statements : List Stmt)
    : executeAll other (statements.map (.mapTokens retelling.token))
      = retelling.run (executeAll level statements) := by
  induction statements with
  | nil => rfl
  | cons statement rest ih =>
      rw [List.map_cons, Lox.executeAll, suits.execute, ih, ← run_append]
      rfl

/-- A program with other operators runs as the retelling of its run says. -/
theorem Suits.interpret (suits : retelling.Suits level other) (statements : List Stmt)
    : interpret other (statements.map (.mapTokens retelling.token))
      = retelling.run (interpret level statements) := by
  unfold Lox.interpret
  rw [suits.executeAll]
  obtain ⟨events, stopped⟩ := Lox.executeAll level statements
  cases stopped with
  | none => rfl
  | some reason =>
      cases reason with
      | unprintable => rfl
      | failed error =>
          have note := suits.notes (.stopped error)
          simp only [Note.mapTokens] at note
          simp [run, stop, Retelling.error, note, events_of_notes]

end Retelling

-----------------------------------------------------------------------------------------
-- Output
-----------------------------------------------------------------------------------------

namespace Event

@[simp]
theorem isNote_prompt : prompt.isNote = false := rfl

@[simp]
theorem isNote_line (text : Text) : (line text).isNote = false := rfl

@[simp]
theorem isNote_note (taken : Note) : (note taken).isNote = true := rfl

/-- However a run is told, all else but its notes stays as it is. -/
theorem filter_retold (retelling : Retelling) (events : List Event)
    : (events.flatMap retelling.event).filter (!·.isNote) = events.filter (!·.isNote) := by
  induction events with
  | nil => rfl
  | cons event rest ih =>
      rw [List.flatMap_cons, List.filter_append, ih]
      cases event with
      | prompt | line => simp [Retelling.event]
      | note taken => simp [Retelling.event]

/-- However a run is told, it prints the same. -/
theorem outputOf_retold (retelling : Retelling) (events : List Event)
    : outputOf (events.flatMap retelling.event) = outputOf events := by
  rw [outputOf, outputOf, filter_retold]

end Event

end Lox
