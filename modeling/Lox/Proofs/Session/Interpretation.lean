import Lox.Proofs.Evaluation.Retelling
import Lox.Proofs.Evaluation.Sequence
import Lox.Session.Basic

/-! Programs that run in a session.
Two programs together do to a session what one does after the other, and a program whose run can be
told in another way does to it what the retelling says.
-/

namespace Lox

/-- The diagnostic with another token in place of the one that it names. -/
def Diagnostic.mapToken (change : Token → Token) : Diagnostic → Diagnostic
  | .lexical line message => .lexical line message
  | .syntactic token message => .syntactic (change token) message
  | .runtime token message => .runtime (change token) message

/-- The session as a retelling has it, at another level of detail. -/
def Session.retold (session : Session) (retelling : Retelling) (level : Nat) : Session :=
  { session with level, runtimeError := session.runtimeError.map retelling.error }

def Transcript.retold (transcript : Transcript) (retelling : Retelling) : Transcript :=
  ⟨transcript.events.flatMap retelling.event,
    transcript.diagnostics.map (.mapToken retelling.token)⟩

namespace Session

/-- The session at another level of detail. -/
def atLevel (session : Session) (level : Nat) : Session :=
  { session with level }

/-- Messages about an error quote the lexeme of its token and nothing else of it. -/
theorem message_retold (retelling : Retelling)
    (lexeme : ∀ token, (retelling.token token).lexeme = token.lexeme) (error : RuntimeError)
    : (retelling.error error).message = error.message := by
  simp [RuntimeError.message, Retelling.error, lexeme]

/-- A program with other operators, at another level of detail, leaves the session as its run is
told again. The lexemes of operators stay the same.
-/
theorem interpret_retold (session : Session) {retelling : Retelling} {level : Nat}
    (suits : retelling.Suits session.level level)
    (lexeme : ∀ token, (retelling.token token).lexeme = token.lexeme) (statements : List Stmt)
    : (session.atLevel level).interpret (statements.map (.mapTokens retelling.token))
      = ((session.interpret statements).1.retold retelling level,
        (session.interpret statements).2.retold retelling) := by
  unfold interpret
  dsimp only [atLevel]
  rw [suits.interpret]
  obtain ⟨events, stop⟩ := Lox.interpret session.level statements
  cases stop with
  | none => rfl
  | some reason =>
      cases reason with
      | unprintable => rfl
      | failed error =>
          have message := message_retold retelling lexeme error
          rw [Retelling.error] at message
          simp [Retelling.run, Retelling.stop, Retelling.error, retold, Transcript.retold, report,
            Diagnostic.mapToken, message]

/-- A program that comes to its end leaves the session to the next one. -/
theorem interpret_append_of_none (session : Session) {first : List Stmt} (second : List Stmt)
    (ended : (Lox.interpret session.level first).stop = none)
    : session.interpret (first ++ second)
      = ((session.interpret second).1,
        ⟨(session.interpret first).2.events ++ (session.interpret second).2.events,
          (session.interpret second).2.diagnostics⟩) := by
  unfold interpret
  rw [interpret_append]
  generalize Lox.interpret session.level second = later
  generalize Lox.interpret session.level first = earlier at ended ⊢
  obtain ⟨events, stop⟩ := earlier
  obtain rfl : stop = none := ended
  obtain ⟨more, stop⟩ := later
  cases stop with
  | none => rfl
  | some reason => cases reason <;> rfl

/-- A program that is stopped leaves nothing to the next one. -/
theorem interpret_append_of_some (session : Session) {first : List Stmt} (second : List Stmt)
    {reason : Stop} (stopped : (Lox.interpret session.level first).stop = some reason)
    : session.interpret (first ++ second) = session.interpret first := by
  have whole : (Lox.interpret session.level first).append (Lox.interpret session.level second)
      = Lox.interpret session.level first := by
    rw [Run.append, stopped]
  unfold interpret
  rw [interpret_append, whole]

end Session

end Lox
