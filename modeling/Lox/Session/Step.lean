import Lox.Session.Basic

/-! Steps of a session.
Besides running units of source, a session can be told about errors, forget them, and apply single
operators.
-/

namespace Lox.Session

inductive Step where
  | run (text : String)
  | prompt (input : String)
  | reset
  | report (diagnostic : Diagnostic)
  | unary (operator : Token) (operand : Datum)
  | binary (operator : Token) (left right : Datum)

/-- The state after a step, what the step shows, and the value or error of an operator. -/
structure Effect where
  session : Session
  transcript : Transcript
  value : Option (Except RuntimeError Datum)

/-- A step that applies no operator. -/
def Effect.of (effect : Session × Transcript) : Effect :=
  ⟨effect.1, effect.2, none⟩

/-- What a step does. -/
def perform (session : Session) : Step → Effect
  | .run text => .of (session.runSource text)
  | .prompt input => .of (session.runPrompt input)
  | .reset => .of (session.reset, ⟨[], []⟩)
  | .report diagnostic => .of (session.report diagnostic, ⟨[], [diagnostic]⟩)
  | .unary operator operand => ⟨session, ⟨[], []⟩, some (operator.applyUnary operand)⟩
  | .binary operator left right =>
      let traced := dispatch session.level operator left right
      ⟨session, ⟨traced.notes.map .note, []⟩, some traced.result⟩

end Lox.Session
