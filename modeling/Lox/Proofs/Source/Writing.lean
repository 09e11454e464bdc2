import Lox.Proofs.Session.Delivery
import Lox.Proofs.Source.Lines
import Lox.Proofs.Text.Numeral

/-! What comes of a source can be written.
A source has no surrogates, and so nothing has any that is printed or reported of it. Its lines have
numbers that are short as long as the last one is.
-/

namespace Lox

variable {text : String}

theorem Token.Scanned.isQuotable {token : Token} (scanned : token.Scanned)
    : token.isQuotable = true := by
  obtain ⟨text, lexeme⟩ := scanned.lexeme
  rw [Token.isQuotable, lexeme]
  exact Text.isEncodable_ofString text

theorem Token.Scanned.isShort {token : Token} (scanned : token.Scanned)
    (line : Text.isShort token.line = true)
    : token.isShort = true := by
  obtain ⟨text, lexeme⟩ := scanned.lexeme
  rw [Token.isShort, lexeme, line]
  rfl

namespace Source

/-- The number of the last line of the text is not too long for a text. -/
def Numbered (text : String) : Prop :=
  Text.isShort (1 + Scan.lineFeeds text.toList : Nat) = true

theorem Numbered.line (numbered : Numbered text) {token : Token}
    (member : token ∈ (Scan.ofSource text).tokens)
    : Text.isShort token.line = true := by
  obtain ⟨lower, upper⟩ := (Scan.ofSource_within text).tokens token member
  exact Text.isShort_of_natAbs_le numbered (by omega)

theorem numbered_of_program {statements : List Stmt} (numbered : Numbered text)
    (program : (ofString text).program = .ok statements)
    : ∀ statement ∈ statements,
        statement.Satisfies (·.isPlain = true)
          fun token => token.Scanned ∧ Text.isShort token.line = true :=
  fun statement member =>
    (satisfies_of_program program statement member).mono (fun _ => id)
      fun _ found => ⟨found.1, numbered.line found.2⟩

theorem isEncodable_place {token : Token} (member : token ∈ (Scan.ofSource text).tokens)
    : (Diagnostic.place token).isEncodable = true := by
  obtain ⟨body, last, tokens, ends, scanned⟩ := Scan.ofSource_tokens text
  unfold Diagnostic.place
  split
  case isTrue => rfl
  case isFalse other =>
    rw [tokens] at member
    rcases List.mem_append.mp member with inside | atEnd
    · have quotable : token.lexeme.bare.isEncodable = true := (scanned token inside).isQuotable
      simp [quotable]
    · obtain rfl := List.mem_singleton.mp atEnd
      exact absurd ends other

theorem isEncodable_diagnostics (text : String)
    : ∀ diagnostic ∈ (ofString text).diagnostics, diagnostic.text.isEncodable = true := by
  intro diagnostic member
  rcases List.mem_append.mp member with lexical | syntactic
  · obtain ⟨error, -, rfl⟩ := List.mem_map.mp lexical
    simp [Diagnostic.ofLexical, Diagnostic.text]
  · obtain ⟨error, inside, rfl⟩ := List.mem_map.mp syntactic
    have place := isEncodable_place (Parse.token_mem_of_error inside)
    simp [Diagnostic.ofSyntactic, Diagnostic.text, place]

end Source

/-- What comes of a program is written to its end. -/
theorem Session.deliver_of_program (session : Session) {statements : List Stmt}
    (suits : ∀ statement ∈ statements,
      statement.Satisfies (·.isPlain = true)
        fun token => token.Scanned ∧ Text.isShort token.line = true)
    : session.deliver statements
      = ⟨(session.interpret statements).1, (session.interpret statements).2, none⟩ :=
  session.deliver_of_writable fun statement member =>
    (suits statement member).mono (fun _ => id)
      fun _ found => ⟨found.1.isShort found.2, found.1.isQuotable⟩

/-- What is printed has no surrogates if no line has. -/
theorem Event.isEncodable_outputOf {events : List Event}
    (lines : ∀ text, .line text ∈ events → text.isEncodable = true)
    : (outputOf events).isEncodable = true := by
  rw [outputOf, textOf, Text.isEncodable_join, List.all_map, List.all_eq_true]
  intro event member
  obtain ⟨inside, line⟩ := List.mem_filter.mp member
  cases event with
  | prompt => rfl
  | line text => simp [Event.text, lines text inside]
  | note => cases line

namespace Session

/-- What a session prints and reports for a unit of source has no surrogates. -/
theorem isEncodable_of_runSource (session : Session) (text : String)
    : (Event.outputOf (session.runSource text).2.events).isEncodable = true
      ∧ (Diagnostic.textOf (session.runSource text).2.diagnostics).isEncodable = true := by
  rw [Diagnostic.textOf, Text.isEncodable_join, List.all_map, List.all_eq_true]
  cases program : (Source.ofString text).program with
  | error failure =>
      rw [session.runSource_of_error program]
      exact ⟨rfl, Source.isEncodable_diagnostics text⟩
  | ok statements =>
      have suits := Source.satisfies_of_program program
      rw [session.runSource_of_ok program]
      constructor
      · rw [events_of_interpret]
        refine Event.isEncodable_outputOf fun line member => ?_
        rcases interpret_satisfies closed_isPlain suits member with inner | ⟨error, other, -⟩
        · obtain ⟨value, plain, shown⟩ := inner
          exact Datum.isEncodable_of_display plain shown
        · cases other
      · rcases session.interpret_diagnostics statements with none | ⟨error, failed, one⟩
        · simp [none]
        · rw [one]
          intro diagnostic member
          obtain rfl := List.mem_singleton.mp member
          rw [interpret_stop] at failed
          have scanned := (token_of_failed closed_isPlain suits failed).1
          have message := error.isEncodable_message scanned.isQuotable
          simp [Diagnostic.text, message]

end Session

end Lox
