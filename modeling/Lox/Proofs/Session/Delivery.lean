import Lox.Proofs.Session.Course
import Lox.Session.Delivery

/-! What keeps a run from being written.
Traces show data in quotes, so that surrogates get into a text only with a lexeme that is quoted and
with a string that is printed. Integers that are too long get in with lexemes and lines alone.
-/

namespace Lox

/-- Neither the lexeme nor the line is too long for a text. -/
def Token.isShort (token : Token) : Bool :=
  token.lexeme.isShort && Text.isShort token.line

/-- A text with the lexeme has no surrogates. -/
def Token.isQuotable (token : Token) : Bool :=
  token.lexeme.bare.isEncodable

/-- A note with the lexeme can be written. -/
def Token.isNotable (token : Token) : Bool :=
  token.lexeme.isShort && token.isQuotable

theorem Datum.isShort_of_isValue {value : Datum} (h : value.isValue = true)
    : value.isShort = true := by
  cases value with
  | nil | boolean | number | string => rfl
  | integer | list | object => cases h

theorem Datum.isEncodable_of_display {value : Datum} {text : Text} (plain : value.isPlain = true)
    (shown : value.display? = some text)
    : text.isEncodable = true := by
  cases value with
  | nil | number =>
      cases shown
      exact Text.isEncodable_ofString _
  | boolean truth => cases truth <;> cases shown <;> exact Text.isEncodable_ofString _
  | string =>
      cases shown
      exact plain
  | integer | list | object => cases plain

theorem RuntimeError.isTold_of_lexeme {error : RuntimeError}
    (short : error.token.lexeme.isShort = true)
    : error.isTold = true := by
  unfold isTold
  split
  · exact short
  · exact short
  · rfl

theorem RuntimeError.isShort_of_token {error : RuntimeError} (short : error.token.isShort = true)
    : error.isShort = true := by
  obtain ⟨lexeme, line⟩ := Bool.and_eq_true_iff.mp short
  rw [isShort, line, Bool.true_and, isTold_of_lexeme lexeme]

theorem RuntimeError.isEncodable_message {error : RuntimeError}
    (quotable : error.token.isQuotable = true)
    : error.message.isEncodable = true := by
  rw [Token.isQuotable] at quotable
  unfold message
  split <;> simp [quotable]

namespace Note

variable {note : Note}

theorem isShort_of_satisfies (suits : note.Satisfies (·.isValue = true) (·.lexeme.isShort = true))
    : note.isShort = true := by
  cases note with
  | dispatch => rfl
  | unary operator operand result =>
      obtain ⟨here, one, all⟩ := suits
      simp [isShort, here, Datum.isShort_of_isValue one, Datum.isShort_of_isValue all]
  | binary operator left right result =>
      obtain ⟨here, one, other, all⟩ := suits
      simp [isShort, here, Datum.isShort_of_isValue one, Datum.isShort_of_isValue other,
        Datum.isShort_of_isValue all]
  | printed value | discarded value => exact Datum.isShort_of_isValue suits
  | stopped => cases suits

theorem isEncodable_text {fit : Datum → Prop} (suits : note.Satisfies fit (·.isQuotable = true))
    : note.text.isEncodable = true := by
  cases note with
  | unary operator operand result =>
      have quotable : operator.lexeme.bare.isEncodable = true := suits.1
      simp [text, quotable]
  | binary operator left right result =>
      have quotable : operator.lexeme.bare.isEncodable = true := suits.1
      simp [text, quotable]
  | dispatch | printed | discarded => simp [text]
  | stopped => cases suits

theorem writeError_of_satisfies (suits : note.Satisfies (·.isValue = true) (·.isNotable = true))
    : note.writeError? = none := by
  have short := suits.mono fun _ notable => (Bool.and_eq_true_iff.mp notable).1
  have quotable := suits.mono fun _ notable => (Bool.and_eq_true_iff.mp notable).2
  rw [writeError?, if_pos (isShort_of_satisfies short),
    Text.encodeError_eq_none_iff.mpr (isEncodable_text quotable)]
  rfl

theorem isEncodable_stopped {error : RuntimeError} (quotable : error.token.isQuotable = true)
    : (stopped error).text.isEncodable = true := by
  simp [text, error.isEncodable_message quotable]

/-- A note is not written because it is too long or because its text has a surrogate. -/
theorem writeError_eq_some {error : WriteError} (h : note.writeError? = some error)
    : match error with
      | .tooLong => note.isShort = false
      | .unencodable _ => note.text.isEncodable = false := by
  unfold writeError? at h
  split at h
  case isTrue =>
    obtain ⟨found, failed, rfl⟩ := Option.map_eq_some_iff.mp h
    have some : note.text.encodeError? ≠ none := by simp [failed]
    exact Bool.eq_false_iff.mpr (some ∘ Text.encodeError_eq_none_iff.mpr)
  case isFalse long =>
    cases h
    exact Bool.eq_false_iff.mpr long

end Note

theorem Event.not_tooLong {event : Event}
    (suits : event.Satisfies (·.isValue = true) (·.lexeme.isShort = true))
    : event.writeError? ≠ some .tooLong := by
  intro failed
  cases event with
  | prompt => cases failed
  | line text =>
      obtain ⟨_, -, long⟩ := Option.map_eq_some_iff.mp failed
      cases long
  | note taken =>
      have long : taken.isShort = false := Note.writeError_eq_some failed
      rw [Note.isShort_of_satisfies suits] at long
      cases long

theorem Event.not_unencodable {event : Event} {error : Text.EncodeError}
    (suits : event.Satisfies (·.isPlain = true) (·.isQuotable = true))
    : event.writeError? ≠ some (.unencodable error) := by
  intro failed
  cases event with
  | prompt => cases failed
  | line text =>
      obtain ⟨value, plain, shown⟩ := suits
      have written := Text.encodeError_eq_none_iff.mpr (Datum.isEncodable_of_display plain shown)
      simp [writeError?, written] at failed
  | note taken =>
      have unencodable : taken.text.isEncodable = false := Note.writeError_eq_some failed
      rw [Note.isEncodable_text suits] at unencodable
      cases unencodable

-----------------------------------------------------------------------------------------
-- Evaluations that are broken off
-----------------------------------------------------------------------------------------

/-- Why an evaluation is broken off, unless it is not: at a note that is not written, or where its
error gets a message.
-/
def Traced.writeError? {α : Type} (traced : Traced α) : Option WriteError :=
  (traced.notes.findSome? Note.writeError?).or
    (match traced.result with
      | .ok _ => none
      | .error error => if error.isTold then none else some .tooLong)

namespace Expr

variable {expr : Expr} {level : Nat}

theorem writeError_of_satisfies (suits : expr.Satisfies (·.isValue = true) (·.isNotable = true))
    : (expr.evaluate level).writeError? = none := by
  rw [Traced.writeError?, Option.or_eq_none_iff, List.findSome?_eq_none_iff]
  constructor
  · intro taken member
    exact Note.writeError_of_satisfies (suits.notes closed_isValue member)
  · rcases (suits.valued closed_isValue).settles level with ⟨value, evaluates, -⟩
      | ⟨error, fails, inside⟩
    · rw [evaluates]
    · have notable := (satisfies_iff.mp suits).2 _ inside
      rw [fails]
      exact if_pos (RuntimeError.isTold_of_lexeme (Bool.and_eq_true_iff.mp notable).1)

/-- What breaks an evaluation over values off is the lexeme of an operator. -/
theorem exists_of_writeError (valued : expr.Valued)
    (failed : (expr.evaluate level).writeError? ≠ none)
    : ∃ operator ∈ expr.operators, operator.isNotable = false := by
  by_contra blameless
  refine failed (writeError_of_satisfies (satisfies_iff.mpr ⟨fun _ => valued.of_part, ?_⟩))
  intro operator inside
  by_contra unnotable
  exact blameless ⟨operator, inside, Bool.eq_false_iff.mpr unnotable⟩

end Expr

-----------------------------------------------------------------------------------------
-- Runs that are broken off
-----------------------------------------------------------------------------------------

/-- Something in the statements is to blame for a text that is not written: a lexeme or line that is
too long, or a literal or lexeme with a surrogate.
-/
def WriteError.Blames (statements : List Stmt) : WriteError → Prop
  | .tooLong =>
      ∃ statement ∈ statements, ∃ operator ∈ statement.expr.operators, operator.isShort = false
  | .unencodable _ =>
      ∃ statement ∈ statements,
        (∃ value, .literal value ∈ statement.expr.parts ∧ value.isPlain = false)
        ∨ ∃ operator ∈ statement.expr.operators, operator.isQuotable = false

namespace Session

variable {session : Session} {statements : List Stmt}

theorem deliver_error
    : (session.deliver statements).error
      = (session.interpret statements).2.writeError?
          (session.interpret statements).1.runtimeError := by
  unfold deliver
  dsimp only
  split
  case h_1 none => exact none.symm
  case h_2 some => exact some.symm

/-- A run that is not broken off is written as it is. -/
theorem deliver_of_error_eq_none (h : (session.deliver statements).error = none)
    : session.deliver statements
      = ⟨(session.interpret statements).1, (session.interpret statements).2, none⟩ := by
  rw [deliver_error] at h
  unfold deliver
  simp only [h]

/-- A run that is broken off leaves what was written before, and nothing is reported. -/
theorem deliver_of_error_eq_some {error : WriteError}
    (h : (session.deliver statements).error = some error)
    : session.deliver statements
      = ⟨{ session with runtimeError := none },
        ⟨Event.written (session.interpret statements).2.events, []⟩, some error⟩ := by
  rw [deliver_error] at h
  unfold deliver
  simp only [h]

theorem events_of_interpret (session : Session) (statements : List Stmt)
    : (session.interpret statements).2.events
      = (Lox.interpret session.level statements).events := by
  unfold interpret
  dsimp only
  split <;> rfl

theorem stop_of_runtimeError {error : RuntimeError}
    (h : (session.interpret statements).1.runtimeError = some error)
    : (executeAll session.level statements).stop = some (.failed error) := by
  rw [← interpret_stop]
  unfold interpret at h
  dsimp only at h
  split at h
  case h_1 failed =>
    cases h
    exact failed
  case h_2 => cases h

/-- A run is broken off at an event, or where the error that stops it is put into words. -/
theorem deliver_error_cases {error : WriteError}
    (h : (session.deliver statements).error = some error)
    : (∃ event ∈ (Lox.interpret session.level statements).events, event.writeError? = some error)
      ∨ error = .tooLong
        ∧ ∃ failure,
            (executeAll session.level statements).stop = some (.failed failure)
            ∧ failure.isShort = false := by
  rw [deliver_error, Transcript.writeError?, events_of_interpret, Option.or_eq_some_iff] at h
  rcases h with first | ⟨-, last⟩
  · exact .inl (List.exists_of_findSome?_eq_some first)
  · split at last
    case isTrue => cases last
    case isFalse long =>
      cases last
      cases stopped : (session.interpret statements).1.runtimeError with
      | none => simp [stopped] at long
      | some failure =>
          refine .inr ⟨rfl, failure, stop_of_runtimeError stopped, ?_⟩
          simpa [stopped] using long

theorem not_tooLong_of_short (suits : ∀ statement ∈ statements,
      statement.Satisfies (·.isValue = true) (·.isShort = true))
    : (session.deliver statements).error ≠ some .tooLong := by
  intro failed
  rcases deliver_error_cases failed with ⟨event, member, failed⟩ | ⟨-, failure, stopped, long⟩
  · rcases interpret_satisfies closed_isValue suits member with inner | ⟨failure, rfl, -, short⟩
    · refine Event.not_tooLong (inner.mono fun token short => ?_) failed
      exact (Bool.and_eq_true_iff.mp short).1
    · have long : (Note.stopped failure).isShort = false := Note.writeError_eq_some failed
      rw [Note.isShort, RuntimeError.isShort_of_token short] at long
      cases long
  · rw [RuntimeError.isShort_of_token (token_of_failed closed_isValue suits stopped)] at long
    cases long

theorem not_unencodable_of_plain {error : Text.EncodeError} (suits : ∀ statement ∈ statements,
      statement.Satisfies (·.isPlain = true) (·.isQuotable = true))
    : (session.deliver statements).error ≠ some (.unencodable error) := by
  intro failed
  rcases deliver_error_cases failed with ⟨event, member, failed⟩ | ⟨long, -⟩
  · rcases interpret_satisfies closed_isPlain suits member with inner | ⟨failure, rfl, -, quotable⟩
    · exact Event.not_unencodable inner failed
    · have unencodable : (Note.stopped failure).text.isEncodable = false :=
        Note.writeError_eq_some failed
      rw [Note.isEncodable_stopped quotable] at unencodable
      cases unencodable
  · cases long

/-- What breaks a run of statements over values off is to be found in them. -/
theorem blames_of_deliver {error : WriteError}
    (valued : ∀ statement ∈ statements, statement.expr.Valued)
    (h : (session.deliver statements).error = some error)
    : error.Blames statements := by
  by_contra blameless
  cases error with
  | tooLong =>
      refine not_tooLong_of_short (fun statement member => Stmt.satisfies_iff.mpr ⟨?_, ?_⟩) h
      · exact fun _ inside => (valued statement member).of_part inside
      · intro operator inside
        by_contra long
        exact blameless ⟨statement, member, operator, inside, Bool.eq_false_iff.mpr long⟩
  | unencodable error =>
      refine not_unencodable_of_plain (fun statement member => Stmt.satisfies_iff.mpr ⟨?_, ?_⟩) h
      · intro value inside
        by_contra half
        exact blameless ⟨statement, member, .inl ⟨value, inside, Bool.eq_false_iff.mpr half⟩⟩
      · intro operator inside
        by_contra half
        exact blameless ⟨statement, member, .inr ⟨operator, inside, Bool.eq_false_iff.mpr half⟩⟩

/-- Statements with literals without surrogates, and with operators that are short and can be
quoted, are run to the end of their run.
-/
theorem deliver_of_writable (session : Session)
    (suits : ∀ statement ∈ statements,
      statement.Satisfies (·.isPlain = true)
        fun token => token.isShort = true ∧ token.isQuotable = true)
    : session.deliver statements
      = ⟨(session.interpret statements).1, (session.interpret statements).2, none⟩ := by
  have quotable : ∀ statement ∈ statements,
      statement.Satisfies (·.isPlain = true) (·.isQuotable = true) :=
    fun statement member => (suits statement member).mono (fun _ => id) fun _ => And.right
  have short : ∀ statement ∈ statements,
      statement.Satisfies (·.isValue = true) (·.isShort = true) :=
    fun statement member =>
      (suits statement member).mono (fun _ => Datum.isValue_of_isPlain) fun _ => And.left
  refine deliver_of_error_eq_none ?_
  cases failed : (session.deliver statements).error with
  | none => rfl
  | some error =>
      cases error with
      | tooLong => exact absurd failed (not_tooLong_of_short short)
      | unencodable => exact absurd failed (not_unencodable_of_plain quotable)

end Session

end Lox
