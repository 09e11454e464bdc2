import Lox.Proofs.Evaluation.Failure
import Lox.Proofs.Number.Division
import Lox.Proofs.Source.Program

/-! Running a program ends with its statements or at one of its operators.
If the literals of a program are values, then each of its evaluations ends with a value or at an
operator, and each value that is to be printed has a text, whatever tokens stand as operators. All
that a run shows is made of literals by operators, so that it has what literals have and operators
keep.
-/

namespace Lox

-----------------------------------------------------------------------------------------
-- Parts of expressions
-----------------------------------------------------------------------------------------

namespace Expr

/-- The parts of an expression over values are over values, by induction on the expression. -/
theorem Valued.of_part {expr part : Expr} (valued : expr.Valued) (inside : part ∈ expr.parts)
    : part.Valued := by
  induction expr with
  | binary left operator right leftIh rightIh =>
      rw [parts, List.mem_append, List.mem_append, List.mem_singleton] at inside
      rcases inside with (first | second) | rfl
      · exact leftIh valued.1 first
      · exact rightIh valued.2 second
      · exact valued
  | grouping inner ih =>
      rw [parts, List.mem_append, List.mem_singleton] at inside
      rcases inside with operand | rfl
      · exact ih valued operand
      · exact valued
  | literal value =>
      obtain rfl := List.mem_singleton.mp inside
      exact valued
  | unary operator operand ih =>
      rw [parts, List.mem_append, List.mem_singleton] at inside
      rcases inside with operand | rfl
      · exact ih valued operand
      · exact valued

theorem Over.valued {such : Token → Prop} {expr : Expr} (suits : expr.Over such) : expr.Valued := by
  induction expr with
  | binary _ _ _ leftIh rightIh => exact ⟨leftIh suits.1, rightIh suits.2.2⟩
  | grouping _ ih => exact ih suits
  | literal => exact suits
  | unary _ _ ih => exact ih suits.2

end Expr

theorem Stmt.Satisfies.expr {fit : Datum → Prop} {such : Token → Prop} {stmt : Stmt}
    (suits : stmt.Satisfies fit such)
    : stmt.expr.Satisfies fit such := by
  cases stmt with
  | expression | print => exact suits

theorem Stmt.satisfies_iff {fit : Datum → Prop} {such : Token → Prop} {stmt : Stmt}
    : stmt.Satisfies fit such
      ↔ (∀ value, .literal value ∈ stmt.expr.parts → fit value)
        ∧ ∀ operator ∈ stmt.expr.operators, such operator := by
  cases stmt with
  | expression | print => exact Expr.satisfies_iff

theorem Stmt.Over.valued {such : Token → Prop} {stmt : Stmt} (suits : stmt.Over such)
    : stmt.expr.Valued :=
  Expr.Over.valued (Stmt.Satisfies.expr suits)

-----------------------------------------------------------------------------------------
-- Values and errors of parts
-----------------------------------------------------------------------------------------

namespace Token

theorem token_of_unaryKind {operator : Token} {operand : Datum.Kind} {error : RuntimeError}
    (h : operator.unaryKind operand = .error error)
    : error.token = operator := by
  unfold unaryKind at h
  split at h
  · split at h <;> cases h
    rfl
  · cases h
  · cases h
    rfl

theorem token_of_binaryKind {operator : Token} {left right : Datum.Kind} {error : RuntimeError}
    (h : operator.binaryKind left right = .error error)
    : error.token = operator := by
  unfold binaryKind numericKind at h
  split at h
  case h_1 =>
    split at h
    · cases h
    · split at h <;> cases h
      rfl
  case h_9 | h_10 => cases h
  case h_11 =>
    cases h
    rfl
  all_goals
    split at h <;> cases h
    rfl

theorem isValue_of_applyUnary {operator : Token} {operand result : Datum}
    (h : operator.applyUnary operand = .ok result)
    : result.isValue = true := by
  have kinds := operator.applyUnary_kind operand
  rw [h] at kinds
  exact unaryKind_isValue kinds.symm

theorem isValue_of_applyBinary {operator : Token} {left right result : Datum}
    (h : operator.applyBinary left right = .ok result)
    : result.isValue = true := by
  have kinds := operator.applyBinary_kind left right
  rw [h] at kinds
  exact binaryKind_isValue kinds.symm

end Token

/-- The error that the skeleton of an expression has names an operator of the expression, by
induction on the expression.
-/
theorem Expr.token_of_kind_error {expr : Expr} {error : RuntimeError}
    (h : expr.skeleton.kind = .error error)
    : error.token ∈ expr.operators := by
  induction expr with
  | literal => cases h
  | grouping inner ih => exact ih h
  | unary operator operand ih =>
      rcases bind_eq_error h with failed | ⟨_, -, failed⟩
      · exact List.mem_append_left _ (ih failed)
      · obtain rfl := Token.token_of_unaryKind failed
        exact List.mem_append_right _ List.mem_cons_self
  | binary left operator right leftIh rightIh =>
      rcases bind_eq_error h with failed | ⟨_, -, failed⟩
      · exact List.mem_append_left _ (List.mem_append_left _ (leftIh failed))
      · rcases bind_eq_error failed with failed | ⟨_, -, failed⟩
        · exact List.mem_append_left _ (List.mem_append_right _ (rightIh failed))
        · obtain rfl := Token.token_of_binaryKind failed
          exact List.mem_append_right _ List.mem_cons_self

namespace Expr

/-- The evaluation of the expression ends with a value of the language, or with a runtime error at
one of its operators.
-/
def Settles (level : Nat) (expr : Expr) : Prop :=
  (∃ value, (expr.evaluate level).result = .ok value ∧ value.isValue = true)
  ∨ ∃ error, (expr.evaluate level).result = .error error ∧ error.token ∈ expr.operators

theorem Valued.settles {expr : Expr} (level : Nat) (valued : expr.Valued) : expr.Settles level := by
  rw [Settles, expr.evaluate_result]
  cases found : expr.skeleton.kind with
  | ok kind =>
      obtain ⟨value, evaluates, rfl⟩ := value_of_kind found
      exact .inl ⟨value, evaluates, valued.kind_isValue found⟩
  | error error => exact .inr ⟨error, value_of_kind_error found, token_of_kind_error found⟩

/-- Over values, only values come of an evaluation. -/
theorem Valued.isValue {expr : Expr} {level : Nat} {value : Datum} (valued : expr.Valued)
    (h : (expr.evaluate level).result = .ok value)
    : value.isValue = true := by
  rcases valued.settles level with ⟨found, evaluates, isValue⟩ | ⟨error, fails, -⟩
  · rw [evaluates] at h
    exact Except.ok.inj h ▸ isValue
  · rw [fails] at h
    cases h

end Expr

/-- A quotient of numbers has a value, also when the divisor is zero: then it is infinite, or no
number if the dividend is zero or no number itself.
-/
theorem Expr.evaluate_quotient {left right : Expr} {operator : Token} {level : Nat} {x y : Float}
    (slash : operator.kind = .slash)
    (dividend : (left.evaluate level).result = .ok (.number x))
    (divisor : (right.evaluate level).result = .ok (.number y))
    (zero : (y == 0.0) = true)
    : ∃ quotient,
        ((Expr.binary left operator right).evaluate level).result = .ok (.number quotient)
        ∧ quotient.isNaN = (x == 0.0 || x.isNaN)
        ∧ quotient.isInf = !(x == 0.0 || x.isNaN) := by
  rw [left.evaluate_result] at dividend
  rw [right.evaluate_result] at divisor
  refine ⟨x / y, ?_, Number.div_zero zero⟩
  rw [evaluate_result, value, dividend, divisor]
  change operator.applyBinary (.number x) (.number y) = _
  rw [Token.applyBinary, slash]
  rfl

-----------------------------------------------------------------------------------------
-- Data that operators keep
-----------------------------------------------------------------------------------------

/-- Such data are values, and operators make such data of them. -/
structure Closed (fit : Datum → Prop) : Prop where
  isValue : ∀ {value}, fit value → value.isValue = true
  unary : ∀ {operator : Token} {operand result},
    fit operand → operator.applyUnary operand = .ok result → fit result
  binary : ∀ {operator : Token} {left right result},
    fit left → fit right → operator.applyBinary left right = .ok result → fit result

theorem closed_isValue : Closed (·.isValue = true) where
  isValue := id
  unary _ applied := Token.isValue_of_applyUnary applied
  binary _ _ applied := Token.isValue_of_applyBinary applied

namespace Token

theorem isPlain_of_applyUnary {operator : Token} {operand result : Datum}
    (h : operator.applyUnary operand = .ok result)
    : result.isPlain = true := by
  unfold applyUnary at h
  split at h
  case h_1 =>
    split at h <;> cases h
    rfl
  case h_2 =>
    cases h
    rfl
  case h_3 => cases h

theorem exists_of_applyNumeric {operator : Token} {operation : Float → Float → Datum}
    {left right result : Datum} (h : operator.applyNumeric operation left right = .ok result)
    : ∃ x y, result = operation x y := by
  unfold applyNumeric at h
  split at h <;> cases h
  exact ⟨_, _, rfl⟩

/-- A string without surrogates comes only of joining such strings. -/
theorem isPlain_of_applyBinary {operator : Token} {left right result : Datum}
    (first : left.isPlain = true) (second : right.isPlain = true)
    (h : operator.applyBinary left right = .ok result)
    : result.isPlain = true := by
  unfold applyBinary at h
  split at h
  case h_1 =>
    unfold applyPlus at h
    split at h <;> cases h
    · rfl
    · exact Text.isEncodable_append.trans (Bool.and_eq_true_iff.mpr ⟨first, second⟩)
  case h_9 | h_10 =>
    cases h
    rfl
  case h_11 => cases h
  all_goals
    obtain ⟨x, y, rfl⟩ := exists_of_applyNumeric h
    rfl

end Token

theorem closed_isPlain : Closed (·.isPlain = true) where
  isValue := Datum.isValue_of_isPlain
  unary _ applied := Token.isPlain_of_applyUnary applied
  binary := Token.isPlain_of_applyBinary

variable {fit : Datum → Prop} {such : Token → Prop} {level : Nat}

theorem Expr.Satisfies.valued {expr : Expr} (closed : Closed fit) (suits : expr.Satisfies fit such)
    : expr.Valued :=
  Over.valued (suits.mono (fun _ => closed.isValue) fun _ => id)

/-- What comes of an evaluation is such data, by induction on the expression. -/
theorem Expr.Satisfies.result {expr : Expr} (closed : Closed fit) (suits : expr.Satisfies fit such)
    {value : Datum} (h : (expr.evaluate level).result = .ok value)
    : fit value := by
  rw [evaluate_result] at h
  induction expr generalizing value with
  | literal =>
      cases h
      exact suits
  | grouping _ ih => exact ih suits h
  | unary operator operand ih =>
      obtain ⟨inner, found, applied⟩ := bind_eq_ok.mp h
      exact closed.unary (ih suits.2 found) applied
  | binary left operator right leftIh rightIh =>
      obtain ⟨first, one, h⟩ := bind_eq_ok.mp h
      obtain ⟨second, other, applied⟩ := bind_eq_ok.mp h
      exact closed.binary (leftIh suits.1 one) (rightIh suits.2.2 other) applied

-----------------------------------------------------------------------------------------
-- Notes
-----------------------------------------------------------------------------------------

/-- The note is about such data and such an operator. The end of a run is about neither. -/
def Note.Satisfies (fit : Datum → Prop) (such : Token → Prop) : Note → Prop
  | .dispatch _ left right =>
      (∃ value, fit value ∧ value.kind = left) ∧ ∃ value, fit value ∧ value.kind = right
  | .unary operator operand result => such operator ∧ fit operand ∧ fit result
  | .binary operator left right result => such operator ∧ fit left ∧ fit right ∧ fit result
  | .printed value | .discarded value => fit value
  | .stopped _ => False

theorem Note.Satisfies.mono {others : Token → Prop} {note : Note}
    (suits : note.Satisfies fit such) (tokens : ∀ token, such token → others token)
    : note.Satisfies fit others := by
  cases note with
  | unary | binary => exact ⟨tokens _ suits.1, suits.2⟩
  | dispatch | printed | discarded | stopped => exact suits

theorem Note.eq_of_takenAt {note taken : Note} (h : taken ∈ note.takenAt level)
    : taken = note := by
  unfold takenAt at h
  split at h
  · exact List.mem_singleton.mp h
  · cases h

theorem Traced.mem_notes_bind {α β : Type} {first : Traced α} {next : α → Traced β} {taken : Note}
    (h : taken ∈ (first >>= next).notes)
    : taken ∈ first.notes ∨ ∃ value, first.result = .ok value ∧ taken ∈ (next value).notes := by
  change taken ∈ (first.andThen next).notes at h
  unfold andThen at h
  split at h
  case h_1 => exact .inl h
  case h_2 value found =>
    rcases List.mem_append.mp h with earlier | later
    · exact .inl earlier
    · exact .inr ⟨value, found, later⟩

/-- Evaluations take notes about such data and operators only, by induction on the expression. -/
theorem Expr.Satisfies.notes {expr : Expr} {taken : Note} (closed : Closed fit)
    (suits : expr.Satisfies fit such) (h : taken ∈ (expr.evaluate level).notes)
    : taken.Satisfies fit such := by
  induction expr with
  | literal => cases h
  | grouping inner ih => exact ih suits h
  | unary operator operand ih =>
      obtain ⟨here, inner⟩ := suits
      rcases Traced.mem_notes_bind h with earlier | ⟨value, evaluates, h⟩
      · exact ih inner earlier
      have found := Satisfies.result closed inner evaluates
      rcases Traced.mem_notes_bind h with earlier | ⟨result, applied, h⟩
      · cases earlier
      rcases Traced.mem_notes_bind h with own | ⟨_, -, later⟩
      · obtain rfl := Note.eq_of_takenAt own
        exact ⟨here, found, closed.unary found applied⟩
      · cases later
  | binary left operator right leftIh rightIh =>
      obtain ⟨one, here, other⟩ := suits
      rcases Traced.mem_notes_bind h with earlier | ⟨first, firstEvaluates, h⟩
      · exact leftIh one earlier
      rcases Traced.mem_notes_bind h with earlier | ⟨second, secondEvaluates, h⟩
      · exact rightIh other earlier
      have firstFound := Satisfies.result closed one firstEvaluates
      have secondFound := Satisfies.result closed other secondEvaluates
      rcases Traced.mem_notes_bind h with dispatched | ⟨result, applied, h⟩
      · rcases Traced.mem_notes_bind dispatched with own | ⟨_, -, later⟩
        · obtain rfl := Note.eq_of_takenAt own
          exact ⟨⟨first, firstFound, rfl⟩, second, secondFound, rfl⟩
        · cases later
      rcases Traced.mem_notes_bind h with own | ⟨_, -, later⟩
      · obtain rfl := Note.eq_of_takenAt own
        exact ⟨here, firstFound, secondFound, closed.binary firstFound secondFound applied⟩
      · cases later

/-- What the event shows is the text of such a datum, or a note about such data and operators. -/
def Event.Satisfies (fit : Datum → Prop) (such : Token → Prop) : Event → Prop
  | .note taken => taken.Satisfies fit such
  | .line text => ∃ value, fit value ∧ value.display? = some text
  | .prompt => True

theorem Event.Satisfies.mono {others : Token → Prop} {event : Event}
    (suits : event.Satisfies fit such) (tokens : ∀ token, such token → others token)
    : event.Satisfies fit others := by
  cases event with
  | prompt | line => exact suits
  | note => exact Note.Satisfies.mono suits tokens

theorem Event.satisfies_of_takenAt {note : Note} {event : Event}
    (suits : note.Satisfies fit such) (h : event ∈ (note.takenAt level).map Event.note)
    : event.Satisfies fit such := by
  obtain ⟨taken, inside, rfl⟩ := List.mem_map.mp h
  obtain rfl := Note.eq_of_takenAt inside
  exact suits

-----------------------------------------------------------------------------------------
-- Runs
-----------------------------------------------------------------------------------------

/-- The run comes to its end, or stops with a runtime error at an operator of a statement. -/
def Run.Settles (statements : List Stmt) (run : Run) : Prop :=
  run.stop = none
  ∨ ∃ error statement,
      statement ∈ statements
      ∧ run.stop = some (.failed error)
      ∧ error.token ∈ statement.expr.operators

/-- A run of statements over values settles, by induction on the statements. -/
theorem executeAll_settles (level : Nat) {statements : List Stmt}
    (valued : ∀ statement ∈ statements, statement.expr.Valued)
    : (executeAll level statements).Settles statements := by
  induction statements with
  | nil => exact .inl rfl
  | cons statement rest ih =>
      obtain ⟨first, later⟩ := List.forall_mem_cons.mp valued
      rcases first.settles level with ⟨value, evaluates, isValue⟩ | ⟨error, fails, inside⟩
      · rw [statement.expr.evaluate_result] at evaluates
        have runs := statement.execute_stop_of_ok level isValue evaluates
        rw [Run.Settles, executeAll_cons_of_none runs]
        rcases ih later with ended | ⟨error, failing, member, stopped, inside⟩
        · exact .inl ended
        · exact .inr ⟨error, failing, List.mem_cons_of_mem _ member, stopped, inside⟩
      · rw [statement.expr.evaluate_result] at fails
        exact .inr ⟨error, statement, List.mem_cons_self,
          executeAll_cons_of_some (Stmt.execute_stop_of_error level fails), inside⟩

theorem interpret_settles (level : Nat) {statements : List Stmt}
    (valued : ∀ statement ∈ statements, statement.expr.Valued)
    : (interpret level statements).Settles statements := by
  rw [Run.Settles, interpret_stop]
  exact executeAll_settles level valued

theorem Stmt.Satisfies.events {statement : Stmt} {event : Event} (closed : Closed fit)
    (suits : statement.Satisfies fit such) (h : event ∈ (statement.execute level).events)
    : event.Satisfies fit such := by
  have noted : ∀ noted ∈ (statement.expr.evaluate level).notes.map Event.note,
      noted.Satisfies fit such := by
    intro _ member
    obtain ⟨taken, inside, rfl⟩ := List.mem_map.mp member
    exact suits.expr.notes closed inside
  unfold execute at h
  dsimp only at h
  split at h
  case h_1 => exact noted event h
  case h_2 value evaluates =>
    have found := suits.expr.result closed evaluates
    rcases List.mem_append.mp h with earlier | own
    · exact noted event earlier
    cases statement with
    | expression expr =>
        have discarded : (Note.discarded value).Satisfies fit such := found
        exact Event.satisfies_of_takenAt discarded own
    | print expr =>
        have printed : (Note.printed value).Satisfies fit such := found
        obtain ⟨text, shown⟩ := Datum.display_of_isValue (closed.isValue found)
        simp only [Run.ofValue, shown] at own
        rcases List.mem_append.mp own with noted | line
        · exact Event.satisfies_of_takenAt printed noted
        · obtain rfl := List.mem_singleton.mp line
          exact ⟨value, found, shown⟩

/-- All that statements show is such, by induction on the statements. -/
theorem executeAll_satisfies {statements : List Stmt} {event : Event} (closed : Closed fit)
    (suits : ∀ statement ∈ statements, statement.Satisfies fit such)
    (h : event ∈ (executeAll level statements).events)
    : event.Satisfies fit such := by
  induction statements with
  | nil => cases h
  | cons statement rest ih =>
      obtain ⟨first, later⟩ := List.forall_mem_cons.mp suits
      rw [executeAll, Run.append] at h
      split at h
      case h_1 => exact first.events closed h
      case h_2 =>
        rcases List.mem_append.mp h with own | other
        · exact first.events closed own
        · exact ih later other

/-- The note that ends a run, if one is taken. -/
def Run.lastNotes (level : Nat) (run : Run) : List Note :=
  match run.stop with
  | some (.failed error) => Note.takenAt level (.stopped error)
  | _ => []

theorem Run.length_lastNotes_le (level : Nat) (run : Run) : (run.lastNotes level).length ≤ 1 := by
  unfold lastNotes Note.takenAt
  split
  · split <;> simp
  · simp

theorem Run.stopped_of_lastNotes {run : Run} {note : Note} (h : note ∈ run.lastNotes level)
    : ∃ error, note = .stopped error ∧ run.stop = some (.failed error) := by
  unfold lastNotes at h
  split at h
  case h_1 error failed => exact ⟨error, Note.eq_of_takenAt h, failed⟩
  case h_2 => cases h

theorem interpret_events (level : Nat) (statements : List Stmt)
    : (interpret level statements).events
      = (executeAll level statements).events
        ++ ((executeAll level statements).lastNotes level).map .note := by
  unfold interpret
  generalize executeAll level statements = run
  obtain ⟨events, stop⟩ := run
  cases stop with
  | none => simp [Run.lastNotes]
  | some reason => cases reason <;> simp [Run.lastNotes]

/-- A run of statements with such operators fails at such an operator only. -/
theorem token_of_failed {statements : List Stmt} {error : RuntimeError} (closed : Closed fit)
    (suits : ∀ statement ∈ statements, statement.Satisfies fit such)
    (failed : (executeAll level statements).stop = some (.failed error))
    : such error.token := by
  have valued : ∀ statement ∈ statements, statement.expr.Valued :=
    fun statement member => (suits statement member).expr.valued closed
  rcases executeAll_settles level valued
    with ended | ⟨other, statement, member, stopped, inside⟩
  · rw [ended] at failed
    cases failed
  · rw [stopped] at failed
    cases failed
    exact (Stmt.satisfies_iff.mp (suits statement member)).2 _ inside

/-- All that a program shows is such, or it is the end of the program at such an operator. -/
theorem interpret_satisfies {statements : List Stmt} {event : Event} (closed : Closed fit)
    (suits : ∀ statement ∈ statements, statement.Satisfies fit such)
    (h : event ∈ (interpret level statements).events)
    : event.Satisfies fit such
      ∨ ∃ error,
          event = .note (.stopped error)
          ∧ (interpret level statements).stop = some (.failed error)
          ∧ such error.token := by
  rw [interpret_events] at h
  rcases List.mem_append.mp h with earlier | last
  · exact .inl (executeAll_satisfies closed suits earlier)
  · obtain ⟨taken, inside, rfl⟩ := List.mem_map.mp last
    obtain ⟨error, rfl, failed⟩ := Run.stopped_of_lastNotes inside
    exact .inr ⟨error, rfl, (interpret_stop _ _).trans failed, token_of_failed closed suits failed⟩

end Lox
