import Lox.Proofs.Session.Delivery
import Lox.Proofs.Session.Levels

/-! Tracing changes nothing of what is written.
The notes that finer levels add can be written if the lexemes of operators can. Then a run is broken
off at the same event at all levels or at none, and the levels nest in what is written as they do in
what happens.
-/

namespace Lox

-----------------------------------------------------------------------------------------
-- Events that are left out
-----------------------------------------------------------------------------------------

section

variable {α β : Type} {kept : α → Bool} {front back : List α}

/-- What is left out in front has no result, and what comes last has none but the given one. -/
theorem findSome_filter_or {result : α → Option β} {other : Option β}
    (without : ∀ x ∈ front, kept x = false → result x = none)
    (last : ∀ x ∈ back, result x = none ∨ result x = other)
    : (((front ++ back).filter kept).findSome? result).or other
      = ((front ++ back).findSome? result).or other := by
  have absorbed (back : List α) (last : ∀ x ∈ back, result x = none ∨ result x = other)
      : (back.findSome? result).or other = other := by
    induction back with
    | nil => rfl
    | cons x rest ih =>
        obtain ⟨first, later⟩ := List.forall_mem_cons.mp last
        rw [List.findSome?_cons]
        rcases first with none | same
        · rw [none]
          exact ih later
        · rw [same]
          cases other with
          | none => exact ih later
          | some => rfl
  rw [List.filter_append, List.findSome?_append, List.findSome?_append, Option.or_assoc,
    Option.or_assoc, absorbed back last,
    absorbed (back.filter kept) fun x member => last x (List.mem_filter.mp member).1]
  congr 1
  induction front with
  | nil => rfl
  | cons x rest ih =>
      obtain ⟨first, later⟩ := List.forall_mem_cons.mp without
      cases keeps : kept x with
      | true =>
          rw [List.filter_cons_of_pos keeps, List.findSome?_cons, List.findSome?_cons, ih later]
      | false =>
          rw [List.filter_cons_of_neg (by simp [keeps]), List.findSome?_cons, first keeps, ih later]

/-- What is left out in front holds, and there is one at most that comes last. -/
theorem takeWhile_filter {holds : α → Bool}
    (without : ∀ x ∈ front, kept x = false → holds x = true) (last : back.length ≤ 1)
    : ((front ++ back).filter kept).takeWhile holds
      = ((front ++ back).takeWhile holds).filter kept := by
  induction front with
  | nil =>
      match back with
      | [] => rfl
      | [x] => cases keeps : kept x <;> cases here : holds x <;> simp [keeps, here]
  | cons x rest ih =>
      obtain ⟨first, later⟩ := List.forall_mem_cons.mp without
      rw [List.cons_append]
      cases keeps : kept x with
      | true => cases here : holds x <;> simp [-List.filter_append, keeps, here, ih later]
      | false => simp [-List.filter_append, keeps, first keeps, ih later]

end

-----------------------------------------------------------------------------------------
-- What is written at two levels
-----------------------------------------------------------------------------------------

/-- Only what is too long keeps the end of a run from being noted. -/
theorem Note.writeError_stopped {error : RuntimeError} (quotable : error.token.isQuotable = true)
    : (stopped error).writeError? = if error.isShort then none else some .tooLong := by
  rw [writeError?, Text.encodeError_eq_none_iff.mpr (isEncodable_stopped quotable)]
  rfl

/-- What was written of a run, without the notes of finer levels. -/
def Delivery.atLevel (delivery : Delivery) (level : Nat) : Delivery :=
  { session := delivery.session.atLevel level
    transcript :=
      { delivery.transcript with
        events := delivery.transcript.events.filter (·.occursAt level) }
    error := delivery.error }

namespace Session

variable {statements : List Stmt}

theorem runtimeError_of_failed (session : Session) {error : RuntimeError}
    (failed : (executeAll session.level statements).stop = some (.failed error))
    : (session.interpret statements).1.runtimeError = some error := by
  rw [session.interpret_of_failed ((interpret_stop _ _).trans failed)]

/-- A coarser level changes what is written of the notes and nothing else. -/
theorem deliver_coarser (session : Session) {coarse fine : Nat} (within : coarse ≤ fine)
    (suits : ∀ statement ∈ statements,
      statement.Satisfies (·.isValue = true) (·.isNotable = true))
    : (session.atLevel coarse).deliver statements
      = ((session.atLevel fine).deliver statements).atLevel coarse := by
  let ran := (session.atLevel fine).interpret statements
  let run := executeAll fine statements
  have events : ran.2.events = run.events ++ (run.lastNotes fine).map .note :=
    ((session.atLevel fine).events_of_interpret statements).trans (interpret_events fine statements)
  have without : ∀ event ∈ run.events, event.occursAt coarse = false →
      event.writeError? = none := by
    intro event member left
    cases event with
    | prompt | line => cases left
    | note taken =>
        exact Note.writeError_of_satisfies (executeAll_satisfies closed_isValue suits member)
  have last : ∀ event ∈ (run.lastNotes fine).map Event.note,
      event.writeError? = none
      ∨ event.writeError?
        = if ran.1.runtimeError.all (·.isShort) then none else some .tooLong := by
    intro event member
    obtain ⟨taken, inside, rfl⟩ := List.mem_map.mp member
    obtain ⟨error, rfl, failed⟩ := Run.stopped_of_lastNotes inside
    have notable := token_of_failed closed_isValue suits failed
    right
    rw [(session.atLevel fine).runtimeError_of_failed failed]
    exact Note.writeError_stopped (Bool.and_eq_true_iff.mp notable).2
  have error
      : Transcript.writeError? { ran.2 with events := ran.2.events.filter (·.occursAt coarse) }
          ran.1.runtimeError
        = ran.2.writeError? ran.1.runtimeError := by
    rw [Transcript.writeError?, Transcript.writeError?, events]
    exact findSome_filter_or without last
  have written
      : Event.written (ran.2.events.filter (·.occursAt coarse))
        = (Event.written ran.2.events).filter (·.occursAt coarse) := by
    rw [Event.written, Event.written, events]
    refine takeWhile_filter (fun event member left => ?_) ?_
    · rw [without event member left]
      rfl
    · rw [List.length_map]
      exact run.length_lastNotes_le fine
  have coarser := session.interpret_coarser within statements
  have errors
      : ((session.atLevel coarse).deliver statements).error
        = ((session.atLevel fine).deliver statements).error := by
    rw [deliver_error, deliver_error, coarser]
    exact error
  cases failed : ((session.atLevel fine).deliver statements).error with
  | none =>
      rw [deliver_of_error_eq_none (errors.trans failed), deliver_of_error_eq_none failed, coarser]
      rfl
  | some error =>
      rw [deliver_of_error_eq_some (errors.trans failed), deliver_of_error_eq_some failed, coarser,
        written]
      rfl

theorem deliver_level (session : Session) (statements : List Stmt)
    : (session.deliver statements).session.level = session.level := by
  cases failed : (session.deliver statements).error with
  | none =>
      rw [deliver_of_error_eq_none failed]
      exact session.interpret_level statements
  | some error => rw [deliver_of_error_eq_some failed]

/-- A run that is written whole at the finest level is written whole at every level. -/
theorem deliver_error_of_finest (session : Session)
    (whole : ((session.atLevel 3).deliver statements).error = none) (level : Nat)
    : ((session.atLevel level).deliver statements).error = none := by
  have nested := session.interpret_nested statements
  rw [deliver_error, Transcript.writeError?, Option.or_eq_none_iff] at whole ⊢
  obtain ⟨events, last⟩ := whole
  constructor
  · rw [nested.events level]
    rw [List.findSome?_eq_none_iff] at events ⊢
    exact fun event member => events event (List.mem_filter.mp member).1
  · rw [nested.session 3] at last
    rw [nested.session level]
    exact last

/-- What is written of a run at each level of detail: its session and what it has shown. -/
def written (session : Session) (statements : List Stmt) (level : Nat) : Session × Transcript :=
  let delivery := (session.atLevel level).deliver statements
  (delivery.session, delivery.transcript)

/-- Every level of detail nests in the finer ones, and none changes what a program does, as far as
it is written: that is the same at all levels if the lexemes of its operators can be written, and if
at the finest level everything is written.
-/
theorem tracing_changes_nothing (session : Session) (statements : List Stmt)
    : ((∀ statement ∈ statements,
          statement.Satisfies (·.isValue = true) (·.isNotable = true)) →
        Nested (session.written statements)
        ∧ ∀ level,
            ((session.atLevel level).deliver statements).error
              = ((session.atLevel 0).deliver statements).error)
      ∧ (((session.atLevel 3).deliver statements).error = none →
          Nested (session.written statements)
          ∧ ∀ level, ((session.atLevel level).deliver statements).error = none) := by
  refine ⟨fun suits => ⟨?_, fun level => ?_⟩, fun whole => ⟨?_, ?_⟩⟩
  · apply nested_of_coarser
    · exact fun level => (session.atLevel level).deliver_level statements
    · intro coarse fine within
      rw [written, session.deliver_coarser within suits]
      rfl
  · rw [session.deliver_coarser level.zero_le suits]
    rfl
  · have same : session.written statements
        = fun level => (session.atLevel level).interpret statements := by
      funext level
      rw [written, deliver_of_error_eq_none (session.deliver_error_of_finest whole level)]
    rw [same]
    exact session.interpret_nested statements
  · exact session.deliver_error_of_finest whole

/-- A program that is broken off at its first statement, a surrogate to be printed, at each level,
and one that fails at an operator.
-/
theorem tracing_changes_nothing_of_two
    : let half : Surrogate := ⟨0xD800, by decide⟩
      let bang : Token := ⟨.bang, .string "!", .nil, 1⟩
      let plus : Token := ⟨.plus, .string "+", .nil, 1⟩
      let unprintable :=
        [Stmt.print (.literal (.string ⟨[.surrogate half]⟩)),
          Stmt.expression (.unary bang (.literal .nil))]
      let failing := [Stmt.print (.binary (.literal .nil) plus (.literal .nil))]
      (∀ statement ∈ unprintable, statement.Satisfies (·.isValue = true) (·.isNotable = true))
      ∧ Nested ((fresh 0).written unprintable)
      ∧ (∀ level, ((fresh level).deliver unprintable).error = some (.unencodable ⟨half, 0, 1⟩))
      ∧ ((fresh 3).deliver failing).error = none
      ∧ Nested ((fresh 0).written failing) := by
  intro half bang plus unprintable failing
  have suits : ∀ statement ∈ unprintable,
      statement.Satisfies (·.isValue = true) (·.isNotable = true) := by
    intro statement member
    rcases List.mem_cons.mp member with rfl | member
    · exact (rfl : Datum.isValue (.string _) = true)
    · obtain rfl := List.mem_singleton.mp member
      exact ⟨rfl, rfl⟩
  have whole : ((fresh 3).deliver failing).error = none := by cbv
  obtain ⟨nested, errors⟩ := (tracing_changes_nothing (fresh 0) unprintable).1 suits
  exact ⟨suits, nested, fun level => (errors level).trans rfl, whole,
    ((tracing_changes_nothing (fresh 0) failing).2 whole).1⟩

/-- An operator with a surrogate as its lexeme can be applied, but not noted. -/
theorem tracing_breaks_off_at_surrogate
    : let half : Surrogate := ⟨0xD800, by decide⟩
      let odd : Token := ⟨.bang, .string ⟨[.surrogate half]⟩, .nil, 1⟩
      let statements := [Stmt.print (.unary odd (.literal .nil))]
      let ran := fun level => (fresh level).deliver statements
      (∀ statement ∈ statements, statement.expr.Valued)
      ∧ (ran 0).error = none
      ∧ Event.outputOf (ran 0).transcript.events = "true\n"
      ∧ (ran 2).error = some (.unencodable ⟨half, 0, 1⟩)
      ∧ Event.outputOf (ran 2).transcript.events = ""
      ∧ ¬Nested ((fresh 0).written statements) := by
  intro half odd statements ran
  refine ⟨fun statement member => ?_, rfl, rfl, rfl, rfl, fun nested => ?_⟩
  · obtain rfl := List.mem_singleton.mp member
    exact (rfl : Datum.isValue .nil = true)
  · have output : (("" : String) : Text) = "true\n" := nested.output 2
    exact absurd (Text.ofString_inj.mp output) (by decide)

end Session

end Lox
