import Lox.Proofs.Evaluation.Folding
import Lox.Proofs.Session.Course
import Lox.Proofs.Session.Levels

/-! Folded programs.
A program in which parts of statements are folded prints the same, reports the same and stops at the
same statement. Only notes about operators are missing from its trace.
-/

namespace Lox

-----------------------------------------------------------------------------------------
-- Runs with fewer notes
-----------------------------------------------------------------------------------------

/-- The same lines are printed and the same outcomes noted, and the end is the same. Notes about
operators may be missing.
-/
structure Run.Thins (thin full : Run) : Prop where
  stop : thin.stop = full.stop
  events : thin.events.Sublist full.events
  outcomes : thin.events.filter (·.occursAt 1) = full.events.filter (·.occursAt 1)

namespace Run.Thins

theorem refl (run : Run) : run.Thins run :=
  ⟨rfl, .refl _, rfl⟩

/-- Events behind both runs change nothing. -/
theorem behind {thin full : Run} (h : thin.Thins full) (events : List Event) (stop : Option Stop)
    : Run.Thins ⟨thin.events ++ events, stop⟩ ⟨full.events ++ events, stop⟩ where
  stop := rfl
  events := h.events.append (.refl events)
  outcomes := by rw [List.filter_append, List.filter_append, h.outcomes]

theorem append {thin full thinNext fullNext : Run} (h : thin.Thins full)
    (next : thinNext.Thins fullNext)
    : (thin.append thinNext).Thins (full.append fullNext) := by
  obtain ⟨thinEvents, stop⟩ := thin
  obtain ⟨fullEvents, other⟩ := full
  obtain rfl : stop = other := h.stop
  cases stop with
  | some reason => exact h
  | none =>
      refine ⟨next.stop, h.events.append next.events, ?_⟩
      simp only [Run.append, List.filter_append]
      exact congrArg₂ (· ++ ·) h.outcomes next.outcomes

end Run.Thins

/-- Evaluations take notes about operators only, by induction on the expression. -/
theorem Expr.two_le_of_note {expr : Expr} {level : Nat} {taken : Note}
    (h : taken ∈ (expr.evaluate level).notes)
    : 2 ≤ taken.level := by
  induction expr with
  | literal => cases h
  | grouping inner ih => exact ih h
  | unary operator operand ih =>
      rcases Traced.mem_notes_bind h with earlier | ⟨value, -, h⟩
      · exact ih earlier
      rcases Traced.mem_notes_bind h with earlier | ⟨result, -, h⟩
      · cases earlier
      rcases Traced.mem_notes_bind h with own | ⟨_, -, later⟩
      · obtain rfl := Note.eq_of_takenAt own
        exact le_rfl
      · cases later
  | binary left operator right leftIh rightIh =>
      rcases Traced.mem_notes_bind h with earlier | ⟨first, -, h⟩
      · exact leftIh earlier
      rcases Traced.mem_notes_bind h with earlier | ⟨second, -, h⟩
      · exact rightIh earlier
      rcases Traced.mem_notes_bind h with dispatched | ⟨result, -, h⟩
      · rcases Traced.mem_notes_bind dispatched with own | ⟨_, -, later⟩
        · obtain rfl := Note.eq_of_takenAt own
          exact Nat.le_succ 2
        · cases later
      rcases Traced.mem_notes_bind h with own | ⟨_, -, later⟩
      · obtain rfl := Note.eq_of_takenAt own
        exact le_rfl
      · cases later

theorem Expr.outcomes_of_notes (expr : Expr) (level : Nat)
    : ((expr.evaluate level).notes.map Event.note).filter (·.occursAt 1) = [] := by
  rw [List.filter_eq_nil_iff]
  intro event member
  obtain ⟨taken, inside, rfl⟩ := List.mem_map.mp member
  have fine := Expr.two_le_of_note inside
  simp only [Event.occursAt, decide_eq_true_eq]
  omega

-----------------------------------------------------------------------------------------
-- Folded statements
-----------------------------------------------------------------------------------------

def Stmt.fold : Stmt → List Fold → Stmt
  | .expression expr, folds => .expression (expr.fold folds)
  | .print expr, folds => .print (expr.fold folds)

/-- Parts of the statement are folded in the other one. -/
def Stmt.FoldsTo (statement folded : Stmt) : Prop :=
  ∃ folds, statement.expr.Foldable folds ∧ folded = statement.fold folds

theorem Stmt.expr_fold (statement : Stmt) (folds : List Fold)
    : (statement.fold folds).expr = statement.expr.fold folds := by
  cases statement <;> rfl

theorem Stmt.ofValue_fold (level : Nat) (value : Datum) (statement : Stmt) (folds : List Fold)
    : Run.ofValue level value (statement.fold folds) = Run.ofValue level value statement := by
  cases statement <;> rfl

theorem Stmt.FoldsTo.thins {statement folded : Stmt} (level : Nat) (h : statement.FoldsTo folded)
    : (folded.execute level).Thins (statement.execute level) := by
  obtain ⟨folds, foldable, rfl⟩ := h
  have evaluation := foldable.thins level
  have notes : Run.Thins ⟨((statement.expr.fold folds).evaluate level).notes.map .note, none⟩
      ⟨(statement.expr.evaluate level).notes.map .note, none⟩ :=
    ⟨rfl, evaluation.notes.map _, by rw [Expr.outcomes_of_notes, Expr.outcomes_of_notes]⟩
  simp only [execute, expr_fold, evaluation.result]
  split
  case h_1 error _ => exact ⟨rfl, notes.events, notes.outcomes⟩
  case h_2 value _ =>
    rw [Stmt.ofValue_fold]
    exact notes.behind _ _

/-- Folded statements run as the statements do, by induction on them. -/
theorem executeAll_thins (level : Nat) {program folded : List Stmt}
    (h : List.Forall₂ Stmt.FoldsTo program folded)
    : (executeAll level folded).Thins (executeAll level program) := by
  induction h with
  | nil => exact .refl _
  | cons first _ ih => exact (first.thins level).append ih

theorem interpret_thins (level : Nat) {program folded : List Stmt}
    (h : List.Forall₂ Stmt.FoldsTo program folded)
    : (interpret level folded).Thins (interpret level program) := by
  have run := executeAll_thins level h
  unfold interpret
  generalize executeAll level folded = thin at run ⊢
  generalize executeAll level program = full at run ⊢
  obtain ⟨thinEvents, stop⟩ := thin
  obtain ⟨fullEvents, other⟩ := full
  obtain rfl : stop = other := run.stop
  cases stop with
  | none => exact run
  | some reason =>
      cases reason with
      | failed error => exact run.behind _ _
      | unprintable value => exact run

/-- Statements that stop alike fail at the same position, by induction on them. -/
theorem FailsAt.congr {level position : Nat} {first second : List Stmt} {error : RuntimeError}
    (alike : List.Forall₂
      (fun one other => (one.execute level).stop = (other.execute level).stop) first second)
    (h : FailsAt level first position error)
    : FailsAt level second position error := by
  induction alike generalizing position with
  | nil =>
      obtain ⟨before, _, _, none, -⟩ := h
      cases before <;> cases none
  | @cons one other rest others same _ ih =>
      obtain ⟨before, statement, after, split, rfl, reached, fails⟩ := h
      cases before with
      | nil =>
          obtain ⟨rfl, rfl⟩ := List.cons.inj split
          exact ⟨[], other, others, rfl, rfl, rfl, same ▸ fails⟩
      | cons head before =>
          obtain ⟨rfl, rfl⟩ := List.cons.inj split
          rw [executeAll_stop_eq_none_iff, List.forall_mem_cons] at reached
          have later := executeAll_stop_eq_none_iff.mpr reached.2
          exact (ih ⟨before, statement, after, rfl, rfl, later, fails⟩).cons (same ▸ reached.1)

theorem failsAt_iff_of_folded {level position : Nat} {program folded : List Stmt}
    {error : RuntimeError} (h : List.Forall₂ Stmt.FoldsTo program folded)
    : FailsAt level folded position error ↔ FailsAt level program position error := by
  have alike
      : List.Forall₂ (fun one other => (one.execute level).stop = (other.execute level).stop)
          program folded :=
    h.imp fun _ _ (folds : Stmt.FoldsTo _ _) => (folds.thins level).stop.symm
  exact ⟨FailsAt.congr (alike.flip.imp fun _ _ same => same.symm), FailsAt.congr alike⟩

-----------------------------------------------------------------------------------------
-- Folded programs
-----------------------------------------------------------------------------------------

/-- What is printed can be seen without the notes about operators. -/
theorem Event.outputOf_of_outcomes (events : List Event)
    : outputOf events = outputOf (events.filter (·.occursAt 1)) := by
  rw [outputOf, outputOf, List.filter_filter]
  congr 2
  funext event
  cases event <;> simp [isNote, occursAt]

namespace Session

/-- What a session shows belongs to its level. -/
theorem occursAt_of_interpret (session : Session) (statements : List Stmt)
    : ∀ event ∈ (session.interpret statements).2.events,
        event.occursAt session.level = true := by
  intro event member
  have events := (session.interpret_nested statements).events session.level
  change (session.interpret statements).2.events = _ at events
  rw [events] at member
  exact (List.mem_filter.mp member).2

theorem filter_occursAt_of_coarse {session : Session} (coarse : session.level ≤ 1)
    (statements : List Stmt)
    : (session.interpret statements).2.events.filter (·.occursAt 1)
      = (session.interpret statements).2.events := by
  refine List.filter_eq_self.mpr fun event member => ?_
  have occurs := session.occursAt_of_interpret statements event member
  cases event with
  | prompt | line => rfl
  | note taken =>
      simp only [Event.occursAt, decide_eq_true_eq] at occurs ⊢
      exact occurs.trans coarse

/-- What a session does with a folded program, beside what it does with the program itself. -/
structure Folded (session : Session) (program folded : List Stmt) : Prop where
  state : (session.interpret folded).1 = (session.interpret program).1
  diagnostics : (session.interpret folded).2.diagnostics = (session.interpret program).2.diagnostics
  output : Event.outputOf (session.interpret folded).2.events
    = Event.outputOf (session.interpret program).2.events
  /-- The same statement fails, with the same error. -/
  stopping : ∀ position error,
    FailsAt session.level folded position error ↔ FailsAt session.level program position error
  /-- Nothing is noted that was not noted before. -/
  events : (session.interpret folded).2.events.Sublist (session.interpret program).2.events
  /-- Where no operator is noted, nothing changes at all. -/
  coarse : session.level ≤ 1 → session.interpret folded = session.interpret program

theorem interpret_of_thins (session : Session) {program folded : List Stmt}
    (thins : (Lox.interpret session.level folded).Thins (Lox.interpret session.level program))
    : (session.interpret folded).1 = (session.interpret program).1
      ∧ (session.interpret folded).2.diagnostics = (session.interpret program).2.diagnostics
      ∧ (session.interpret folded).2.events.Sublist (session.interpret program).2.events
      ∧ (session.interpret folded).2.events.filter (·.occursAt 1)
        = (session.interpret program).2.events.filter (·.occursAt 1) := by
  obtain ⟨stop, events, outcomes⟩ := thins
  unfold interpret
  dsimp only
  rw [stop]
  split <;> exact ⟨rfl, rfl, events, outcomes⟩

theorem folded_of_forall₂ (session : Session) {program folded : List Stmt}
    (h : List.Forall₂ Stmt.FoldsTo program folded)
    : Folded session program folded := by
  obtain ⟨state, diagnostics, events, outcomes⟩ :=
    session.interpret_of_thins (interpret_thins session.level h)
  refine ⟨state, diagnostics, ?_, fun _ _ => failsAt_iff_of_folded h, events, fun coarse => ?_⟩
  · rw [Event.outputOf_of_outcomes, outcomes, ← Event.outputOf_of_outcomes]
  · rw [filter_occursAt_of_coarse coarse, filter_occursAt_of_coarse coarse] at outcomes
    have shown : (session.interpret folded).2 = (session.interpret program).2 :=
      congrArg₂ Transcript.mk outcomes diagnostics
    exact Prod.ext state shown

/-- Parts of an expression that evaluate to values, and none of which is inside another one, can all
be folded: the literals stand where the parts were, all else is as before, and the expression
evaluates to the same value or fails with the same error at every level. So a program whose
statements are folded prints and reports the same in every session, and stops at the same statement.
-/
theorem folding_keeps_outcomes
    : (∀ (expr : Expr) (folds : List Fold), expr.Foldable folds →
        (∀ fold ∈ folds, (expr.fold folds).part? fold.path = some (.literal fold.value))
        ∧ (∀ path, (∀ fold ∈ folds, Apart fold.path path) →
          (expr.fold folds).part? path = expr.part? path)
        ∧ ∀ level other,
          ((expr.fold folds).evaluate level).result = (expr.evaluate other).result)
      ∧ ∀ (session : Session) (program folded : List Stmt),
        List.Forall₂ Stmt.FoldsTo program folded → Folded session program folded := by
  refine ⟨fun expr folds foldable => ⟨foldable.part?_fold, ?_, fun level other => ?_⟩,
    fun session _ _ => session.folded_of_forall₂⟩
  · exact fun _ => Expr.part?_fold_of_apart
  · rw [(foldable.thins level).result, expr.evaluate_result, expr.evaluate_result]

/-- A quotient that is no number and a negative zero are folded in a sum that fails. -/
theorem folding_keeps_outcomes_of_doubles
    : let token := fun kind => Token.mk kind .nil .nil 1
      let zero := Expr.literal (.number 0.0)
      let quotient := Expr.binary zero (token .slash) zero
      let equation := Expr.binary quotient (token .equalEqual) (.unary (token .minus) zero)
      let sum := Expr.binary equation (token .plus) (.literal .nil)
      let folds : List Fold :=
        [⟨[.left, .left], .number (0.0 / 0.0)⟩, ⟨[.left, .right], .number (-0.0)⟩]
      let program := [Stmt.print quotient, .print sum]
      let folded := [Stmt.print (.literal (.number (0.0 / 0.0))), .print (sum.fold folds)]
      sum.Foldable folds
      ∧ (∀ level,
        ((sum.fold folds).evaluate level).result = .error ⟨token .plus, .operandsNotAddable⟩)
      ∧ List.Forall₂ Stmt.FoldsTo program folded
      ∧ Folded (fresh 3) program folded := by
  intro token zero quotient equation sum folds program folded
  obtain ⟨expressions, programs⟩ := folding_keeps_outcomes
  have foldable : sum.Foldable folds := by
    constructor
    case values =>
      refine List.forall_mem_cons.mpr ⟨⟨quotient, rfl, rfl⟩, ?_⟩
      exact List.forall_mem_singleton.mpr ⟨.unary (token .minus) zero, rfl, rfl⟩
    case apart => simp [folds, Apart]
  have whole : quotient.Foldable [⟨[], .number (0.0 / 0.0)⟩] := by
    constructor
    case values => exact List.forall_mem_singleton.mpr ⟨quotient, rfl, rfl⟩
    case apart => exact List.pairwise_singleton _ _
  have folds : List.Forall₂ Stmt.FoldsTo program folded :=
    .cons ⟨_, whole, rfl⟩ (.cons ⟨_, foldable, rfl⟩ .nil)
  refine ⟨foldable, fun level => ?_, folds, programs (fresh 3) program folded folds⟩
  exact (expressions sum _ foldable).2.2 level 0

end Session

end Lox
