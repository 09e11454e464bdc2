import Lox.Parse.Partial
import Lox.Proofs.Evaluation.Kinds
import Mathlib.Data.List.Forall2

/-! Runtime failure is decided by kinds alone.
Two expressions or programs that differ only in the contents of literals, and not in their kinds,
fail at the same statement with the same error, or have values of the same kinds throughout.
-/

namespace Lox

theorem Token.unaryKind_isValue {operator : Token} {operand result : Datum.Kind}
    (h : operator.unaryKind operand = .ok result)
    : result.isValue = true := by
  unfold unaryKind at h
  split at h
  · split at h <;> cases h
    rfl
  · cases h
    rfl
  · cases h

theorem Token.binaryKind_isValue {operator : Token} {left right result : Datum.Kind}
    (h : operator.binaryKind left right = .ok result)
    : result.isValue = true := by
  unfold binaryKind numericKind at h
  split at h
  case h_1 =>
    split at h
    · cases h
      rfl
    · split at h <;> cases h
      rfl
  case h_9 | h_10 =>
    cases h
    rfl
  case h_11 => cases h
  all_goals
    split at h <;> cases h
    rfl

/-- Expressions over values have kinds of values, by induction on the expression. -/
theorem Expr.Valued.kind_isValue {expr : Expr} {kind : Datum.Kind} (valued : expr.Valued)
    (h : expr.skeleton.kind = .ok kind)
    : kind.isValue = true := by
  induction expr with
  | literal value =>
      cases h
      exact valued
  | grouping inner ih => exact ih valued h
  | unary operator operand =>
      simp only [skeleton, Skeleton.kind] at h
      cases found : operand.skeleton.kind with
      | error => simp [found, bind, Except.bind] at h
      | ok value =>
          rw [found] at h
          exact Token.unaryKind_isValue h
  | binary left operator right =>
      simp only [skeleton, Skeleton.kind] at h
      cases first : left.skeleton.kind with
      | error => simp [first, bind, Except.bind] at h
      | ok value =>
          cases second : right.skeleton.kind with
          | error => simp [first, second, bind, Except.bind] at h
          | ok other =>
              rw [first, second] at h
              exact Token.binaryKind_isValue h

theorem Datum.display_of_isValue {value : Datum} (h : value.isValue = true)
    : ∃ text, value.display? = some text := by
  cases value with
  | boolean truth => cases truth <;> exact ⟨_, rfl⟩
  | nil | number | string => exact ⟨_, rfl⟩
  | integer | list | object => cases h

/-- Two evaluations fail alike or have values of one kind. -/
inductive SameOutcome : Except RuntimeError Datum → Except RuntimeError Datum → Prop
  | failed (error : RuntimeError) : SameOutcome (.error error) (.error error)
  | values {first second : Datum} (kinds : first.kind = second.kind)
    : SameOutcome (.ok first) (.ok second)

theorem sameOutcome_of_map_kind {first second : Except RuntimeError Datum}
    (h : first.map Datum.kind = second.map Datum.kind)
    : SameOutcome first second := by
  cases first with
  | error error =>
      cases second with
      | error other =>
          cases h
          exact .failed error
      | ok => cases h
  | ok value =>
      cases second with
      | error => cases h
      | ok other => exact .values (Except.ok.inj h)

theorem Expr.value_of_kind {expr : Expr} {kind : Datum.Kind} (h : expr.skeleton.kind = .ok kind)
    : ∃ value, expr.value = .ok value ∧ value.kind = kind := by
  rw [← expr.value_kind] at h
  cases found : expr.value with
  | error => simp [found, Except.map] at h
  | ok value =>
      rw [found] at h
      exact ⟨value, rfl, Except.ok.inj h⟩

theorem Expr.value_of_kind_error {expr : Expr} {error : RuntimeError}
    (h : expr.skeleton.kind = .error error)
    : expr.value = .error error := by
  rw [← expr.value_kind] at h
  cases found : expr.value with
  | error other =>
      rw [found] at h
      cases h
      rfl
  | ok value => simp [found, Except.map] at h

-----------------------------------------------------------------------------------------
-- Programs
-----------------------------------------------------------------------------------------

/-- The form of a statement and the skeleton of its expression. -/
def Stmt.skeleton : Stmt → Form × Skeleton
  | .expression expr => (.expression, expr.skeleton)
  | .print expr => (.print, expr.skeleton)

/-- The statements before the position run to their ends, and the one there fails. -/
def FailsAt (level : Nat) (statements : List Stmt) (position : Nat) (error : RuntimeError)
    : Prop :=
  ∃ before statement after,
    statements = before ++ statement :: after
    ∧ before.length = position
    ∧ (executeAll level before).stop = none
    ∧ (statement.execute level).stop = some (.failed error)

/-- The position of the first statement that fails, and its error. -/
def firstFailure : List (Form × Skeleton) → Option (Nat × RuntimeError)
  | [] => none
  | first :: rest =>
      match first.2.kind with
      | .error error => some (0, error)
      | .ok _ => (firstFailure rest).map fun (position, error) => (position + 1, error)

theorem Stmt.skeleton_snd (statement : Stmt) : statement.skeleton.2 = statement.expr.skeleton := by
  cases statement <;> rfl

theorem Stmt.execute_stop_of_error {statement : Stmt} {error : RuntimeError} (level : Nat)
    (h : statement.expr.value = .error error)
    : (statement.execute level).stop = some (.failed error) := by
  rw [← statement.expr.evaluate_result level] at h
  simp [execute, h]

theorem Stmt.execute_stop_of_ok {statement : Stmt} {value : Datum} (level : Nat)
    (isValue : value.isValue = true) (h : statement.expr.value = .ok value)
    : (statement.execute level).stop = none := by
  rw [← statement.expr.evaluate_result level] at h
  obtain ⟨text, shown⟩ := Datum.display_of_isValue isValue
  cases statement <;> simp_all [execute, Run.ofValue]

theorem executeAll_cons_of_none {level : Nat} {statement : Stmt} {rest : List Stmt}
    (h : (statement.execute level).stop = none)
    : (executeAll level (statement :: rest)).stop = (executeAll level rest).stop := by
  simp [executeAll, Run.append, h]

theorem executeAll_cons_of_some {level : Nat} {statement : Stmt} {rest : List Stmt} {stop : Stop}
    (h : (statement.execute level).stop = some stop)
    : (executeAll level (statement :: rest)).stop = some stop := by
  simp [executeAll, Run.append, h]

theorem FailsAt.cons {level position : Nat} {statement : Stmt} {rest : List Stmt}
    {error : RuntimeError}
    (runs : (statement.execute level).stop = none)
    (h : FailsAt level rest position error)
    : FailsAt level (statement :: rest) (position + 1) error := by
  obtain ⟨before, failing, after, rfl, rfl, reached, fails⟩ := h
  refine ⟨statement :: before, failing, after, rfl, rfl, ?_, fails⟩
  rw [executeAll_cons_of_none runs, reached]

/-- The run of a program fails where the skeletons of its statements say so, by induction on the
statements.
-/
theorem executeAll_failure (level : Nat) {statements : List Stmt}
    (valued : ∀ statement ∈ statements, statement.expr.Valued)
    : match firstFailure (statements.map Stmt.skeleton) with
      | none =>
          (executeAll level statements).stop = none
          ∧ ∀ statement ∈ statements, ∃ value, statement.expr.value = .ok value
      | some (position, error) =>
          (executeAll level statements).stop = some (.failed error)
          ∧ FailsAt level statements position error := by
  induction statements with
  | nil => exact ⟨rfl, fun _ member => nomatch member⟩
  | cons statement rest ih =>
      have later := ih fun other member => valued other (List.mem_cons_of_mem _ member)
      simp only [List.map_cons, firstFailure, statement.skeleton_snd]
      cases found : statement.expr.skeleton.kind with
      | error error =>
          have fails := Stmt.execute_stop_of_error level (Expr.value_of_kind_error found)
          exact ⟨executeAll_cons_of_some fails, [], statement, rest, rfl, rfl, rfl, fails⟩
      | ok kind =>
          obtain ⟨value, evaluates, rfl⟩ := Expr.value_of_kind found
          have isValue := (valued statement (by simp)).kind_isValue found
          have runs := Stmt.execute_stop_of_ok level isValue evaluates
          rw [executeAll_cons_of_none runs]
          cases next : firstFailure (rest.map Stmt.skeleton) with
          | none =>
              rw [next] at later
              refine ⟨later.1, fun other member => ?_⟩
              rcases List.mem_cons.mp member with rfl | member
              · exact ⟨value, evaluates⟩
              · exact later.2 other member
          | some failure =>
              rw [next] at later
              exact ⟨later.1, later.2.cons runs⟩

theorem interpret_stop (level : Nat) (statements : List Stmt)
    : (interpret level statements).stop = (executeAll level statements).stop := by
  unfold interpret
  dsimp only
  split <;> rfl

/-- Two runs fail at the same statement with the same error, or come to their ends with values of
the same kinds, statement by statement.
-/
def SameRun (level other : Nat) (first second : List Stmt) : Prop :=
  (∃ position error,
    FailsAt level first position error
    ∧ FailsAt other second position error
    ∧ (interpret level first).stop = some (.failed error)
    ∧ (interpret other second).stop = some (.failed error))
  ∨ (interpret level first).stop = none
    ∧ (interpret other second).stop = none
    ∧ List.Forall₂
        (fun one two =>
          ∃ value found,
            (one.expr.evaluate level).result = .ok value
            ∧ (two.expr.evaluate other).result = .ok found
            ∧ value.kind = found.kind)
        first second

theorem sameOutcome_of_skeleton {first second : Expr} (h : first.skeleton = second.skeleton)
    : SameOutcome first.value second.value :=
  sameOutcome_of_map_kind (by rw [first.value_kind, second.value_kind, h])

/-- Statements with the same skeletons that all have values have values of the same kinds, by
induction on the statements.
-/
theorem values_of_skeletons (level other : Nat) {first second : List Stmt}
    (h : first.map Stmt.skeleton = second.map Stmt.skeleton)
    (evaluates : ∀ statement ∈ first, ∃ value, statement.expr.value = .ok value)
    : List.Forall₂
        (fun one two =>
          ∃ value found,
            (one.expr.evaluate level).result = .ok value
            ∧ (two.expr.evaluate other).result = .ok found
            ∧ value.kind = found.kind)
        first second := by
  induction first generalizing second with
  | nil =>
      obtain rfl := List.map_eq_nil_iff.mp h.symm
      exact .nil
  | cons one rest ih =>
      obtain ⟨two, others, rfl, same, more⟩ := List.map_eq_cons_iff.mp h.symm
      refine .cons ?_ (ih more.symm fun statement member => evaluates statement (by simp [member]))
      obtain ⟨value, found⟩ := evaluates one (by simp)
      have outcomes : SameOutcome one.expr.value two.expr.value := by
        apply sameOutcome_of_skeleton
        rw [← one.skeleton_snd, ← two.skeleton_snd, same]
      rw [one.expr.evaluate_result, two.expr.evaluate_result]
      rw [found] at outcomes ⊢
      generalize two.expr.value = result at outcomes ⊢
      cases outcomes with
      | @values _ found kinds => exact ⟨value, found, rfl, rfl, kinds⟩

theorem sameRun_of_skeletons (level other : Nat) {first second : List Stmt}
    (valued : ∀ statement ∈ first, statement.expr.Valued)
    (othersValued : ∀ statement ∈ second, statement.expr.Valued)
    (h : first.map Stmt.skeleton = second.map Stmt.skeleton)
    : SameRun level other first second := by
  have one := executeAll_failure level valued
  have two := executeAll_failure other othersValued
  rw [← interpret_stop] at one two
  rw [← h] at two
  cases found : firstFailure (first.map Stmt.skeleton) with
  | none =>
      rw [found] at one two
      exact .inr ⟨one.1, two.1, values_of_skeletons level other h one.2⟩
  | some failure =>
      rw [found] at one two
      exact .inl ⟨failure.1, failure.2, one.2, two.2, one.1, two.1⟩

/-- Whether an expression over values fails, and with which error, follows from its skeleton, as
does the kind of its value. So two expressions that differ only in the contents of literals have the
same outcome, and two such programs fail at the same statement or not at all.
-/
theorem kinds_decide_failure
    : (∀ (level : Nat) (expr : Expr), expr.Valued →
        match expr.skeleton.kind with
        | .ok kind =>
            kind.isValue = true
            ∧ ∃ value, (expr.evaluate level).result = .ok value ∧ value.kind = kind
        | .error error => (expr.evaluate level).result = .error error)
      ∧ (∀ (level other : Nat) (first second : Expr), first.Valued → second.Valued →
          first.skeleton = second.skeleton →
          SameOutcome (first.evaluate level).result (second.evaluate other).result)
      ∧ ∀ (level other : Nat) (first second : List Stmt),
          (∀ statement ∈ first, statement.expr.Valued) →
          (∀ statement ∈ second, statement.expr.Valued) →
          first.map Stmt.skeleton = second.map Stmt.skeleton →
          SameRun level other first second := by
  refine ⟨fun level expr valued => ?_, fun level other first second _ _ same => ?_,
    fun level other first second => sameRun_of_skeletons level other⟩
  · rw [expr.evaluate_result]
    cases found : expr.skeleton.kind with
    | error error => exact Expr.value_of_kind_error found
    | ok kind => exact ⟨valued.kind_isValue found, Expr.value_of_kind found⟩
  · rw [first.evaluate_result, second.evaluate_result]
    exact sameOutcome_of_skeleton same

/-- A quotient and a comparison whose left operand is a string: whatever the numbers and the string
are, the second statement fails and the first does not.
-/
theorem kinds_decide_failure_of_comparison
    : let slash : Token := ⟨.slash, .string "/", .nil, 1⟩
      let less : Token := ⟨.less, .string "<", .nil, 2⟩
      let compare := fun text x =>
        Expr.binary (.literal (.string text)) less (.literal (.number x))
      let program := fun text x y =>
        [Stmt.print (.binary (.literal (.number x)) slash (.literal (.number y))),
          Stmt.expression (compare text y)]
      ((compare "" (0.0 / 0.0)).evaluate 3).result = .error ⟨less, .operandsNotNumbers⟩
      ∧ SameOutcome ((compare "" (-0.0)).evaluate 0).result ((compare "a" 1.5).evaluate 3).result
      ∧ SameRun 0 3 (program "" 0.0 (-0.0)) (program "a" 1.5 (1.0 / 0.0)) := by
  intro slash less compare program
  obtain ⟨single, pairs, programs⟩ := kinds_decide_failure
  have valued : ∀ text x, (compare text x).Valued := fun _ _ => ⟨rfl, rfl⟩
  have all : ∀ text x y, ∀ statement ∈ program text x y, statement.expr.Valued := by
    intro text x y statement member
    rcases List.mem_cons.mp member with rfl | member
    · exact ⟨rfl, rfl⟩
    · obtain rfl := List.mem_singleton.mp member
      exact valued text y
  exact ⟨single 3 _ (valued _ _), pairs 0 3 _ _ (valued _ _) (valued _ _) rfl,
    programs 0 3 _ _ (all _ _ _) (all _ _ _) rfl⟩

end Lox
