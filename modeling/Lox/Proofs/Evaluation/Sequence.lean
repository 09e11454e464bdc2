import Lox.Execute

/-! Runs one after another.
The statements of two programs together run as the first program, and then as the second one unless
the first was stopped. What the runs write stands in the same order.
-/

namespace Lox

theorem Run.append_assoc (first second third : Run)
    : (first.append second).append third = first.append (second.append third) := by
  obtain ⟨events, stop⟩ := first
  cases stop with
  | some => rfl
  | none =>
      obtain ⟨more, stop⟩ := second
      cases stop with
      | some => rfl
      | none => simp [append]

/-- Statements run one after another, by induction on the first ones. -/
theorem executeAll_append (level : Nat) (first second : List Stmt)
    : executeAll level (first ++ second)
      = (executeAll level first).append (executeAll level second) := by
  induction first with
  | nil => rfl
  | cons statement rest ih =>
      rw [List.cons_append, executeAll, executeAll, ih, Run.append_assoc]

/-- Two programs run one after another. -/
theorem interpret_append (level : Nat) (first second : List Stmt)
    : interpret level (first ++ second)
      = (interpret level first).append (interpret level second) := by
  unfold interpret
  rw [executeAll_append]
  generalize executeAll level second = later
  obtain ⟨events, stop⟩ := executeAll level first
  cases stop with
  | some reason => cases reason <;> rfl
  | none =>
      obtain ⟨more, stop⟩ := later
      cases stop with
      | none => rfl
      | some reason => cases reason <;> simp [Run.append]

namespace Event

theorem textOf_cons (event : Event) (rest : List Event)
    : textOf (event :: rest) = event.text ++ textOf rest := by
  rw [textOf, List.map_cons, Text.join_cons, textOf]

theorem textOf_append (first second : List Event)
    : textOf (first ++ second) = textOf first ++ textOf second := by
  simp [textOf]

theorem outputOf_append (first second : List Event)
    : outputOf (first ++ second) = outputOf first ++ outputOf second := by
  rw [outputOf, List.filter_append, textOf_append]
  rfl

theorem textOf_flatMap {α : Type} (events : α → List Event) (all : List α)
    : textOf (all.flatMap events) = Text.join (all.map fun one => textOf (events one)) := by
  induction all with
  | nil => rfl
  | cons one rest ih => rw [List.flatMap_cons, textOf_append, ih, List.map_cons, Text.join_cons]

theorem outputOf_flatMap {α : Type} (events : α → List Event) (all : List α)
    : outputOf (all.flatMap events) = Text.join (all.map fun one => outputOf (events one)) := by
  rw [outputOf, List.filter_flatMap, textOf_flatMap]
  rfl

end Event

end Lox
