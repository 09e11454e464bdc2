import Lox.Proofs.Evaluation.Value
import Lox.Proofs.Tree.Parts

/-! Folding of constants.
A part of an expression that evaluates to a value can be replaced by a literal of it. The expression
then evaluates as before, to the same value or with the same error; only the notes about the part
are missing. Parts that are apart can all be folded.
-/

namespace Lox

/-- The same result comes of fewer notes, which are in the same order. -/
structure Traced.Thins {α : Type} (thin full : Traced α) : Prop where
  result : thin.result = full.result
  notes : thin.notes.Sublist full.notes

namespace Traced.Thins

variable {α β : Type}

theorem refl (traced : Traced α) : traced.Thins traced :=
  ⟨rfl, .refl _⟩

theorem trans {thin middle full : Traced α} (h : thin.Thins middle) (next : middle.Thins full)
    : thin.Thins full :=
  ⟨h.result.trans next.result, h.notes.trans next.notes⟩

/-- What goes on with a value goes on with the same one. -/
theorem bind {thin full : Traced α} {thinNext fullNext : α → Traced β} (h : thin.Thins full)
    (next : ∀ value, (thinNext value).Thins (fullNext value))
    : (thin >>= thinNext).Thins (full >>= fullNext) := by
  obtain ⟨thinNotes, result⟩ := thin
  obtain ⟨fullNotes, other⟩ := full
  obtain rfl : result = other := h.result
  cases result with
  | error => exact ⟨rfl, h.notes⟩
  | ok value => exact ⟨(next value).result, h.notes.append (next value).notes⟩

end Traced.Thins

/-- A part of an expression that is to be folded: where it is, and what it evaluates to. -/
structure Fold where
  path : List Turn
  value : Datum

namespace Expr

/-- Each part evaluates to its value, and none of them is inside another one. -/
structure Foldable (expr : Expr) (folds : List Fold) : Prop where
  values : ∀ fold ∈ folds,
    ∃ part, expr.part? fold.path = some part ∧ (part.evaluate 0).result = .ok fold.value
  apart : folds.Pairwise fun first second => Apart first.path second.path

/-- The expression with literals in place of the parts. -/
def fold (expr : Expr) (folds : List Fold) : Expr :=
  folds.foldl (fun folded fold => folded.replace fold.path (.literal fold.value)) expr

variable {expr part other : Expr} {path : List Turn} {level : Nat}

-----------------------------------------------------------------------------------------
-- One part
-----------------------------------------------------------------------------------------

/-- An expression evaluates to the result that it has with another part of the same result, by
induction on the path to the part.
-/
theorem thins_replace (found : expr.part? path = some part)
    (thins : (other.evaluate level).Thins (part.evaluate level))
    : ((expr.replace path other).evaluate level).Thins (expr.evaluate level) := by
  fun_induction part? expr path with
  | case1 expr =>
      obtain rfl := Option.some.inj found
      rwa [replace]
  | case2 left operator right path ih => exact (ih found).bind fun _ => .refl _
  | case3 left operator right path ih =>
      exact (Traced.Thins.refl _).bind fun _ => (ih found).bind fun _ => .refl _
  | case4 inner path ih => exact ih found
  | case5 operator operand path ih => exact (ih found).bind fun _ => .refl _
  | case6 => cases found

theorem thins_literal {value : Datum} (evaluates : (part.evaluate 0).result = .ok value)
    : ((Expr.literal value).evaluate level).Thins (part.evaluate level) where
  result := by
    rw [part.evaluate_result] at evaluates ⊢
    exact evaluates.symm
  notes := List.nil_sublist _

-----------------------------------------------------------------------------------------
-- Many parts
-----------------------------------------------------------------------------------------

variable {fold : Fold} {folds : List Fold}

/-- When one part is folded, the others are what they were. -/
theorem Foldable.next (h : expr.Foldable (fold :: folds))
    : (expr.replace fold.path (.literal fold.value)).Foldable folds := by
  obtain ⟨first, later⟩ := List.pairwise_cons.mp h.apart
  refine ⟨fun next member => ?_, later⟩
  rw [part?_replace_of_apart (first next member)]
  exact h.values next (List.mem_cons_of_mem _ member)

/-- Folding leaves every other part as it is, by induction on the folds. -/
theorem part?_fold_of_apart (apart : ∀ fold ∈ folds, Apart fold.path path)
    : (expr.fold folds).part? path = expr.part? path := by
  induction folds generalizing expr with
  | nil => rfl
  | cons fold rest ih =>
      obtain ⟨first, later⟩ := List.forall_mem_cons.mp apart
      exact (ih later).trans (part?_replace_of_apart first)

/-- Folding puts every value in its place, by induction on the folds. -/
theorem Foldable.part?_fold (h : expr.Foldable folds)
    : ∀ fold ∈ folds, (expr.fold folds).part? fold.path = some (.literal fold.value) := by
  induction folds generalizing expr with
  | nil => simp
  | cons fold rest ih =>
      refine List.forall_mem_cons.mpr ⟨?_, ih h.next⟩
      obtain ⟨first, -⟩ := List.pairwise_cons.mp h.apart
      obtain ⟨part, found, -⟩ := h.values fold List.mem_cons_self
      refine (part?_fold_of_apart fun next member => (first next member).symm).trans ?_
      exact part?_replace_self found

/-- A folded expression evaluates to what the expression evaluates to, by induction on the folds. -/
theorem Foldable.thins (level : Nat) (h : expr.Foldable folds)
    : ((expr.fold folds).evaluate level).Thins (expr.evaluate level) := by
  induction folds generalizing expr with
  | nil => exact .refl _
  | cons fold rest ih =>
      obtain ⟨part, found, evaluates⟩ := h.values fold List.mem_cons_self
      exact (ih h.next).trans (thins_replace found (thins_literal evaluates))

end Expr

end Lox
