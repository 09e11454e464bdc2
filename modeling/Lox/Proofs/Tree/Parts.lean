import Lox.Tree.Basic

/-! Parts of a tree and the places where they are.
A path leads from an expression down to one of its parts. Two paths are apart if neither part is
inside the other one; then the one part can be replaced and the other stays.
-/

namespace Lox

/-- A step from an expression down to one of its operands. -/
inductive Turn where
  | left
  | right
  | inner

/-- Neither path goes on where the other one ends. -/
def Apart (path other : List Turn) : Prop :=
  ¬path <+: other ∧ ¬other <+: path

/-- Paths that are apart part at some turn: at the first one, or behind it. -/
theorem Apart.behind {turn : Turn} {path aside : List Turn} (h : Apart (turn :: path) aside)
    : ∃ first rest, aside = first :: rest ∧ (turn = first → Apart path rest) := by
  cases aside with
  | nil => exact absurd List.nil_prefix h.2
  | cons first rest =>
      refine ⟨first, rest, rfl, ?_⟩
      rintro rfl
      constructor
      · exact fun within => h.1 (List.cons_prefix_cons.mpr ⟨rfl, within⟩)
      · exact fun within => h.2 (List.cons_prefix_cons.mpr ⟨rfl, within⟩)

theorem Apart.symm {path aside : List Turn} (h : Apart path aside) : Apart aside path :=
  ⟨h.2, h.1⟩

namespace Expr

/-- The part that a path leads to. -/
def part? : Expr → List Turn → Option Expr
  | expr, [] => some expr
  | .binary left _ _, .left :: path => left.part? path
  | .binary _ _ right, .right :: path => right.part? path
  | .grouping inner, .inner :: path => inner.part? path
  | .unary _ operand, .inner :: path => operand.part? path
  | _, _ => none

/-- The expression with another one in place of the part that a path leads to. -/
def replace : Expr → List Turn → Expr → Expr
  | _, [], other => other
  | .binary left operator right, .left :: path, other =>
      .binary (left.replace path other) operator right
  | .binary left operator right, .right :: path, other =>
      .binary left operator (right.replace path other)
  | .grouping inner, .inner :: path, other => .grouping (inner.replace path other)
  | .unary operator operand, .inner :: path, other => .unary operator (operand.replace path other)
  | expr, _, _ => expr

variable {expr part other : Expr} {path : List Turn}

/-- The other expression is where the part was, by induction on the path down the expression. -/
theorem part?_replace_self (h : expr.part? path = some part)
    : (expr.replace path other).part? path = some other := by
  fun_induction part? expr path with
  | case1 => simp [replace, part?]
  | case2 left operator right path ih => exact ih h
  | case3 left operator right path ih => exact ih h
  | case4 inner path ih => exact ih h
  | case5 operator operand path ih => exact ih h
  | case6 => cases h

/-- Other parts stay, by induction on the path up to the turn where theirs leaves it. -/
theorem part?_replace_of_apart {aside : List Turn} (apart : Apart path aside)
    : (expr.replace path other).part? aside = expr.part? aside := by
  fun_induction replace expr path other generalizing aside with
  | case1 => exact absurd List.nil_prefix apart.1
  | case2 left operator right path other ih =>
      obtain ⟨first, rest, rfl, behind⟩ := apart.behind
      cases first with
      | left => exact ih (behind rfl)
      | right | inner => rfl
  | case3 left operator right path other ih =>
      obtain ⟨first, rest, rfl, behind⟩ := apart.behind
      cases first with
      | right => exact ih (behind rfl)
      | left | inner => rfl
  | case4 inner path other ih | case5 operator inner path other ih =>
      obtain ⟨first, rest, rfl, behind⟩ := apart.behind
      cases first with
      | inner => exact ih (behind rfl)
      | left | right => rfl
  | case6 => rfl

end Expr

end Lox
