import Lox.Parse.Partial

/-! The grammar of programs, as derivations that know nothing of a reader.
A derivation relates tokens to the one tree that they write: operators of a level are folded to the
left, unary operators nest to the right, and each pair of parentheses leaves one grouping.
-/

namespace Lox.Grammar

/-- The levels of binary operators, the loosest first. -/
inductive Level where
  | equality
  | comparison
  | term
  | factor
deriving DecidableEq

/-- What a derivation may start from. An expression is a chain of equalities. -/
inductive Symbol where
  | chain (level : Level)
  | unary
  | primary
deriving DecidableEq

namespace Level

/-- The operators of a level. -/
def operators : Level → List Token.Kind
  | .equality => [.bangEqual, .equalEqual]
  | .comparison => [.greater, .greaterEqual, .less, .lessEqual]
  | .term => [.minus, .plus]
  | .factor => [.slash, .star]

/-- What stands on both sides of an operator of a level. -/
def operand : Level → Symbol
  | .equality => .chain .comparison
  | .comparison => .chain .term
  | .term => .chain .factor
  | .factor => .unary

/-- The place of a level among all levels. -/
def rank : Level → Nat
  | .equality => 1
  | .comparison => 2
  | .term => 3
  | .factor => 4

end Level

/-- The place of a symbol; tighter symbols have greater ranks. -/
def Symbol.rank : Symbol → Nat
  | .chain level => level.rank
  | .unary => 5
  | .primary => 6

/-- The symbol of expressions. -/
def expression : Symbol :=
  .chain .equality

/-- The tokens write the expression as an instance of the symbol. A chain is one operand, or a chain
followed by an operator of its level and one more operand, so that it is folded to the left.
-/
inductive Derives : Symbol → List Token → Expr → Prop
  | operand {level tokens expr} (h : Derives level.operand tokens expr)
    : Derives (.chain level) tokens expr
  | binary {level first operator second left right}
    (member : operator.kind ∈ level.operators)
    (chain : Derives (.chain level) first left)
    (operand : Derives level.operand second right)
    : Derives (.chain level) (first ++ operator :: second) (.binary left operator right)
  | primary {tokens expr} (h : Derives .primary tokens expr)
    : Derives .unary tokens expr
  | unary {operator tokens operand}
    (kind : operator.kind = .bang ∨ operator.kind = .minus)
    (h : Derives .unary tokens operand)
    : Derives .unary (operator :: tokens) (.unary operator operand)
  | falsehood {token} (kind : token.kind = .falseKeyword)
    : Derives .primary [token] (.literal (.boolean false))
  | truth {token} (kind : token.kind = .trueKeyword)
    : Derives .primary [token] (.literal (.boolean true))
  | nil {token} (kind : token.kind = .nilKeyword)
    : Derives .primary [token] (.literal .nil)
  | number {token} (kind : token.kind = .number)
    : Derives .primary [token] (.literal token.literal)
  | string {token} (kind : token.kind = .string)
    : Derives .primary [token] (.literal token.literal)
  | grouping {left tokens right inner}
    (opening : left.kind = .leftParen)
    (h : Derives expression tokens inner)
    (closing : right.kind = .rightParen)
    : Derives .primary (left :: tokens ++ [right]) (.grouping inner)

/-- The tokens write the statement. -/
inductive Statement : List Token → Stmt → Prop
  | expression {tokens expr terminator}
    (h : Derives expression tokens expr)
    (kind : terminator.kind = .semicolon)
    : Statement (tokens ++ [terminator]) (.expression expr)
  | print {keyword tokens expr terminator}
    (opening : keyword.kind = .printKeyword)
    (h : Derives Grammar.expression tokens expr)
    (kind : terminator.kind = .semicolon)
    : Statement (keyword :: tokens ++ [terminator]) (.print expr)

/-- The tokens write the statements, one after another. -/
inductive Program : List Token → List Stmt → Prop
  | nil
    : Program [] []
  | cons {first rest statement statements}
    (head : Statement first statement)
    (tail : Program rest statements)
    : Program (first ++ rest) (statement :: statements)

-----------------------------------------------------------------------------------------
-- Looser symbols derive what tighter ones do
-----------------------------------------------------------------------------------------

theorem Level.rank_pos (level : Level) : 0 < level.rank := by
  cases level <;> decide

theorem Level.rank_lt_five (level : Level) : level.rank < 5 := by
  cases level <;> decide

theorem Level.rank_operand (level : Level) : level.operand.rank = level.rank + 1 := by
  cases level <;> rfl

theorem Symbol.rank_pos (symbol : Symbol) : 0 < symbol.rank := by
  cases symbol with
  | chain level => exact level.rank_pos
  | unary | primary => decide

theorem Symbol.rank_le_six (symbol : Symbol) : symbol.rank ≤ 6 := by
  cases symbol with
  | chain level => exact Nat.le_of_lt (Nat.lt_succ_of_lt level.rank_lt_five)
  | unary | primary => decide

theorem Symbol.rank_injective {first second : Symbol} (h : first.rank = second.rank)
    : first = second := by
  rcases first with ⟨_ | _ | _ | _⟩ | _ | _ <;> rcases second with ⟨_ | _ | _ | _⟩ | _ | _ <;>
    first | rfl | cases h

/-- A symbol derives what the next tighter one does. -/
theorem Derives.loosen_once {tight loose : Symbol} {tokens : List Token} {expr : Expr}
    (h : Derives tight tokens expr)
    (next : tight.rank = loose.rank + 1)
    : Derives loose tokens expr := by
  cases loose with
  | chain level =>
      have same : tight = level.operand :=
        Symbol.rank_injective (next.trans level.rank_operand.symm)
      exact .operand (same ▸ h)
  | unary =>
      have same : tight = .primary := Symbol.rank_injective next
      exact .primary (same ▸ h)
  | primary =>
      have bound := tight.rank_le_six
      rw [next] at bound
      exact absurd bound (by decide)

/-- Every rank between two symbols belongs to a symbol. -/
theorem Symbol.exists_rank (symbol : Symbol) {rank : Nat} (low : 0 < rank)
    (high : rank ≤ symbol.rank)
    : ∃ found : Symbol, found.rank = rank := by
  have bound : rank ≤ 6 := Nat.le_trans high symbol.rank_le_six
  have cases : rank = 1 ∨ rank = 2 ∨ rank = 3 ∨ rank = 4 ∨ rank = 5 ∨ rank = 6 := by omega
  rcases cases with rfl | rfl | rfl | rfl | rfl | rfl
  · exact ⟨.chain .equality, rfl⟩
  · exact ⟨.chain .comparison, rfl⟩
  · exact ⟨.chain .term, rfl⟩
  · exact ⟨.chain .factor, rfl⟩
  · exact ⟨.unary, rfl⟩
  · exact ⟨.primary, rfl⟩

/-- A symbol derives what any tighter one does, by induction on the distance of their ranks. -/
theorem Derives.loosen {tight loose : Symbol} {tokens : List Token} {expr : Expr}
    (h : Derives tight tokens expr)
    (order : loose.rank ≤ tight.rank)
    : Derives loose tokens expr := by
  obtain ⟨distance, total⟩ := Nat.exists_eq_add_of_le order
  induction distance generalizing tight with
  | zero =>
      have same : tight = loose := Symbol.rank_injective total
      exact same ▸ h
  | succ distance ih =>
      obtain ⟨between, rank⟩ :=
        tight.exists_rank (Nat.add_pos_left loose.rank_pos distance) (by omega)
      exact ih (h.loosen_once (by omega)) (by omega) rank

/-- The outermost operator of an expression binds at least as tightly as the rank says. -/
def BindsAtLeast (rank : Nat) : Expr → Prop
  | .binary _ operator _ => ∃ level : Level, operator.kind ∈ level.operators ∧ rank ≤ level.rank
  | .unary .. => rank ≤ Symbol.unary.rank
  | .grouping _ | .literal _ => True

/-- Precedence and associativity, throughout a tree: the left operand of a binary operator binds at
least as tightly as the operator itself, the right one more tightly, and a unary operator takes no
binary one but in parentheses.
-/
def Layered : Expr → Prop
  | .binary left operator right =>
      (∃ level : Level,
        operator.kind ∈ level.operators
        ∧ BindsAtLeast level.rank left
        ∧ BindsAtLeast (level.rank + 1) right)
      ∧ Layered left ∧ Layered right
  | .unary _ operand => BindsAtLeast Symbol.unary.rank operand ∧ Layered operand
  | .grouping inner => Layered inner
  | .literal _ => True

theorem BindsAtLeast.weaken {low high : Nat} {expr : Expr} (h : BindsAtLeast high expr)
    (order : low ≤ high)
    : BindsAtLeast low expr := by
  cases expr with
  | binary =>
      obtain ⟨level, member, bound⟩ := h
      exact ⟨level, member, Nat.le_trans order bound⟩
  | unary => exact Nat.le_trans order h
  | grouping | literal => trivial

/-- A derived tree binds as tightly as its symbol, by induction on the derivation. -/
theorem Derives.bindsAtLeast {symbol : Symbol} {tokens : List Token} {expr : Expr}
    (h : Derives symbol tokens expr)
    : BindsAtLeast symbol.rank expr := by
  induction h with
  | @operand level _ _ _ ih =>
      rw [level.rank_operand] at ih
      exact ih.weaken (Nat.le_succ _)
  | @binary level _ _ _ _ _ member => exact ⟨level, member, Nat.le_refl _⟩
  | primary _ ih => exact ih.weaken (by decide)
  | unary => exact Nat.le_refl _
  | falsehood | truth | nil | number | string | grouping => trivial

/-- Derived trees keep precedence and associativity, by induction on the derivation. -/
theorem Derives.layered {symbol : Symbol} {tokens : List Token} {expr : Expr}
    (h : Derives symbol tokens expr)
    : Layered expr := by
  induction h with
  | operand _ ih => exact ih
  | @binary level _ _ _ _ _ member chain operand leftLayered rightLayered =>
      have tighter := operand.bindsAtLeast
      rw [level.rank_operand] at tighter
      exact ⟨⟨level, member, chain.bindsAtLeast, tighter⟩, leftLayered, rightLayered⟩
  | primary _ ih => exact ih
  | unary _ operand ih => exact ⟨operand.bindsAtLeast, ih⟩
  | falsehood | truth | nil | number | string => trivial
  | grouping _ _ _ ih => exact ih

end Lox.Grammar
