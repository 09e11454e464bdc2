import Lox.Proofs.Grammar.Derivation

/-! Frames that wait for an operand, seen from the grammar.
A symbol is admitted by frames when what it derives is complete before the innermost frame takes it:
nothing tighter is left to wait, so that settling at the rank of the symbol changes nothing.
-/

namespace Lox.Grammar

theorem strength_of_mem {level : Level} {kind : Token.Kind} (member : kind ∈ level.operators)
    : kind.strength? = some level.rank := by
  cases level <;> cases kind <;> first | rfl | simp [Level.operators] at member

theorem mem_of_strength {kind : Token.Kind} {strength : Nat}
    (h : kind.strength? = some strength)
    : ∃ level : Level, kind ∈ level.operators ∧ level.rank = strength := by
  cases kind with
  | bangEqual | equalEqual => exact ⟨.equality, by decide, Option.some.inj h⟩
  | greater | greaterEqual | less | lessEqual => exact ⟨.comparison, by decide, Option.some.inj h⟩
  | minus | plus => exact ⟨.term, by decide, Option.some.inj h⟩
  | slash | star => exact ⟨.factor, by decide, Option.some.inj h⟩
  | _ => cases h

theorem isUnary_iff {kind : Token.Kind} : kind.isUnary = true ↔ kind = .bang ∨ kind = .minus := by
  cases kind <;> simp [Token.Kind.isUnary]

/-- The innermost frame takes what the symbol derives as its whole operand. -/
def Admits (symbol : Symbol) : List Frame → Prop
  | [] | .group :: _ => True
  | .unary _ :: _ => Symbol.unary.rank ≤ symbol.rank
  | .binary _ operator :: _ =>
      ∃ level : Level, operator.kind ∈ level.operators ∧ level.rank < symbol.rank

theorem Admits.tighten {loose tight : Symbol} {frames : List Frame} (h : Admits loose frames)
    (order : loose.rank ≤ tight.rank)
    : Admits tight frames := by
  cases frames with
  | nil => trivial
  | cons frame rest =>
      cases frame with
      | unary => exact Nat.le_trans h order
      | group => trivial
      | binary =>
          obtain ⟨level, member, bound⟩ := h
          exact ⟨level, member, Nat.lt_of_lt_of_le bound order⟩

theorem admits_operand {level : Level} {operator : Token} (left : Expr) (frames : List Frame)
    (member : operator.kind ∈ level.operators)
    : Admits level.operand (.binary left operator :: frames) :=
  ⟨level, member, level.rank_operand ▸ Nat.lt_succ_self _⟩

/-- Frames that admit a chain give it no operator at the strength of its level. -/
theorem settle_of_admits {level : Level} {frames : List Frame} (expr : Expr)
    (h : Admits (.chain level) frames)
    : Partial.settle level.rank expr frames = (expr, frames) := by
  cases frames with
  | nil => rfl
  | cons frame rest =>
      cases frame with
      | unary => exact absurd h (Nat.not_le_of_lt level.rank_lt_five)
      | group => rfl
      | binary left operator =>
          obtain ⟨outer, member, bound⟩ := h
          have looser : ¬level.rank ≤ outer.rank := Nat.not_le_of_lt bound
          simp [Partial.settle, strength_of_mem member, looser]

/-- The partial statement after more tokens, as long as each of them extends it. -/
def after? (statement : Partial) : List Token → Option Partial
  | [] => some statement
  | token :: rest =>
      match statement.feed token with
      | .extended next => after? next rest
      | _ => none

theorem after?_cons {statement next : Partial} {token : Token} (rest : List Token)
    (h : statement.feed token = .extended next)
    : after? statement (token :: rest) = after? next rest := by
  rw [after?, h]

theorem after?_append {statement middle : Partial} {first : List Token} (second : List Token)
    (h : after? statement first = some middle)
    : after? statement (first ++ second) = after? middle second := by
  induction first generalizing statement with
  | nil =>
      cases h
      rfl
  | cons token rest ih =>
      rw [List.cons_append, after?]
      rw [after?] at h
      split at h
      · rename_i next step
        exact ih h
      · cases h

end Lox.Grammar
