import Lox.Proofs.Evaluation.Settling
import Lox.Proofs.Grammar.Derivation

/-! What operators complain of.
In a tree that tokens write, each operator is one that the language has at its place. So none is
unknown where it is applied, and all that it can complain of is the kinds of its operands.
-/

namespace Lox

/-- What operators of a kind say of operands that do not suit them. -/
inductive Complaint : Token.Kind → Text → Prop where
  | negation
      : Complaint .minus "Operand must be a number."
  | sum
      : Complaint .plus "Operands must be two numbers or two strings."
  | numeric {kind : Token.Kind}
      (h : kind ∈ [.minus, .star, .slash, .greater, .greaterEqual, .less, .lessEqual])
      : Complaint kind "Operands must be numbers."

/-- Nothing is said of operands as of an operator that is unknown. -/
theorem Complaint.known {kind : Token.Kind} {error : RuntimeError}
    (h : Complaint kind error.message)
    : error.fault ≠ .unknownUnary ∧ error.fault ≠ .unknownBinary := by
  generalize said : error.message = message at h
  constructor <;>
    · intro unknown
      rw [RuntimeError.message, unknown] at said
      have first := congrArg (·.characters.head?) said
      cases h <;> simp at first

-----------------------------------------------------------------------------------------
-- Operators in their places
-----------------------------------------------------------------------------------------

/-- Each operator of the expression is one that the language has at its place. -/
def Expr.Applicable : Expr → Prop
  | .binary left operator right =>
      left.Applicable
      ∧ (∃ level : Grammar.Level, operator.kind ∈ level.operators)
      ∧ right.Applicable
  | .grouping inner => inner.Applicable
  | .literal _ => True
  | .unary operator operand =>
      (operator.kind = .bang ∨ operator.kind = .minus) ∧ operand.Applicable

namespace Grammar

theorem Derives.applicable {symbol : Symbol} {tokens : List Token} {expr : Expr}
    (h : Derives symbol tokens expr)
    : expr.Applicable := by
  induction h with
  | operand _ ih | primary _ ih => exact ih
  | @binary level _ _ _ _ _ member _ _ left right => exact ⟨left, ⟨level, member⟩, right⟩
  | unary kind _ ih => exact ⟨kind, ih⟩
  | falsehood | truth | nil | number | string => trivial
  | grouping _ _ _ ih => exact ih

theorem Program.applicable {tokens : List Token} {statements : List Stmt}
    (h : Program tokens statements)
    : ∀ statement ∈ statements, statement.expr.Applicable := by
  induction h with
  | nil => simp
  | cons head _ ih =>
      refine List.forall_mem_cons.mpr ⟨?_, ih⟩
      cases head with
      | expression derived | print _ derived => exact derived.applicable

end Grammar

-----------------------------------------------------------------------------------------
-- Errors of operators in their places
-----------------------------------------------------------------------------------------

namespace Token

variable {operator : Token} {error : RuntimeError}

theorem complaint_of_unaryKind {operand : Datum.Kind}
    (kind : operator.kind = .bang ∨ operator.kind = .minus)
    (h : operator.unaryKind operand = .error error)
    : Complaint error.token.kind error.message := by
  unfold unaryKind at h
  rcases kind with bang | minus
  · simp [bang] at h
  · simp only [minus] at h
    split at h <;> cases h
    change Complaint operator.kind _
    rw [minus]
    exact .negation

theorem complaint_of_numericKind {result left right : Datum.Kind}
    (kind : operator.kind
      ∈ [.minus, .star, .slash, .greater, .greaterEqual, .less, .lessEqual])
    (h : operator.numericKind result left right = .error error)
    : Complaint error.token.kind error.message := by
  unfold numericKind at h
  split at h <;> cases h
  exact .numeric kind

theorem complaint_of_plus {left right : Datum.Kind} (plus : operator.kind = .plus)
    (h : operator.binaryKind left right = .error error)
    : Complaint error.token.kind error.message := by
  unfold binaryKind at h
  simp only [plus] at h
  split at h
  · cases h
  · split at h <;> cases h
    change Complaint operator.kind _
    rw [plus]
    exact .sum

theorem complaint_of_binaryKind {level : Grammar.Level} {left right : Datum.Kind}
    (member : operator.kind ∈ level.operators)
    (h : operator.binaryKind left right = .error error)
    : Complaint error.token.kind error.message := by
  cases kind : operator.kind with
  | plus => exact complaint_of_plus kind h
  | minus | star | slash | greater | greaterEqual | less | lessEqual =>
      simp only [binaryKind, kind] at h
      exact complaint_of_numericKind (by simp [kind]) h
  | equalEqual | bangEqual => simp [binaryKind, kind] at h
  | _ => cases level <;> simp [kind, Grammar.Level.operators] at member

end Token

/-- The error of an expression is a complaint about operands, by induction on the expression. -/
theorem Expr.Applicable.complaint {expr : Expr} {error : RuntimeError}
    (applicable : expr.Applicable)
    (h : expr.skeleton.kind = .error error)
    : Complaint error.token.kind error.message := by
  induction expr with
  | literal => cases h
  | grouping _ ih => exact ih applicable h
  | unary operator operand ih =>
      obtain ⟨kind, inner⟩ := applicable
      rcases bind_eq_error h with failed | ⟨_, -, failed⟩
      · exact ih inner failed
      · exact Token.complaint_of_unaryKind kind failed
  | binary left operator right leftIh rightIh =>
      obtain ⟨first, ⟨level, member⟩, second⟩ := applicable
      rcases bind_eq_error h with failed | ⟨_, -, failed⟩
      · exact leftIh first failed
      · rcases bind_eq_error failed with failed | ⟨_, -, failed⟩
        · exact rightIh second failed
        · exact Token.complaint_of_binaryKind member failed

end Lox
