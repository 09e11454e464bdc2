import Lox.Proofs.Document.Loaded
import Lox.Proofs.Json.Lengths
import Lox.Proofs.Number.Double
import Lox.Proofs.Session.Delivery

/-! Tokens that are loaded from a text are not too long for texts.
Neither the lexeme nor the line of a token can be, since no integer in the text is, and since the
lines that doubles and numerals give are short.
-/

namespace Lox

theorem mul_lt_ten_pow {m n first second : Nat} (one : m < 2 ^ first) (other : n ≤ 2 ^ second)
    : m * n < 10 ^ (first + second) :=
  calc m * n
      < 2 ^ first * 2 ^ second := Nat.mul_lt_mul_of_lt_of_le one other (Nat.pow_pos (by decide))
    _ = 2 ^ (first + second) := (Nat.pow_add 2 first second).symm
    _ ≤ 10 ^ (first + second) := Nat.pow_le_pow_left (by decide) _

/-- The whole part of a double has at most three hundred and nine digits. -/
theorem Number.isShort_of_truncate {x : Float} {n : Int} (h : truncate? x = some n)
    : Text.isShort n = true := by
  unfold truncate? at h
  split at h
  case h_1 | h_2 => cases h
  case h_3 =>
    cases h
    decide
  case h_4 sign mantissa exponent positive found =>
    obtain ⟨canonical, high⟩ := canonical_of_unpack found
    have scale : exponent.toNat ≤ 971 := Int.toNat_le.mpr high
    have digits : 53 + exponent.toNat ≤ Text.maxDigits :=
      (Nat.add_le_add_left scale 53).trans (by decide)
    have small : mantissa * wholePower 2 exponent < 10 ^ Text.maxDigits :=
      (mul_lt_ten_pow canonical.small le_rfl).trans_le (Nat.pow_le_pow_right (by decide) digits)
    have quotient : Text.isShort
        ((mantissa * wholePower 2 exponent / wholePower 2 (-exponent) : Nat) : Int) = true :=
      Text.isShort_iff.mpr ((Nat.div_le_self _ _).trans_lt small)
    push_cast at quotient
    obtain rfl := Option.some.inj h
    split
    · exact Text.isShort_neg quotient
    · exact quotient

namespace Document

theorem isShort_of_loadLine {d : Datum} {line : Int} (short : d.isShort = true)
    (h : loadLine d = .ok line)
    : Text.isShort line = true := by
  have given : lineOf d = .ok line := by
    rw [loadLine] at h
    cases found : lineOf d with
    | ok other =>
        rw [found] at h
        cases h
        rfl
    | error error =>
        rw [found] at h
        cases h
  unfold lineOf at given
  split at given
  case h_1 =>
    cases given
    exact short
  case h_2 truth =>
    cases given
    cases truth <;> decide
  case h_3 =>
    split at given <;> cases given
    exact Number.isShort_of_truncate ‹_›
  case h_4 =>
    split at given <;> cases given
    exact Text.isShort_of_integer ‹_›
  case h_5 => cases given

theorem inherited_isShort : Inherited (·.isShort = true) where
  field short found := Datum.areShortFields_iff.mp short _ (mem_of_lookup found)
  item short := Datum.areShort_iff.mp short _

theorem isShort_of_loadToken {d : Datum} {token : Token} (short : d.isShort = true)
    (h : loadToken d = .ok token)
    : token.isShort = true := by
  cases d with
  | object fields =>
      simp only [loadToken, bind_eq_ok] at h
      obtain ⟨_, -, _, -, lexeme, named, _, -, line, numbered, _, given, same⟩ := h
      cases same
      refine Bool.and_eq_true_iff.mpr ⟨?_, ?_⟩
      · exact inherited_isShort.field short (part_eq_ok named)
      · exact isShort_of_loadLine (inherited_isShort.field short (part_eq_ok numbered)) given
  | nil | boolean | number | string | integer | list => cases h

/-- The operators of a program that a text holds are not too long. -/
theorem isShort_of_loadProgram {text : List Char} {document : Datum} {statements : List Stmt}
    (read : Json.read text = .ok document) (loaded : loadProgram document = .ok statements)
    : ∀ statement ∈ statements, statement.Satisfies (·.isValue = true) (·.isShort = true) :=
  satisfies_of_loadProgram inherited_isShort isShort_of_loadToken (Json.isShort_of_read read) loaded

end Document

end Lox
