import Lox.Number.Text
import Mathlib

/-! Division by zero.
It always has a result, as every division of doubles has.
-/

namespace Lox.Number

open Float.Model UnpackedFloat

theorem beq_zero (x : Float) : (x == 0.0) = (x.toModel.unpack matches .zero _) := by
  change (x.toModel.unpack.compare (.zero .positive) == some .eq) = _
  cases x.toModel.unpack with
  | zero | notANumber => rfl
  | infinity sign | finite sign => cases sign <;> rfl

/-- What is divided by zero becomes infinite; only zero and what is no number become no number. -/
theorem div_zero {x y : Float} (zero : (y == 0.0) = true)
    : (x / y).isNaN = (x == 0.0 || x.isNaN) ∧ (x / y).isInf = !(x == 0.0 || x.isNaN) := by
  have quotient : (x / y).toModel
      = Float.Model.pack (x.toModel.unpack.div Format.binary64 y.toModel.unpack) := rfl
  rw [beq_zero] at zero ⊢
  unfold Float.isNaN Float.isInf Float.Model.isNaN
  rw [quotient]
  cases divisor : y.toModel.unpack with
  | zero sign =>
      cases x.toModel.unpack with
      | zero | notANumber =>
          simp only [UnpackedFloat.div]
          exact ⟨rfl, rfl⟩
      | infinity other | finite other =>
          simp only [UnpackedFloat.div]
          cases other <;> cases sign <;> exact ⟨rfl, rfl⟩
  | notANumber | infinity | finite =>
      rw [divisor] at zero
      cases zero

end Lox.Number
