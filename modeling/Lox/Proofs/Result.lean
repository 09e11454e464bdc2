/-! Computations that may fail.
What is done with a result happens only if there is one, so that a computation in two parts fails
where either of them does.
-/

namespace Lox

variable {ε α β : Type}

theorem ok_bind (value : α) (next : α → Except ε β)
    : (Except.ok value >>= next) = next value :=
  rfl

theorem bind_ok (result : Except ε α)
    : (result >>= fun value => .ok value) = result := by
  cases result <;> rfl

theorem bind_eq_ok {first : Except ε α} {next : α → Except ε β} {result : β}
    : (first >>= next) = .ok result ↔ ∃ value, first = .ok value ∧ next value = .ok result := by
  cases first with
  | error error =>
      constructor
      · intro h
        cases h
      · rintro ⟨_, failed, -⟩
        cases failed
  | ok value =>
      constructor
      · intro h
        exact ⟨value, rfl, h⟩
      · rintro ⟨_, found, h⟩
        cases found
        exact h

theorem bind_eq_error {first : Except ε α} {next : α → Except ε β} {error : ε}
    (h : (first >>= next) = .error error)
    : first = .error error ∨ ∃ value, first = .ok value ∧ next value = .error error := by
  cases first with
  | error => exact .inl (congrArg Except.error (Except.error.inj h))
  | ok value => exact .inr ⟨value, rfl, h⟩

theorem map_bind_eq {view : α → β} {first : Except ε α} {next : α → Except ε α}
    {viewed : Except ε β} {step : β → Except ε β}
    (one : first.map view = viewed)
    (other : ∀ value, (next value).map view = step (view value))
    : (first >>= next).map view = viewed >>= step := by
  subst one
  cases first with
  | error => rfl
  | ok value => exact other value

end Lox
