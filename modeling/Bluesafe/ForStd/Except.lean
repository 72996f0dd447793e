import Mathlib.Data.List.Basic

/-!
# Results of two steps

When a computation of two steps succeeds and when it fails.
-/

namespace Except

variable {ε α β : Type} {x : Except ε α} {f : α → Except ε β}

/-- Two steps succeed when each of them does. -/
theorem exists_of_bind_eq_ok {b : β} (h : x >>= f = .ok b) : ∃ a, x = .ok a ∧ f a = .ok b := by
  cases x with
  | error e => cases h
  | ok a => exact ⟨a, rfl, h⟩

/-- Two steps fail in the first or in the second. -/
theorem error_of_bind {e : ε} (h : x >>= f = .error e) :
    x = .error e ∨ ∃ a, x = .ok a ∧ f a = .error e := by
  cases x with
  | ok a => exact .inr ⟨a, rfl, h⟩
  | error e' =>
    cases h
    exact .inl rfl

end Except
