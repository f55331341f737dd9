/-
# Attempts one after the other

A sequence of attempts succeeds when each of them does, and fails with the fault of
the first one that does not.
-/

import Mathlib

namespace LaserCut.Attempt

variable {ε ε' α β : Type}

/-- A sequence succeeds when both of its parts do. -/
theorem bind_eq_ok_iff {first : Except ε α} {next : α → Except ε β} {result : β} :
    first >>= next = .ok result ↔ ∃ value, first = .ok value ∧ next value = .ok result := by
  cases first <;> simp [bind, Except.bind]

/-- A sequence fails with the fault of its first part, or with that of the second
once the first has succeeded. -/
theorem bind_eq_error_iff {first : Except ε α} {next : α → Except ε β} {fault : ε} :
    first >>= next = .error fault ↔
      first = .error fault ∨ ∃ value, first = .ok value ∧ next value = .error fault := by
  cases first <;> simp [bind, Except.bind]

/-- What is made of a result is there when the result is. -/
theorem map_eq_ok_iff {attempt : Except ε α} {f : α → β} {result : β} :
    attempt.map f = .ok result ↔ ∃ value, attempt = .ok value ∧ f value = result := by
  cases attempt <;> simp [Except.map]

/-- What is made of a result changes no fault. -/
theorem map_eq_error_iff {attempt : Except ε α} {f : α → β} {fault : ε} :
    attempt.map f = .error fault ↔ attempt = .error fault := by
  cases attempt <;> simp [Except.map]

/-- Another wording of faults changes no result. -/
theorem mapError_eq_ok_iff {attempt : Except ε α} {wording : ε → ε'} {result : α} :
    attempt.mapError wording = .ok result ↔ attempt = .ok result := by
  cases attempt <;> simp [Except.mapError]

/-- A fault in another wording stands for a fault. -/
theorem mapError_eq_error_iff {attempt : Except ε α} {wording : ε → ε'} {fault : ε'} :
    attempt.mapError wording = .error fault ↔
      ∃ cause, attempt = .error cause ∧ wording cause = fault := by
  cases attempt <;> simp [Except.mapError]

/-- A failed attempt ends a command on a state and leaves the state as it is. -/
theorem run_ofExcept_bind {σ : Type} (attempt : Except ε α) (next : α → ExceptT ε (StateM σ) β)
    (state : σ) :
    (MonadExcept.ofExcept attempt >>= next : ExceptT ε (StateM σ) β).run.run state =
      match attempt with
      | .error fault => (.error fault, state)
      | .ok value => (next value).run.run state := by
  cases attempt <;> rfl

end LaserCut.Attempt
