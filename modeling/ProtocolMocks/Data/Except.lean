/-!
# Outcomes

Facts about `Except` that belong to no particular outcome.
-/

namespace ProtocolMocks

/-- What follows an outcome succeeds if and only if the outcome does and its value is taken on. -/
theorem bind_eq_ok_iff {ε α β : Type} {x : Except ε α} {f : α → Except ε β} {b : β} :
    x >>= f = .ok b ↔ ∃ a, x = .ok a ∧ f a = .ok b := by
  constructor
  · intro h
    cases x with
    | error e => cases h
    | ok a => exact ⟨a, rfl, h⟩
  · rintro ⟨a, rfl, h⟩
    exact h

/-- The value of an outcome is that of a success. -/
theorem toOption_eq_some_iff {ε α : Type} {outcome : Except ε α} {a : α} :
    outcome.toOption = some a ↔ outcome = .ok a := by
  cases outcome <;> simp [Except.toOption]

/-- An outcome without a value has an error. -/
theorem toOption_eq_none_iff {ε α : Type} {outcome : Except ε α} :
    outcome.toOption = none ↔ ∃ e, outcome = .error e := by
  cases outcome <;> simp [Except.toOption]

/-- The error of an outcome. -/
def error? {ε α : Type} : Except ε α → Option ε
  | .error e => some e
  | .ok _ => none

/-- An outcome without an error is a success. -/
theorem error?_eq_none_iff {ε α : Type} {outcome : Except ε α} :
    error? outcome = none ↔ ∃ a, outcome = .ok a := by
  cases outcome <;> simp [error?]

end ProtocolMocks
