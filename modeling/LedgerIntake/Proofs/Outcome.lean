/-!
# Outcomes

What a computation that may be refused does, told in one place: a property of what it returns
together with a property of what it is refused for. A sequence of computations is described step by
step; the property of the refusals is handed on through the whole sequence.
-/

namespace LedgerIntake

variable {ε α β : Type}

/-- What is returned has one property, and what is refused has another. -/
def Ensures (outcome : Except ε α) (returns : α → Prop) (refuses : ε → Prop) : Prop :=
  match outcome with
  | .ok value => returns value
  | .error cause => refuses cause

/-- A sequence returns what its last step returns on what the steps before it return. -/
theorem bind_eq_ok_iff {outcome : Except ε α} {next : α → Except ε β} {result : β} :
    (outcome >>= next) = .ok result ↔ ∃ value, outcome = .ok value ∧ next value = .ok result := by
  cases outcome with
  | ok value =>
    constructor
    · exact fun returned => ⟨value, rfl, returned⟩
    · rintro ⟨_, same, returned⟩
      cases same
      exact returned
  | error cause =>
    constructor
    · intro refused
      cases refused
    · rintro ⟨_, refused, _⟩
      cases refused

/-- A sequence is refused where one of its steps is. -/
theorem bind_eq_error_iff {outcome : Except ε α} {next : α → Except ε β} {cause : ε} :
    (outcome >>= next) = .error cause ↔
      outcome = .error cause ∨ ∃ value, outcome = .ok value ∧ next value = .error cause := by
  cases outcome with
  | ok value =>
    constructor
    · exact fun refused => .inr ⟨value, rfl, refused⟩
    · rintro (refused | ⟨_, same, refused⟩)
      · cases refused
      · cases same
        exact refused
  | error first =>
    constructor
    · intro refused
      cases refused
      exact .inl rfl
    · rintro (refused | ⟨_, returned, _⟩)
      · cases refused
        rfl
      · cases returned

/-- Where no later step can be refused for a cause, only the first one is. -/
theorem bind_eq_error_iff_left {outcome : Except ε α} {next : α → Except ε β} {cause : ε}
    (never : ∀ value, next value ≠ .error cause) :
    (outcome >>= next) = .error cause ↔ outcome = .error cause := by
  rw [bind_eq_error_iff]
  apply or_iff_left
  rintro ⟨value, -, refused⟩
  exact never value refused

namespace Ensures

variable {outcome : Except ε α} {returns returns' : α → Prop} {refuses refuses' : ε → Prop}

/-- What was returned has the property. -/
theorem of_ok {value : α} (ensured : Ensures outcome returns refuses)
    (returned : outcome = .ok value) :
    returns value := by
  subst returned
  exact ensured

/-- What was refused has the property. -/
theorem of_error {cause : ε} (ensured : Ensures outcome returns refuses)
    (refused : outcome = .error cause) : refuses cause := by
  subst refused
  exact ensured

/-- Properties may be replaced by weaker ones. -/
theorem mono (ensured : Ensures outcome returns refuses)
    (returning : ∀ value, returns value → returns' value)
    (refusing : ∀ cause, refuses cause → refuses' cause) : Ensures outcome returns' refuses' := by
  cases outcome with
  | ok value => exact returning value ensured
  | error cause => exact refusing cause ensured

/-- A sequence does what its last step does on whatever the steps before it return. -/
theorem bind {next : α → Except ε β} {yields : β → Prop} (ensured : Ensures outcome returns refuses)
    (step : ∀ value, returns value → Ensures (next value) yields refuses) :
    Ensures (outcome >>= next) yields refuses := by
  cases outcome with
  | ok value => exact step value ensured
  | error cause => exact ensured

end Ensures

end LedgerIntake
