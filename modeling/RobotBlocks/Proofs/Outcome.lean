/-!
# Outcomes

What can fail succeeds by successes of its parts. Tests of outcomes can be decided where a program is
known; `any_toOption`, `returned_eq_true` and `failed_eq_true` say what they tell of it.
-/

namespace RobotBlocks

namespace Outcome

variable {α β ε σ : Type}

theorem map_eq_ok {f : α → β} {x : Except ε α} {b : β} :
    x.map f = .ok b ↔ ∃ a, x = .ok a ∧ f a = b := by
  cases x <;> simp [Except.map]

theorem map_eq_error {f : α → β} {x : Except ε α} {e : ε} :
    x.map f = .error e ↔ x = .error e := by
  cases x <;> simp [Except.map]

theorem bind_eq_ok {x : Except ε α} {f : α → Except ε β} {b : β} :
    (x >>= f) = .ok b ↔ ∃ a, x = .ok a ∧ f a = .ok b := by
  cases x <;> simp [bind, Except.bind]

theorem bind_eq_error {x : Except ε α} {f : α → Except ε β} {e : ε} :
    (x >>= f) = .error e ↔ x = .error e ∨ ∃ a, x = .ok a ∧ f a = .error e := by
  cases x <;> simp [bind, Except.bind]

/-- A success that passes a test. -/
theorem any_toOption {x : Except ε α} {p : α → Bool} :
    x.toOption.any p = true ↔ ∃ a, x = .ok a ∧ p a = true := by
  cases x <;> simp [Except.toOption]

/-! ## Computations with a state -/

/-- Whether a computation returned something that passes a test with the state behind it. -/
def returned (r : EStateM.Result ε σ α) (p : α → σ → Bool) : Bool :=
  match r with
  | .ok a s => p a s
  | .error .. => false

/-- Whether a computation failed for a reason that passes a test with the state behind it. -/
def failed (r : EStateM.Result ε σ α) (p : ε → σ → Bool) : Bool :=
  match r with
  | .ok .. => false
  | .error e s => p e s

theorem returned_eq_true {r : EStateM.Result ε σ α} {p : α → σ → Bool} :
    returned r p = true ↔ ∃ a s, r = .ok a s ∧ p a s = true := by
  cases r <;> simp [returned, and_assoc]

theorem failed_eq_true {r : EStateM.Result ε σ α} {p : ε → σ → Bool} :
    failed r p = true ↔ ∃ e s, r = .error e s ∧ p e s = true := by
  cases r <;> simp [failed, and_assoc]

end Outcome

end RobotBlocks
