import Mathlib.Logic.Basic

/-!
# Checks that throw

A validator runs one check after the other and throws the message of the first that fails. It accepts a
value if and only if every check passes.
-/

namespace MidnightReferendum.Checks

variable {ε α β : Type}

/-- The check of a condition. -/
def check (p : Prop) [Decidable p] (message : ε) : Except ε Unit := if p then .ok () else .error message

theorem bind_eq_ok {x : Except ε α} {f : α → Except ε β} {b : β} :
    (x >>= f) = .ok b ↔ ∃ a, x = .ok a ∧ f a = .ok b := by
  cases x <;> simp [bind, Except.bind]

variable {p : Prop} [Decidable p] {message : ε}

theorem check_of (h : p) : check p message = .ok () := if_pos h

@[simp]
theorem check_eq_ok {u : Unit} : check p message = .ok u ↔ p := by
  by_cases h : p <;> simp [check, h]

@[simp]
theorem check_bind_eq_ok {f : Unit → Except ε β} {b : β} :
    (check p message >>= f) = .ok b ↔ p ∧ f () = .ok b := by
  rw [bind_eq_ok]
  constructor
  · rintro ⟨_, hcheck, hf⟩
    exact ⟨check_eq_ok.mp hcheck, hf⟩
  · rintro ⟨hp, hf⟩
    exact ⟨(), check_of hp, hf⟩

end MidnightReferendum.Checks
