import Mathlib.Logic.Function.Basic

/-!
# Tables

A table gives some of the keys an entry. These are the entries of a table after one key has been changed.
-/

namespace MidnightReferendum.Tables

variable {κ α : Type*} [DecidableEq κ] {table : κ → Option α} {key key' : κ} {a b : α}

theorem update_some_eq_some (h : Function.update table key (some a) key' = some b) :
    key' = key ∧ b = a ∨ key' ≠ key ∧ table key' = some b := by
  by_cases hkey : key' = key
  · subst hkey
    rw [Function.update_self] at h
    exact Or.inl ⟨rfl, (Option.some.inj h).symm⟩
  · rw [Function.update_of_ne hkey] at h
    exact Or.inr ⟨hkey, h⟩

theorem update_none_eq_some (h : Function.update table key none key' = some b) :
    key' ≠ key ∧ table key' = some b := by
  have hkey : key' ≠ key := by
    rintro rfl
    rw [Function.update_self] at h
    cases h
  rw [Function.update_of_ne hkey] at h
  exact ⟨hkey, h⟩

end MidnightReferendum.Tables
