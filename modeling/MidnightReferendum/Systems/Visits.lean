import Mathlib.Data.List.Destutter
import Mathlib.Data.List.Infix
import MidnightReferendum.Systems.Execution

/-!
# The values that a run goes through

The values of an observation after every prefix of a run, where a value that does not change is listed
once. An observation may have no value yet.
-/

namespace MidnightReferendum.Execution

variable {α σ ι ε : Type*} [DecidableEq α]

theorem destutter'_concat (a : α) (l : List α) (x : α) :
    (l ++ [x]).destutter' (· ≠ ·) a =
      if (a :: l).getLast? = some x then l.destutter' (· ≠ ·) a else l.destutter' (· ≠ ·) a ++ [x] := by
  induction l generalizing a with
  | nil =>
    by_cases h : a = x
    · simp [h]
    · simp [h]
  | cons b l ih =>
    rw [List.cons_append, List.getLast?_cons_cons]
    by_cases hab : a = b
    · subst hab
      rw [List.destutter'_cons_neg _ (by simp), List.destutter'_cons_neg _ (by simp), ih]
    · rw [List.destutter'_cons_pos _ (by simpa using hab), List.destutter'_cons_pos _ (by simpa using hab),
        ih]
      split
      · rfl
      · rfl

/-- A repeated value is not listed again. -/
theorem destutter_concat (l : List α) (x : α) :
    (l ++ [x]).destutter (· ≠ ·) =
      if l.getLast? = some x then l.destutter (· ≠ ·) else l.destutter (· ≠ ·) ++ [x] := by
  cases l with
  | nil => rfl
  | cons a l => exact destutter'_concat a l x

variable (f : σ → ι → Except ε σ) (g : σ → Option α) (s : σ)

/-- The values of an observation after every prefix of a run. -/
def values (is : List ι) : List α := is.inits.filterMap fun pre ↦ g (run f s pre)

/-- The values of an observation along a run, without repetitions. -/
def visits (is : List ι) : List α := (values f g s is).destutter (· ≠ ·)

omit [DecidableEq α] in
theorem values_concat (is : List ι) (i : ι) :
    values f g s (is ++ [i]) = values f g s is ++ (g (run f s (is ++ [i]))).toList := by
  rw [values, List.inits_append, List.filterMap_append]
  cases h : g (run f s (is ++ [i])) <;> simp [values, h]

variable {f g s}

omit [DecidableEq α] in
theorem getLast?_values {is : List ι} {x : α} (h : g (run f s is) = some x) :
    (values f g s is).getLast? = some x := by
  induction is using List.reverseRecOn with
  | nil =>
    rw [run_nil] at h
    simp [values, h]
  | append_singleton is i _ =>
    rw [values_concat, h]
    simp

/-- What a run visits when its last input does not change the value. -/
theorem visits_of_eq {is : List ι} {i : ι} (h : g (run f s (is ++ [i])) = g (run f s is)) :
    visits f g s (is ++ [i]) = visits f g s is := by
  rw [visits, values_concat, h]
  cases hg : g (run f s is) with
  | none => simp [visits]
  | some x => rw [Option.toList_some, destutter_concat, if_pos (getLast?_values hg), visits]

/-- What a run visits when its last input changes the value. -/
theorem visits_of_ne {is : List ι} {i : ι} {x y : α} (hx : g (run f s is) = some x)
    (hy : g (run f s (is ++ [i])) = some y) (h : x ≠ y) :
    visits f g s (is ++ [i]) = visits f g s is ++ [y] := by
  rw [visits, values_concat, hy, Option.toList_some, destutter_concat, getLast?_values hx,
    if_neg (by simpa using h), visits]

omit [DecidableEq α] in
theorem values_eq_nil (hstay : ∀ a i b, f a i = .ok b → g b = none → g a = none) {is : List ι}
    (h : g (run f s is) = none) : values f g s is = [] := by
  induction is using List.reverseRecOn with
  | nil =>
    rw [run_nil] at h
    simp [values, h]
  | append_singleton is i ih =>
    have hpre : g (run f s is) = none := by
      rw [run_concat] at h
      cases hok : f (run f s is) i with
      | ok s' =>
        rw [apply_of_ok hok] at h
        exact hstay _ _ _ hok h
      | error e =>
        rw [apply_of_error hok] at h
        exact h
    rw [values_concat, ih hpre, h]
    rfl

/-- What a run visits when its last input gives the first value, if values stay. -/
theorem visits_of_none (hstay : ∀ a i b, f a i = .ok b → g b = none → g a = none) {is : List ι} {i : ι}
    {x : α} (hnone : g (run f s is) = none) (hx : g (run f s (is ++ [i])) = some x) :
    visits f g s (is ++ [i]) = [x] := by
  rw [visits, values_concat, values_eq_nil hstay hnone, hx]
  rfl

end MidnightReferendum.Execution
