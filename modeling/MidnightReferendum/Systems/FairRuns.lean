import Mathlib.Data.Nat.Init
import MidnightReferendum.Systems.Execution

/-!
# Infinite runs

An infinite run submits one input after the other. Every state of it is the state of a finite run, so what holds
in every finite run holds in it. A run is fair to an input if the input is submitted once it would be accepted
from some time on.
-/

namespace MidnightReferendum.Execution

variable {σ ι ε : Type*} {f : σ → ι → Except ε σ} {s : σ}

structure InfiniteRun (f : σ → ι → Except ε σ) (s : σ) where
  state : ℕ → σ
  input : ℕ → ι
  start : state 0 = s
  next : ∀ i, state (i + 1) = apply f (state i) (input i)

/-- An input that would be accepted from time `k` on is submitted at a later time. -/
def InfiniteRun.Fair (r : InfiniteRun f s) (i : ι) : Prop :=
  ∀ k, (∀ j, k ≤ j → (f (r.state j) i).isOk = true) → ∃ j, k ≤ j ∧ r.input j = i

/-- The run that submits the inputs of a sequence. -/
def InfiniteRun.ofInputs (f : σ → ι → Except ε σ) (s : σ) (input : ℕ → ι) : InfiniteRun f s where
  state k := run f s ((List.range k).map input)
  input := input
  start := rfl
  next k := by rw [List.range_succ, List.map_append, List.map_singleton, run_concat]

/-- A run is fair to an input that it submits again and again. -/
theorem InfiniteRun.fair_of_recurs (r : InfiniteRun f s) {i : ι} (h : ∀ k, ∃ j, k ≤ j ∧ r.input j = i) : r.Fair i :=
  fun k _ ↦ h k

theorem InfiniteRun.state_eq (r : InfiniteRun f s) (k : ℕ) :
    r.state k = run f s ((List.range k).map r.input) := by
  induction k with
  | zero => exact r.start
  | succ k ih => rw [r.next, ih, List.range_succ, List.map_append, List.map_singleton, run_concat]

variable {P : σ → Prop}

/-- What accepted inputs keep stays true. -/
theorem InfiniteRun.stays (r : InfiniteRun f s) (hstep : ∀ t i t', P t → f t i = .ok t' → P t') {j k : ℕ}
    (hjk : j ≤ k) (hj : P (r.state j)) : P (r.state k) := by
  induction k, hjk using Nat.le_induction with
  | base => exact hj
  | succ k hjk ih =>
    rw [r.next]
    unfold apply
    split
    · next t' ht' => exact hstep _ _ _ ih ht'
    · exact ih

/-- Finitely many facts that stay true once they are true are true at one time. -/
theorem InfiniteRun.stays_all (r : InfiniteRun f s) {Q : ℕ → σ → Prop}
    (hstep : ∀ m t i t', Q m t → f t i = .ok t' → Q m t') (n : ℕ) (h : ∀ m < n, ∃ j, Q m (r.state j)) :
    ∃ k, ∀ m < n, Q m (r.state k) := by
  induction n with
  | zero => exact ⟨0, fun m hm ↦ absurd hm (Nat.not_lt_zero m)⟩
  | succ n ih =>
    obtain ⟨k, hk⟩ := ih fun m hm ↦ h m (Nat.lt_succ_of_lt hm)
    obtain ⟨j, hj⟩ := h n (Nat.lt_succ_self n)
    refine ⟨max j k, fun m hm ↦ ?_⟩
    rcases Nat.lt_succ_iff_lt_or_eq.mp hm with hlt | rfl
    · exact r.stays (hstep m) (Nat.le_max_right j k) (hk m hlt)
    · exact r.stays (hstep m) (Nat.le_max_left j k) hj

/-- In a run that is fair to an input, something happens if the input makes it happen and would be accepted
until then. -/
theorem InfiniteRun.Fair.eventually {r : InfiniteRun f s} {i : ι} (h : r.Fair i) {k : ℕ}
    (henabled : ∀ j, k ≤ j → ¬P (r.state j) → (f (r.state j) i).isOk = true)
    (heffect : ∀ t t', f t i = .ok t' → P t') : ∃ j, P (r.state j) := by
  by_contra hnever
  have hnot : ∀ j, ¬P (r.state j) := fun j hj ↦ hnever ⟨j, hj⟩
  obtain ⟨j, hj, hinput⟩ := h k fun j hj ↦ henabled j hj (hnot j)
  have hok := henabled j hj (hnot j)
  cases ht : f (r.state j) i with
  | error e =>
    rw [ht] at hok
    cases hok
  | ok t' =>
    apply hnot (j + 1)
    rw [r.next, hinput, apply_of_ok ht]
    exact heffect _ _ ht

end MidnightReferendum.Execution
