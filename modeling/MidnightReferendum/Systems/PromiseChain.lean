import Mathlib.Order.Basic
import Mathlib.Logic.Function.Basic

/-!
# Operations in a chain of promises

Every new operation waits for the operation that asked last, and begins when that one has settled. When
the last operation of the chain has settled, the chain may forget it. The stages of the operations belong
to the program that uses the chain, which may advance them as long as an operation begins only when it is
its turn. Then the operations run one at a time in the order in which they have asked, and none has to
wait once all the operations before it have settled.
-/

namespace MidnightReferendum.PromiseChain

inductive Stage where
  | waiting
  | running
  | settled
  deriving DecidableEq

/-- The operations are numbered in the order in which they ask. -/
structure Chain where
  /-- how many operations have asked -/
  asked : ℕ
  /-- the operation that an operation waits for -/
  previous : ℕ → Option ℕ
  /-- the end of the chain -/
  tail : Option ℕ

def empty : Chain := ⟨0, fun _ ↦ none, none⟩

/-- A new operation asks. -/
def Chain.ask (c : Chain) : Chain :=
  ⟨c.asked + 1, Function.update c.previous c.asked c.tail, some c.asked⟩

/-- The chain forgets an operation if it is the last one. -/
def Chain.forget (c : Chain) (n : ℕ) : Chain :=
  { c with tail := if c.tail = some n then none else c.tail }

@[simp]
theorem asked_ask (c : Chain) : c.ask.asked = c.asked + 1 := rfl

@[simp]
theorem asked_forget (c : Chain) (n : ℕ) : (c.forget n).asked = c.asked := rfl

variable {c : Chain} {stage stage' : ℕ → Stage} {m n : ℕ}

/-- It is the turn of an operation: what it waits for has settled. -/
def Chain.Turn (c : Chain) (stage : ℕ → Stage) (n : ℕ) : Prop :=
  ∀ m ∈ c.previous n, stage m = .settled

instance : Decidable (c.Turn stage n) := by
  unfold Chain.Turn
  infer_instance

/-- The operations before `n` have settled. -/
def SettledBefore (stage : ℕ → Stage) (n : ℕ) : Prop := ∀ m < n, stage m = .settled

/-- `o` is the operation right before `n`, or nothing if all the operations before `n` have settled. -/
def Follows (stage : ℕ → Stage) (n : ℕ) (o : Option ℕ) : Prop :=
  (∃ m, o = some m ∧ n = m + 1) ∨ o = none ∧ SettledBefore stage n

/-- The operations begin one after the other. -/
structure Ordered (c : Chain) (stage : ℕ → Stage) : Prop where
  previous : ∀ n < c.asked, Follows stage n (c.previous n)
  tail : Follows stage c.asked c.tail
  begun : ∀ n < c.asked, stage n ≠ .waiting → SettledBefore stage n

theorem SettledBefore.mono (h : SettledBefore stage n)
    (hsettled : ∀ m < n, stage m = .settled → stage' m = .settled) : SettledBefore stage' n :=
  fun m hm ↦ hsettled m hm (h m hm)

theorem Follows.mono {o : Option ℕ} (h : Follows stage n o)
    (hsettled : ∀ m < n, stage m = .settled → stage' m = .settled) : Follows stage' n o := by
  rcases h with hsome | ⟨hnone, hbefore⟩
  · exact Or.inl hsome
  · exact Or.inr ⟨hnone, hbefore.mono hsettled⟩

theorem ordered_empty (stage : ℕ → Stage) : Ordered empty stage where
  previous n hn := absurd hn (Nat.not_lt_zero n)
  tail := Or.inr ⟨rfl, fun m hm ↦ absurd hm (Nat.not_lt_zero m)⟩
  begun n hn := absurd hn (Nat.not_lt_zero n)

/-- All the operations before one whose turn it is have settled. -/
theorem Ordered.settledBefore (h : Ordered c stage) (hn : n < c.asked) (hturn : c.Turn stage n) :
    SettledBefore stage n := by
  rcases h.previous n hn with ⟨m, hprevious, rfl⟩ | ⟨_, hbefore⟩
  · have hm := hturn m hprevious
    have hbegun := h.begun m (Nat.lt_of_succ_lt hn) (fun hwaiting ↦ by cases hm.symm.trans hwaiting)
    intro k hk
    rcases Nat.lt_succ_iff_lt_or_eq.mp hk with hlt | rfl
    · exact hbegun k hlt
    · exact hm
  · exact hbefore

/-- Operations begin when it is their turn, and what has settled stays so. -/
theorem Ordered.advance (h : Ordered c stage)
    (hsettled : ∀ n < c.asked, stage n = .settled → stage' n = .settled)
    (hbegins : ∀ n < c.asked, stage' n ≠ .waiting → stage n ≠ .waiting ∨ c.Turn stage n) :
    Ordered c stage' where
  previous n hn := (h.previous n hn).mono fun m hm ↦ hsettled m (Nat.lt_trans hm hn)
  tail := h.tail.mono hsettled
  begun n hn hbegun := by
    have hbefore : SettledBefore stage n := by
      rcases hbegins n hn hbegun with hold | hturn
      · exact h.begun n hn hold
      · exact h.settledBefore hn hturn
    exact hbefore.mono fun m hm ↦ hsettled m (Nat.lt_trans hm hn)

/-- A new operation waits at the end of the chain. -/
theorem Ordered.ask (h : Ordered c stage) (hsame : ∀ n < c.asked, stage' n = stage n)
    (hnew : stage' c.asked = .waiting) : Ordered c.ask stage' where
  previous n hn := by
    rcases Nat.lt_succ_iff_lt_or_eq.mp hn with hlt | rfl
    · have hprevious : c.ask.previous n = c.previous n := Function.update_of_ne (Nat.ne_of_lt hlt) _ _
      rw [hprevious]
      exact (h.previous n hlt).mono fun m hm ↦ (hsame m (Nat.lt_trans hm hlt)).trans
    · have hprevious : c.ask.previous c.asked = c.tail := Function.update_self _ _ _
      rw [hprevious]
      exact h.tail.mono fun m hm ↦ (hsame m hm).trans
  tail := Or.inl ⟨c.asked, rfl, rfl⟩
  begun n hn hbegun := by
    rcases Nat.lt_succ_iff_lt_or_eq.mp hn with hlt | rfl
    · rw [hsame n hlt] at hbegun
      exact (h.begun n hlt hbegun).mono fun m hm ↦ (hsame m (Nat.lt_trans hm hlt)).trans
    · exact absurd hnew hbegun

/-- The chain may forget an operation that has settled. -/
theorem Ordered.forget (h : Ordered c stage) (hsettled : stage n = .settled) :
    Ordered (c.forget n) stage := by
  refine ⟨h.previous, ?_, h.begun⟩
  by_cases hlast : c.tail = some n
  · right
    refine ⟨if_pos hlast, ?_⟩
    rcases h.tail with ⟨m, htail, hasked⟩ | ⟨htail, _⟩
    · obtain rfl := Option.some.inj (htail.symm.trans hlast)
      have hm : m < c.asked := hasked ▸ Nat.lt_succ_self m
      have hbegun := h.begun m hm fun hwaiting ↦ by cases hsettled.symm.trans hwaiting
      intro k hk
      rcases Nat.lt_succ_iff_lt_or_eq.mp (hasked ▸ hk) with hlt | rfl
      · exact hbegun k hlt
      · exact hsettled
    · cases htail.symm.trans hlast
  · have htail : (c.forget n).tail = c.tail := if_neg hlast
    rw [htail]
    exact h.tail

/-- At most one operation runs. -/
theorem Ordered.running_unique (h : Ordered c stage) (hm : m < c.asked) (hn : n < c.asked)
    (hrunning : stage m = .running) (hrunning' : stage n = .running) : m = n := by
  have hlt : ∀ {m n : ℕ}, n < c.asked → stage m = .running → stage n = .running → ¬m < n := by
    intro m n hn hm' hn' hmn
    have hsettled := h.begun n hn (fun hwaiting ↦ by cases hn'.symm.trans hwaiting) m hmn
    cases hm'.symm.trans hsettled
  exact Nat.le_antisymm (Nat.not_lt.mp (hlt hm hrunning' hrunning))
    (Nat.not_lt.mp (hlt hn hrunning hrunning'))

/-- An operation before which all have settled does not have to wait. -/
theorem Ordered.turn_of_settledBefore (h : Ordered c stage) (hn : n < c.asked)
    (hbefore : SettledBefore stage n) : c.Turn stage n := by
  intro m hm
  rcases h.previous n hn with ⟨k, hprevious, rfl⟩ | ⟨hnone, _⟩
  · obtain rfl := Option.some.inj (hprevious.symm.trans hm)
    exact hbefore k (Nat.lt_succ_self k)
  · cases hnone.symm.trans hm

end MidnightReferendum.PromiseChain
