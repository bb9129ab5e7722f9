import Mathlib.Algebra.BigOperators.Group.List.Basic
import Mathlib.Algebra.GroupWithZero.Nat

/-!
# Worklists

A loop takes the first pending item, may fail on it, and else puts the items that it yields before the others. If the
items that an item yields are smaller together than the item, the loop ends after as many rounds as the size of the
pending items, and it fails if and only if some item that can be reached fails.
-/

namespace MidnightReferendum.Worklist

variable {α ε : Type*} (visit : α → Except ε (List α))

/-- At most so many rounds of the loop. -/
def drain : ℕ → List α → Option (Except ε Unit)
  | _, [] => some (.ok ())
  | 0, _ :: _ => none
  | rounds + 1, item :: pending =>
    match visit item with
    | .error e => some (.error e)
    | .ok pushed => drain rounds (pushed ++ pending)

/-- An item that an item yields, in any number of rounds. -/
inductive Reach : α → α → Prop
  | refl (a : α) : Reach a a
  | step {a b c : α} {pushed : List α} (hvisit : visit a = .ok pushed) (hmem : b ∈ pushed) (hreach : Reach b c) :
    Reach a c

variable {visit}

/-- What an item reaches, besides itself, is reached by the items that it yields. -/
theorem Reach.cases_of_ok {a c : α} {pushed : List α} (h : Reach visit a c) (hvisit : visit a = .ok pushed) :
    c = a ∨ ∃ b ∈ pushed, Reach visit b c := by
  cases h with
  | refl => exact Or.inl rfl
  | step hvisit' hmem hreach =>
    obtain rfl := Except.ok.inj (hvisit.symm.trans hvisit')
    exact Or.inr ⟨_, hmem, hreach⟩

/-- The pending items of the next round reach what the pending items reach, except the item of this round. -/
theorem reach_next {item c : α} {pushed pending : List α} (hvisit : visit item = .ok pushed) :
    (∃ a ∈ item :: pending, Reach visit a c) ↔ c = item ∨ ∃ a ∈ pushed ++ pending, Reach visit a c := by
  constructor
  · rintro ⟨a, hmem, hreach⟩
    obtain rfl | hmem := List.mem_cons.mp hmem
    · obtain hself | ⟨b, hb, hreach⟩ := hreach.cases_of_ok hvisit
      · exact Or.inl hself
      · exact Or.inr ⟨b, List.mem_append_left _ hb, hreach⟩
    · exact Or.inr ⟨a, List.mem_append_right _ hmem, hreach⟩
  · rintro (rfl | ⟨a, hmem, hreach⟩)
    · exact ⟨c, List.mem_cons_self, .refl c⟩
    · obtain hmem | hmem := List.mem_append.mp hmem
      · exact ⟨item, List.mem_cons_self, .step hvisit hmem hreach⟩
      · exact ⟨a, List.mem_cons_of_mem _ hmem, hreach⟩

/-- More rounds than the loop takes make no difference. -/
theorem drain_of_le {rounds rounds' : ℕ} {pending : List α} {answer : Except ε Unit}
    (h : drain visit rounds pending = some answer) (hle : rounds ≤ rounds') :
    drain visit rounds' pending = some answer := by
  induction rounds generalizing rounds' pending with
  | zero =>
    cases pending with
    | nil =>
      rw [drain] at h
      rw [drain, h]
    | cons item pending => cases h
  | succ rounds ih =>
    cases pending with
    | nil =>
      rw [drain] at h
      rw [drain, h]
    | cons item pending =>
      obtain ⟨rest, rfl⟩ := Nat.exists_eq_add_of_le' (Nat.one_le_iff_ne_zero.mpr (by omega) : 1 ≤ rounds')
      rw [drain] at h ⊢
      split at h
      · exact h
      · exact ih h (by omega)

variable {size : α → ℕ}

/-- The loop ends, and it has visited all that can be reached. -/
theorem drain_spec (hpos : ∀ a, 0 < size a)
    (hsize : ∀ a pushed, visit a = .ok pushed → (pushed.map size).sum < size a) {rounds : ℕ} {pending : List α}
    (h : (pending.map size).sum ≤ rounds) :
    drain visit rounds pending = some (.ok ()) ∧
        (∀ c, (∃ a ∈ pending, Reach visit a c) → ∃ pushed, visit c = .ok pushed) ∨
      ∃ e, drain visit rounds pending = some (.error e) ∧
        ∃ c, (∃ a ∈ pending, Reach visit a c) ∧ visit c = .error e := by
  induction rounds generalizing pending with
  | zero =>
    cases pending with
    | nil =>
      refine Or.inl ⟨rfl, ?_⟩
      rintro c ⟨a, hmem, _⟩
      cases hmem
    | cons item pending =>
      have hitem := hpos item
      rw [List.map_cons, List.sum_cons] at h
      omega
  | succ rounds ih =>
    cases pending with
    | nil =>
      refine Or.inl ⟨rfl, ?_⟩
      rintro c ⟨a, hmem, _⟩
      cases hmem
    | cons item pending =>
      rw [drain]
      cases hvisit : visit item with
      | error e => exact Or.inr ⟨e, rfl, item, ⟨item, List.mem_cons_self, .refl item⟩, hvisit⟩
      | ok pushed =>
        have hless := hsize item pushed hvisit
        have hnext : ((pushed ++ pending).map size).sum ≤ rounds := by
          rw [List.map_cons, List.sum_cons] at h
          rw [List.map_append, List.sum_append]
          omega
        obtain ⟨hdrain, hall⟩ | ⟨e, hdrain, c, hreach, hc⟩ := ih hnext
        · refine Or.inl ⟨hdrain, fun c hreach ↦ ?_⟩
          obtain rfl | hreach := (reach_next hvisit).mp hreach
          · exact ⟨pushed, hvisit⟩
          · exact hall c hreach
        · exact Or.inr ⟨e, hdrain, c, (reach_next hvisit).mpr (Or.inr hreach), hc⟩

end MidnightReferendum.Worklist
