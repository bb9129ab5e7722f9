import Mathlib.Logic.Function.Basic
import MidnightReferendum.Systems.Execution

/-!
# Operations of several processes over shared state

Any number of processes share a state. An operation of a process runs in atomic steps and waits in a
frame between two of them, so every interleaving is a list of events. A process has a memory that its
operations share, and a crash loses the memory and the operations of the process.

The rule below is that of Owicki and Gries: an invariant of the shared state, of every memory, of every
waiting operation and of every two of them is kept by every run, if every step keeps the parts it
touches and does not disturb the waiting operations of the others.
-/

namespace MidnightReferendum.Tasks

/-- What a process can do, where `σ` is the shared state, `μ` the memory of a process, `φ` the frames
in which operations wait and `ι` the inputs from outside. -/
structure System (σ μ φ ι : Type*) where
  /-- the memory of a process that has just started -/
  fresh : μ
  /-- a new operation of a process -/
  spawn : ι → μ → Option (μ × φ)
  /-- a step of a process without an operation that waits -/
  tick : ι → μ → Option μ
  /-- the next step of a waiting operation -/
  advance : φ → ι → σ → μ → Option (σ × μ × φ)

/-- The shared state, the memory of each process, and the operations with their processes. -/
structure World (σ μ φ : Type*) where
  shared : σ
  memory : ℕ → μ
  tasks : ℕ → Option (ℕ × φ)

inductive Event (ι : Type*) where
  | spawn (p t : ℕ) (i : ι)
  | tick (p : ℕ) (i : ι)
  | advance (t : ℕ) (i : ι)
  | crash (p : ℕ)

variable {σ μ φ ι : Type*} (S : System σ μ φ ι)

/-- One event, if it is enabled. -/
def step (w : World σ μ φ) : Event ι → Except Unit (World σ μ φ)
  | .spawn p t i =>
    match w.tasks t, S.spawn i (w.memory p) with
    | none, some (m, f) => .ok { w with
        memory := Function.update w.memory p m
        tasks := Function.update w.tasks t (some (p, f)) }
    | _, _ => .error ()
  | .tick p i =>
    match S.tick i (w.memory p) with
    | some m => .ok { w with memory := Function.update w.memory p m }
    | none => .error ()
  | .advance t i =>
    match w.tasks t with
    | none => .error ()
    | some (p, f) =>
      match S.advance f i w.shared (w.memory p) with
      | none => .error ()
      | some (s, m, f') => .ok {
          shared := s
          memory := Function.update w.memory p m
          tasks := Function.update w.tasks t (some (p, f')) }
  | .crash p => .ok { w with
      memory := Function.update w.memory p S.fresh
      tasks := fun t ↦ (w.tasks t).filter fun task ↦ task.1 ≠ p }

/-- No operation has begun. -/
def start (s : σ) : World σ μ φ := ⟨s, fun _ ↦ S.fresh, fun _ ↦ none⟩

abbrev runEvents (w : World σ μ φ) (es : List (Event ι)) : World σ μ φ := Execution.run (step S) w es

variable {S}

theorem step_spawn {w w' : World σ μ φ} {p t : ℕ} {i : ι} (h : step S w (.spawn p t i) = .ok w') :
    ∃ m f, w.tasks t = none ∧ S.spawn i (w.memory p) = some (m, f) ∧ w' = { w with
      memory := Function.update w.memory p m
      tasks := Function.update w.tasks t (some (p, f)) } := by
  simp only [step] at h
  split at h
  · next m f htask hspawn => exact ⟨m, f, htask, hspawn, (Except.ok.inj h).symm⟩
  · cases h

theorem step_tick {w w' : World σ μ φ} {p : ℕ} {i : ι} (h : step S w (.tick p i) = .ok w') :
    ∃ m, S.tick i (w.memory p) = some m ∧
      w' = { w with memory := Function.update w.memory p m } := by
  simp only [step] at h
  split at h
  · next m htick => exact ⟨m, htick, (Except.ok.inj h).symm⟩
  · cases h

theorem step_advance {w w' : World σ μ φ} {t : ℕ} {i : ι} (h : step S w (.advance t i) = .ok w') :
    ∃ p f s m f', w.tasks t = some (p, f) ∧
      S.advance f i w.shared (w.memory p) = some (s, m, f') ∧ w' = {
        shared := s
        memory := Function.update w.memory p m
        tasks := Function.update w.tasks t (some (p, f')) } := by
  simp only [step] at h
  split at h
  · cases h
  · next p f htask =>
    split at h
    · cases h
    · next s m f' hadvance => exact ⟨p, f, s, m, f', htask, hadvance, (Except.ok.inj h).symm⟩

/-- An operation is there only after it has been spawned. -/
theorem tasks_of_not_spawned {s : σ} {es : List (Event ι)} {t : ℕ}
    (h : ∀ p i, .spawn p t i ∉ es) : (runEvents S (start S s) es).tasks t = none := by
  induction es using List.reverseRecOn with
  | nil => rfl
  | append_singleton es e ih =>
    have hes : ∀ p i, .spawn p t i ∉ es := fun p i hmem ↦ h p i (List.mem_append_left _ hmem)
    have hnone := ih hes
    rw [runEvents, Execution.run_concat]
    cases hok : step S (Execution.run (step S) (start S s) es) e with
    | error err => rwa [Execution.apply_of_error hok]
    | ok w' =>
      rw [Execution.apply_of_ok hok]
      cases e with
      | spawn p u i =>
        obtain ⟨m, f, _, _, rfl⟩ := step_spawn hok
        have hne : t ≠ u := fun heq ↦ h p i (by simp [heq])
        simpa [Function.update_of_ne hne] using hnone
      | tick p i =>
        obtain ⟨m, _, rfl⟩ := step_tick hok
        exact hnone
      | advance u i =>
        obtain ⟨p, f, s', m, f', htask, _, rfl⟩ := step_advance hok
        have hne : t ≠ u := fun heq ↦ by
          rw [heq] at hnone
          exact absurd (hnone.symm.trans htask) (by simp)
        simpa [Function.update_of_ne hne] using hnone
      | crash p =>
        obtain rfl := Except.ok.inj hok
        simp [runEvents] at hnone
        simp [hnone]

/-! ## Invariants -/

/-- The parts of an invariant. -/
structure Invariant (σ μ φ : Type*) where
  shared : σ → Prop
  memory : σ → μ → Prop
  task : σ → φ → Prop
  apart : φ → φ → Prop

/-- The invariant holds of a world. -/
structure Invariant.Holds (I : Invariant σ μ φ) (w : World σ μ φ) : Prop where
  shared : I.shared w.shared
  memory : ∀ p, I.memory w.shared (w.memory p)
  task : ∀ {t p f}, w.tasks t = some (p, f) → I.task w.shared f
  apart : ∀ {t u p q f g}, t ≠ u → w.tasks t = some (p, f) → w.tasks u = some (q, g) → I.apart f g

/-- What the steps have to keep, where a condition on the steps may be assumed. -/
structure Invariant.Kept (S : System σ μ φ ι) (P : World σ μ φ → Event ι → Prop)
    (I : Invariant σ μ φ) : Prop where
  symm : ∀ {f g}, I.apart f g → I.apart g f
  fresh : ∀ {s}, I.shared s → I.memory s S.fresh
  spawn : ∀ {w p t i m f}, I.Holds w → P w (.spawn p t i) → S.spawn i (w.memory p) = some (m, f) →
    I.memory w.shared m ∧ I.task w.shared f ∧
      ∀ {u q g}, w.tasks u = some (q, g) → I.apart f g
  tick : ∀ {w p i m}, I.Holds w → P w (.tick p i) → S.tick i (w.memory p) = some m →
    I.memory w.shared m
  advance : ∀ {w t i p f s m f'}, I.Holds w → P w (.advance t i) → w.tasks t = some (p, f) →
    S.advance f i w.shared (w.memory p) = some (s, m, f') →
    I.shared s ∧ I.memory s m ∧ I.task s f' ∧ (∀ {m'}, I.memory w.shared m' → I.memory s m') ∧
      ∀ {u q g}, u ≠ t → w.tasks u = some (q, g) → I.task s g ∧ I.apart f' g

namespace Invariant

variable {I : Invariant σ μ φ} {P : World σ μ φ → Event ι → Prop}

/-- The memories of the others keep their part when one memory changes. -/
theorem memory_update {M : μ → Prop} {memory : ℕ → μ} {p : ℕ} {m : μ} (hnew : M m)
    (hold : ∀ q, M (memory q)) (q : ℕ) : M (Function.update memory p m q) := by
  by_cases hq : q = p
  · rw [hq, Function.update_self]
    exact hnew
  · rw [Function.update_of_ne hq]
    exact hold q

/-- The operations of the others keep their part when one operation moves to a new frame. -/
theorem task_update {T : φ → Prop} {tasks : ℕ → Option (ℕ × φ)} {t p : ℕ} {f' : φ} (hnew : T f')
    (hold : ∀ {u q g}, u ≠ t → tasks u = some (q, g) → T g) {u q : ℕ} {g : φ}
    (h : Function.update tasks t (some (p, f')) u = some (q, g)) : T g := by
  by_cases hut : u = t
  · subst hut
    rw [Function.update_self] at h
    cases h
    exact hnew
  · rw [Function.update_of_ne hut] at h
    exact hold hut h

/-- Operations stay apart when one of them moves to a frame that is apart from the others. -/
theorem apart_update {tasks : ℕ → Option (ℕ × φ)} (hsymm : ∀ {f g}, I.apart f g → I.apart g f)
    (hold : ∀ {t u p q f g}, t ≠ u → tasks t = some (p, f) → tasks u = some (q, g) → I.apart f g)
    {t : ℕ} {p : ℕ} {f' : φ} (hnew : ∀ {u q g}, u ≠ t → tasks u = some (q, g) → I.apart f' g)
    {t₁ t₂ p₁ p₂ : ℕ} {f g : φ} (hne : t₁ ≠ t₂)
    (h₁ : Function.update tasks t (some (p, f')) t₁ = some (p₁, f))
    (h₂ : Function.update tasks t (some (p, f')) t₂ = some (p₂, g)) : I.apart f g := by
  by_cases ht₁ : t₁ = t
  · subst ht₁
    rw [Function.update_self] at h₁
    rw [Function.update_of_ne (Ne.symm hne)] at h₂
    cases h₁
    exact hnew (Ne.symm hne) h₂
  · rw [Function.update_of_ne ht₁] at h₁
    by_cases ht₂ : t₂ = t
    · subst ht₂
      rw [Function.update_self] at h₂
      cases h₂
      exact hsymm (hnew ht₁ h₁)
    · rw [Function.update_of_ne ht₂] at h₂
      exact hold hne h₁ h₂

/-- The rule for one event. -/
theorem Kept.step (hkept : I.Kept S P) {w w' : World σ μ φ} {e : Event ι} (hI : I.Holds w)
    (hP : P w e) (h : Tasks.step S w e = .ok w') : I.Holds w' := by
  cases e with
  | spawn p t i =>
    obtain ⟨m, f, htask, hspawn, rfl⟩ := step_spawn h
    obtain ⟨hm, hf, hapart⟩ := hkept.spawn hI hP hspawn
    constructor
    · exact hI.shared
    · exact memory_update hm hI.memory
    · exact task_update hf fun _ hu ↦ hI.task hu
    · exact apart_update hkept.symm hI.apart fun _ hu ↦ hapart hu
  | tick p i =>
    obtain ⟨m, htick, rfl⟩ := step_tick h
    have hm := hkept.tick hI hP htick
    exact ⟨hI.shared, memory_update hm hI.memory, hI.task, hI.apart⟩
  | advance t i =>
    obtain ⟨p, f, s, m, f', htask, hadvance, rfl⟩ := step_advance h
    obtain ⟨hs, hm, hf', hmemory, hothers⟩ := hkept.advance hI hP htask hadvance
    constructor
    · exact hs
    · exact memory_update hm fun q ↦ hmemory (hI.memory q)
    · exact task_update hf' fun hut hu ↦ (hothers hut hu).1
    · exact apart_update hkept.symm hI.apart fun hut hu ↦ (hothers hut hu).2
  | crash p =>
    obtain rfl := Except.ok.inj h
    constructor
    · exact hI.shared
    · exact memory_update (hkept.fresh hI.shared) hI.memory
    · intro t q f ht
      exact hI.task (Option.filter_eq_some_iff.mp ht).1
    · intro t u q r f g hne ht hu
      exact hI.apart hne (Option.filter_eq_some_iff.mp ht).1 (Option.filter_eq_some_iff.mp hu).1

theorem Kept.start (hkept : I.Kept S P) {s : σ} (hs : I.shared s) : I.Holds (Tasks.start S s) where
  shared := hs
  memory _ := hkept.fresh hs
  task h := nomatch h
  apart _ h := nomatch h

/-- **The rule for runs.** The invariant holds after every run whose steps meet the condition. -/
theorem Kept.run (hkept : I.Kept S P) {w : World σ μ φ} (hI : I.Holds w) (es : List (Event ι))
    (hP : ∀ e ∈ Execution.accepted (Tasks.step S) w es, P e.1 e.2) :
    I.Holds (runEvents S w es) := by
  apply Execution.run_history (I := fun _ v ↦ I.Holds v) (P := fun e ↦ P e.1 e.2)
  · exact fun _ _ _ _ hv hPe hok ↦ hkept.step hv hPe hok
  · exact hI
  · exact hP

end Invariant

end MidnightReferendum.Tasks
