import MidnightReferendum.Relayer.Wallet
import MidnightReferendum.Systems.Visits

/-!
# The life of a job

The statuses of a job over every run of the services, its recorded transitions and its transaction id.
-/

namespace MidnightReferendum.Relayer

open Js

variable {ρ : Type} {cfg : Config ρ}

/-- A step creates a job, moves it, or leaves it alone. -/
theorem step_job {w w' : World cfg} {e : Event ρ} (h : Tasks.step (service cfg) w e = .ok w')
    (id : JsString) : w'.shared.store.get id = w.shared.store.get id ∨
      (w.shared.store.get id = none ∧ ∃ input : NewJob, w'.shared.store.get id = some input.job) ∨
      ∃ job next, w.shared.store.get id = some job ∧ w'.shared.store.get id = some next ∧
        job.Moves next := by
  rcases step_store cfg h with heq | ⟨t, p, c, now, fault, _, _, heq⟩
  · exact Or.inl (by rw [heq])
  · have hstep := serve_step cfg w.shared.store c now fault id
    rw [heq]
    generalize w.shared.store.get id = old at hstep ⊢
    generalize (serve cfg c now fault w.shared.store).2.get id = new at hstep ⊢
    cases hstep with
    | same => exact Or.inl rfl
    | created => exact Or.inr (Or.inl ⟨rfl, _, rfl⟩)
    | moved _ hmoves _ => exact Or.inr (Or.inr ⟨_, _, rfl, rfl, hmoves⟩)

/-- A later state of a job. -/
structure Job.Forward (job next : Job) : Prop where
  same : job.SameRequest next
  status : next.status = job.status ∨ job.status.rank < next.status.rank
  transactionId : ∀ transactionId, job.transactionId = some transactionId →
    next.transactionId = some transactionId

theorem Job.Forward.refl (job : Job) : job.Forward job := ⟨.refl job, Or.inl rfl, fun _ h ↦ h⟩

theorem Job.Forward.trans {a b c : Job} (hab : a.Forward b) (hbc : b.Forward c) : a.Forward c where
  same := hab.same.trans hbc.same
  status := by
    rcases hab.status with hab | hab <;> rcases hbc.status with hbc | hbc
    · exact Or.inl (hbc.trans hab)
    · exact Or.inr (by rwa [hab] at hbc)
    · exact Or.inr (by rwa [← hbc] at hab)
    · exact Or.inr (hab.trans hbc)
  transactionId t ht := hbc.transactionId t (hab.transactionId t ht)

/-- The last status of a job stays. -/
theorem Job.Forward.terminal {job next : Job} (h : job.Forward next) (hterminal : job.status.terminal) :
    next.status = job.status := by
  refine h.status.resolve_right ?_
  rw [Status.rank_of_terminal hterminal]
  exact Nat.not_lt.mpr next.status.rank_le

theorem step_forward {w w' : World cfg} {e : Event ρ} (hI : (ownership cfg).Holds w)
    (h : Tasks.step (service cfg) w e = .ok w') {id : JsString} {job : Job}
    (hjob : w.shared.store.get id = some job) :
    ∃ next, w'.shared.store.get id = some next ∧ job.Forward next := by
  rcases step_store cfg h with heq | ⟨t, p, c, now, fault, _, htask, heq⟩
  · rw [heq]
    exact ⟨job, hjob, .refl job⟩
  · obtain ⟨next, hnext, hsame, hrank⟩ := (MemoryStore.serve_grows cfg c now fault).jobs hjob
    rw [heq]
    refine ⟨next, hnext, hsame, hrank.imp_left fun heq ↦ by rw [heq], fun t ht ↦ ?_⟩
    exact serve_transactionId hI htask now fault hjob hnext ht

/-- Jobs go forward in every run. -/
theorem after_forward (pre post : List (Event ρ)) {id : JsString} {job : Job}
    (hjob : (after cfg pre).shared.store.get id = some job) :
    ∃ next, (after cfg (pre ++ post)).shared.store.get id = some next ∧ job.Forward next := by
  induction post using List.reverseRecOn with
  | nil => exact ⟨job, by rwa [List.append_nil], .refl job⟩
  | append_singleton post e ih =>
    obtain ⟨next, hnext, hforward⟩ := ih
    have hsplit : after cfg (pre ++ (post ++ [e])) =
        Execution.apply (Tasks.step (service cfg)) (after cfg (pre ++ post)) e := by
      rw [← List.append_assoc]
      exact Execution.run_concat _ _ _
    cases hok : Tasks.step (service cfg) (after cfg (pre ++ post)) e with
    | error err =>
      rw [hsplit, Execution.apply_of_error hok]
      exact ⟨next, hnext, hforward⟩
    | ok w' =>
      obtain ⟨last, hlast, hforward'⟩ := step_forward (ownership_after _) hok hnext
      rw [hsplit, Execution.apply_of_ok hok]
      exact ⟨last, hlast, hforward.trans hforward'⟩

/-- The status of a job. -/
def statusOf (id : JsString) (w : World cfg) : Option Status := (w.shared.store.get id).map Job.status

/-- The statuses that a job goes through in a run. -/
def statuses (cfg : Config ρ) (es : List (Event ρ)) (id : JsString) : List Status :=
  Execution.visits (Tasks.step (service cfg)) (statusOf id) (init cfg) es

theorem statusOf_stays {id : JsString} (w : World cfg) (e : Event ρ) (w' : World cfg)
    (h : Tasks.step (service cfg) w e = .ok w') (hnone : statusOf id w' = none) :
    statusOf id w = none := by
  simp only [statusOf, Option.map_eq_none_iff] at hnone ⊢
  rcases step_job h id with heq | ⟨hold, _⟩ | ⟨job, next, _, hnew, _⟩
  · rw [← heq]
    exact hnone
  · exact hold
  · rw [hnone] at hnew
    cases hnew

/-- The recorded transitions are the statuses that the job went through. -/
theorem transitions_eq_statuses (es : List (Event ρ)) (id : JsString) (job : Job)
    (hjob : (after cfg es).shared.store.get id = some job) :
    job.transitions = statuses cfg es id := by
  induction es using List.reverseRecOn generalizing job with
  | nil => cases hjob
  | append_singleton es e ih =>
    have hsplit : after cfg (es ++ [e]) = Execution.apply (Tasks.step (service cfg)) (after cfg es) e :=
      Execution.run_concat _ _ _
    cases hok : Tasks.step (service cfg) (after cfg es) e with
    | error err =>
      rw [hsplit, Execution.apply_of_error hok] at hjob
      rw [ih job hjob, statuses, statuses, Execution.visits_of_eq]
      exact congrArg (statusOf id) (hsplit.trans (Execution.apply_of_error hok))
    | ok w' =>
      have hw' : after cfg (es ++ [e]) = w' := hsplit.trans (Execution.apply_of_ok hok)
      rw [hw'] at hjob
      rcases step_job hok id with heq | ⟨hnone, input, hnew⟩ | ⟨old, next, hold, hnew, hmoves⟩
      · rw [heq] at hjob
        rw [ih job hjob, statuses, statuses, Execution.visits_of_eq]
        exact (congrArg (statusOf id) hw').trans (by rw [statusOf, heq, statusOf])
      · obtain rfl := Option.some.inj (hnew.symm.trans hjob)
        refine (Execution.visits_of_none statusOf_stays ?_ ?_).symm
        · exact congrArg (Option.map Job.status) hnone
        · exact (congrArg (statusOf id) hw').trans (congrArg (Option.map Job.status) hnew)
      · obtain rfl := Option.some.inj (hnew.symm.trans hjob)
        have hne : old.status ≠ next.status := fun heq ↦ by simpa [heq] using hmoves.rank
        rw [hmoves.transitions, ih old hold, statuses, statuses]
        refine (Execution.visits_of_ne ?_ ?_ hne).symm
        · exact congrArg (Option.map Job.status) hold
        · exact (congrArg (statusOf id) hw').trans (congrArg (Option.map Job.status) hnew)

/-- **The state machine of a job.** Over every run of any number of services at most one job holds the
DUST lease; between any two moments of the run a status stays or advances, the last statuses stay, and
a transaction id that is set stays; and the recorded transitions are the statuses of the job so far. -/
theorem job_state_machine (cfg : Config ρ) (es : List (Event ρ)) :
    (∀ a ∈ (after cfg es).shared.store.jobs.entries, ∀ b ∈ (after cfg es).shared.store.jobs.entries,
      a.status.active → b.status.active → a = b) ∧
    (∀ pre post, es = pre ++ post → ∀ job ∈ (after cfg pre).shared.store.jobs.entries,
      ∃ next ∈ (after cfg es).shared.store.jobs.entries, next.id = job.id ∧
        (next.status = job.status ∨ job.status.rank < next.status.rank) ∧
        (job.status.terminal → next.status = job.status) ∧
        ∀ transactionId, job.transactionId = some transactionId →
          next.transactionId = some transactionId) ∧
    ∀ job ∈ (after cfg es).shared.store.jobs.entries, job.transitions = statuses cfg es job.id := by
  refine ⟨fun a ha b hb hactive hactive' ↦ ?_, fun pre post hsplit job hjob ↦ ?_, fun job hjob ↦ ?_⟩
  · have hid : a.id = b.id := (ownership_after es).shared.distinct.active (MemoryStore.get_of_mem ha)
      (MemoryStore.get_of_mem hb) hactive hactive'
    exact KeyedList.eq_of_mem ha hb hid
  · obtain ⟨next, hnext, hforward⟩ := after_forward pre post (MemoryStore.get_of_mem hjob)
    rw [hsplit]
    exact ⟨next, MemoryStore.mem_of_get hnext, hforward.same.id, hforward.status, hforward.terminal,
      hforward.transactionId⟩
  · exact transitions_eq_statuses es job.id job (MemoryStore.get_of_mem hjob)

end MidnightReferendum.Relayer
