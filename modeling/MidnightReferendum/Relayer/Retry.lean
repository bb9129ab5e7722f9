import MidnightReferendum.Relayer.Wallet

/-!
# Refused reservations

What happens to a job that finds the DUST lease taken. Its wallet operation ends with the job in
`validated`, and the retry starts another operation that goes on with an `authorized` job only.
-/

namespace MidnightReferendum.Relayer

open Js

variable {ρ : Type} {cfg : Config ρ}

/-- A job was refused the lease, and no operation goes on with it. -/
def stuck (cfg : Config ρ) (id : JsString) : Invariant cfg where
  shared s := ∃ job, s.store.get id = some job ∧
    (job.status = .validated ∨ job.status = .recoveryRequired)
  memory _ _ := True
  task _ f := ∀ stage, f.stage = some (id, stage) → stage = .refused
  apart _ _ := True

theorem stage_waiting_ne_refused (c : StoreFrame) (id : JsString) :
    (Frame.waiting c : Frame cfg.sha256).stage ≠ some (id, .refused) := by
  cases c <;> simp [Frame.stage]

theorem stuck_keeps (id : JsString) :
    Keeps cfg (fun w _ ↦ (ownership cfg).Holds w) (stuck cfg id) where
  symm _ := trivial
  fresh _ := trivial
  spawn {w p t i m f} _ _ hspawn := by
    refine ⟨trivial, fun stage h ↦ ?_, fun _ ↦ trivial⟩
    simp only [spawn] at hspawn
    repeat' split at hspawn
    all_goals cases hspawn
    all_goals cases h
  tick _ _ _ := trivial
  serve {w t p c now fault} hI hownership htask := by
    obtain ⟨job, hjob, hstatus⟩ := hI.shared
    have hne : job.status ≠ .authorized := by
      rcases hstatus with h | h
      · simp [h]
      · simp [h]
    have hc : ∀ stage, (Frame.waiting c : Frame cfg.sha256).stage ≠ some (id, stage) := by
      intro stage hstage
      obtain rfl := hI.task htask stage hstage
      exact stage_waiting_ne_refused c id hstage
    obtain ⟨next, hnext, hdrift⟩ := serve_drift cfg c now fault hjob hne hc
    refine ⟨⟨next, hnext, ?_⟩, fun stage h ↦ ?_, fun _ ↦ trivial, fun _ hu ↦ ⟨hI.task hu, trivial⟩⟩
    · cases hdrift with
      | same => exact hstatus
      | settled _ hold _ _ _ => rcases hstatus with h | h <;> simp [h] at hold
      | recovered _ _ hnew _ => exact Or.inr hnew
    · cases (ownership_serve hownership htask now fault h).2 with
      | claimed _ hjob' hauthorized =>
        obtain rfl := Option.some.inj (hjob.symm.trans hjob')
        exact absurd hauthorized hne
      | kept hstage _ => exact absurd hstage (hc _)
  part {w t p f i observations next} hI _ htask hpart := by
    have hstep := hpart.stage
    have hf : ∀ stage, f.stage = some (id, stage) → stage = .refused := hI.task htask
    refine ⟨hI.shared, trivial, fun stage h ↦ ?_, fun _ ↦ trivial, fun _ hu ↦ ⟨hI.task hu, trivial⟩⟩
    rw [h] at hstep
    generalize f.stage = old at hstep hf
    generalize submits observations = sent at hstep
    cases hstep with
    | stay => exact hf stage rfl
    | post _ derivedId => cases hf _ rfl
    | pending => cases hf _ rfl
    | closing => cases hf _ rfl

/-- An operation that has been refused the lease is the only owner of its job. -/
theorem stuck_of_refused {es : List (Event ρ)} {t p : ℕ} {f : Frame cfg.sha256} {id : JsString}
    (htask : (after cfg es).tasks t = some (p, f)) (hrefused : f.stage = some (id, .refused)) :
    (stuck cfg id).Holds (after cfg es) where
  shared := ((ownership_after es).task htask _ _ hrefused).allows
  memory _ := trivial
  task {u q g} hu stage hstage := by
    by_cases hne : u = t
    · subst hne
      rw [htask] at hu
      cases hu
      rw [hrefused] at hstage
      cases hstage
      rfl
    · exact absurd hrefused ((ownership_after es).apart hne hu htask _ _ _ hstage)
  apart _ _ _ := trivial

/-- **A refused job is lost.** When the lease is refused to a job, the job stays in `validated` for the
rest of every run, or `start` gives it up: no retry and no other call moves it on. -/
theorem refused_job_stays (cfg : Config ρ) (es : List (Event ρ)) {t p : ℕ} {f : Frame cfg.sha256}
    {id : JsString} (htask : (after cfg es).tasks t = some (p, f))
    (hrefused : f.stage = some (id, .refused)) (post : List (Event ρ)) :
    ∃ job, (after cfg (es ++ post)).shared.store.get id = some job ∧
      (job.status = .validated ∨ job.status = .recoveryRequired) := by
  have hrun := (stuck_keeps id).kept.run (stuck_of_refused htask hrefused) post fun e he ↦ by
    obtain ⟨pre, _, _, _, hstate, _⟩ := Execution.mem_accepted he
    rw [hstate]
    have hsplit : Execution.run (Tasks.step (service cfg)) (after cfg es) pre = after cfg (es ++ pre) :=
      (Execution.run_append _ es pre).symm
    rw [hsplit]
    exact ownership_after (es ++ pre)
  rw [after, Tasks.runEvents, Execution.run_append]
  exact hrun.shared

/-! ## Sample runs -/

/-- One job is submitted, and the other is refused the lease. -/
def refusedRun : List SampleEvent :=
  sampleAccepts 0 0 (sampleAccept "aaaa") ++ sampleAccepts 0 1 (sampleAccept "bbbb") ++
    sampleReserves 0 2 ++ sampleSubmits 2 (some (js "t1")) (.ok (js "t1")) ++
    .spawn 0 3 .dequeue :: sampleCalls 3 2 ++ [.advance 3 (.serve (js "now") .none)]

/-- The wallet operation of the refused job ends, and the submitted job is confirmed. -/
def confirmedRun : List SampleEvent :=
  refusedRun ++ [.advance 3 (.resume (js "u")), .tick 0 (.settle (js "bbbb")),
    .spawn 0 4 (.fireReconcile (js "aaaa"))] ++ sampleCalls 4 1 ++
    .advance 4 (.indexed (some sampleReceipt)) :: sampleCalls 4 2

/-- The retry of the refused job runs to its end. -/
def retriedRun : List SampleEvent :=
  confirmedRun ++ [.tick 0 (.fireRun (js "bbbb")), .spawn 0 5 .dequeue] ++ sampleCalls 5 1

theorem refused_job_stays_sample :
    ∃ job, (after sampleConfig (refusedRun ++ [.tick 0 (.settle (js "bbbb"))])).shared.store.get
      (js "bbbb") = some job ∧ (job.status = .validated ∨ job.status = .recoveryRequired) := by
  have hstage : ((after sampleConfig refusedRun).tasks 3).map (fun task ↦ task.2.stage) =
      some (some (js "bbbb", .refused)) := by
    decide +kernel
  obtain ⟨⟨p, f⟩, htask, hrefused⟩ := Option.map_eq_some_iff.mp hstage
  generalize refusedRun = es at htask ⊢
  exact refused_job_stays sampleConfig es htask hrefused _

/-- The retry fires while no job holds the lease and the bytes are still there. It leaves the job in
`validated` and schedules no other retry. -/
theorem retry_does_nothing :
    ((after sampleConfig confirmedRun).shared.store.jobs.entries.map Job.status =
        [.confirmed, .validated] ∧
      ((after sampleConfig confirmedRun).memory 0).transient (js "bbbb") = some ⟨js "bbbb", none⟩ ∧
      .run (js "bbbb") ∈ ((after sampleConfig confirmedRun).memory 0).timers) ∧
    (after sampleConfig retriedRun).shared.store.jobs.entries.map Job.status =
        [.confirmed, .validated] ∧
      ((after sampleConfig retriedRun).memory 0).timers = [] ∧
      ((after sampleConfig retriedRun).memory 0).walletTail = [] ∧
      ((after sampleConfig retriedRun).memory 0).walletBusy = false := by
  decide +kernel

end MidnightReferendum.Relayer
