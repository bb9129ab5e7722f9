import MidnightReferendum.Relayer.Bytes
import MidnightReferendum.Relayer.Wallet

/-!
# Submissions

The executor is asked to submit a job at most once, in every run of any number of services.
-/

namespace MidnightReferendum.Relayer

open Js

variable {ρ : Type} {cfg : Config ρ}

/-! ## An honest indexer -/

/-- The indexer answers definitively only about a transaction that has been submitted. -/
def Honest (cfg : Config ρ) (w : World cfg) (e : Event ρ) : Prop :=
  ∀ t p reader id job raw, e = .advance t (.indexed raw) →
    w.tasks t = some (p, .external (.resolve reader id job)) →
    Definitive (cfg.resolve job.query raw) → id ∈ submits w.shared.log

/-- Only a submitted job is about to be settled, and a marked job that is not submitted is not settled
yet. -/
structure HonestTask (s : Shared ρ) (f : Frame cfg.sha256) : Prop where
  settles : ∀ id, f.settles = some id → id ∈ submits s.log
  intended : ∀ id derivedId, f.stage = some (id, .intended derivedId) →
    ∃ job, s.store.get id = some job ∧ job.status = .submitted

def honesty (cfg : Config ρ) : Invariant cfg where
  shared _ := True
  memory _ _ := True
  task := HonestTask
  apart _ _ := True

/-- A call of the others leaves a marked job unsettled, unless it was submitted before. -/
theorem HonestTask.serve {w : World cfg} {t u p q : ℕ} {c : StoreFrame} {g : Frame cfg.sha256}
    (hI : (honesty cfg).Holds w) (hownership : (ownership cfg).Holds w)
    (htask : w.tasks t = some (p, .waiting c)) (hne : u ≠ t) (hu : w.tasks u = some (q, g))
    (now : JsString) (fault : Fault) : HonestTask (served cfg w.shared c now fault) g where
  settles := (hI.task hu).settles
  intended id derivedId hstage := by
    obtain ⟨job, hjob, hstatus⟩ := (hI.task hu).intended id derivedId hstage
    have howned := hownership.task hu id _ hstage
    obtain ⟨next, hnext, hdrift⟩ := serve_drift cfg c now fault hjob
      (by simp [hstatus]) fun stage h ↦ hownership.apart hne hu htask id _ stage hstage h
    refine ⟨next, hnext, ?_⟩
    cases hdrift with
    | same => exact hstatus
    | settled hc _ _ _ _ =>
      rw [MemoryStore.id_of_get hjob] at hc
      exact absurd ((hI.task htask).settles id hc) (howned.unsubmitted rfl)
    | recovered _ hold _ _ => simp [hstatus, Status.rank] at hold

theorem honesty_keeps : Keeps cfg (fun w e ↦ (ownership cfg).Holds w ∧ Honest cfg w e)
    (honesty cfg) where
  symm _ := trivial
  fresh _ := trivial
  spawn {w p t i m f} _ _ hspawn := by
    have hnone : f.settles = none ∧ f.stage = none := by
      simp only [spawn] at hspawn
      repeat' split at hspawn
      all_goals cases hspawn
      all_goals exact ⟨rfl, rfl⟩
    refine ⟨trivial, ⟨fun id h ↦ ?_, fun id derivedId h ↦ ?_⟩, fun _ ↦ trivial⟩
    · simp [hnone.1] at h
    · simp [hnone.2] at h
  tick _ _ _ := trivial
  serve {w t p c now fault} hI hP htask := by
    refine ⟨trivial, ⟨fun id h ↦ ?_, fun id derivedId h ↦ serve_intended h⟩, fun _ ↦ trivial,
      fun hne hu ↦ ⟨HonestTask.serve hI hP.1 htask hne hu now fault, trivial⟩⟩
    cases h
  part {w t p f i observations next} hI hP htask hpart := by
    have hf : HonestTask w.shared f := hI.task htask
    refine ⟨trivial, trivial, ⟨fun id h ↦ ?_, fun id derivedId h ↦ ?_⟩, fun _ ↦ trivial,
      fun _ hu ↦ ⟨⟨fun id h ↦ ?_, (hI.task hu).intended⟩, trivial⟩⟩
    · obtain ⟨reader, job, raw, rfl, rfl, _, hdefinitive, _⟩ := hpart.settles h
      exact mem_submits_record (hP.2 t p reader id job raw rfl htask hdefinitive) observations
    · have hstep := hpart.stage
      rw [h] at hstep
      generalize hstage : f.stage = stage at hstep
      generalize submits observations = sent at hstep
      cases hstep with
      | stay => exact hf.intended id derivedId hstage
    · exact mem_submits_record ((hI.task hu).settles id h) observations

/-! ## Failures without the indexer -/

/-- The errors with which an answer of the indexer fails a job. -/
def ErrorCode.indexers : ErrorCode → Bool
  | .indexerContractMismatch | .indexerRejected => true
  | _ => false

/-- A job has failed without an answer of the indexer. -/
def Job.FailedBefore (job : Job) : Prop :=
  job.status = .failed ∧ ∀ code, job.errorCode = some code → code.indexers = false

/-- Only an error of the indexer is about to reject a job, and a marked job fails by nothing else. -/
structure RejectedTask (s : Shared ρ) (f : Frame cfg.sha256) : Prop where
  rejects : ∀ reader id code, f = .waiting (.reconcileReject reader id code) → code.indexers
  intended : ∀ id derivedId, f.stage = some (id, .intended derivedId) →
    ∃ job, s.store.get id = some job ∧ ¬job.FailedBefore

def rejections (cfg : Config ρ) : Invariant cfg where
  shared _ := True
  memory _ _ := True
  task := RejectedTask
  apart _ _ := True

theorem indexers_of_definitive {code : ErrorCode} (h : Definitive (.error (some code))) : code.indexers := by
  cases h with
  | mismatch => rfl
  | rejected => rfl

/-- A call of the others fails a marked job with an error of the indexer only. -/
theorem RejectedTask.serve {w : World cfg} {t u p q : ℕ} {c : StoreFrame} {g : Frame cfg.sha256}
    (hI : (rejections cfg).Holds w) (hownership : (ownership cfg).Holds w)
    (htask : w.tasks t = some (p, .waiting c)) (hne : u ≠ t) (hu : w.tasks u = some (q, g))
    (now : JsString) (fault : Fault) : RejectedTask (served cfg w.shared c now fault) g where
  rejects := (hI.task hu).rejects
  intended id derivedId hstage := by
    obtain ⟨job, hjob, hnot⟩ := (hI.task hu).intended id derivedId hstage
    obtain ⟨job', hjob', hallows⟩ := (hownership.task hu id _ hstage).allows
    obtain rfl := Option.some.inj (hjob.symm.trans hjob')
    obtain ⟨next, hnext, hdrift⟩ := serve_drift cfg c now fault hjob hallows.ne_authorized
      fun stage h ↦ hownership.apart hne hu htask id _ stage hstage h
    refine ⟨next, hnext, fun hfailed ↦ ?_⟩
    cases hdrift with
    | same => exact hnot hfailed
    | settled _ _ _ _ hcode =>
      obtain ⟨reader, code, rfl, herror⟩ := hcode hfailed.1
      have hindexers := (hI.task htask).rejects reader job.id code rfl
      rw [hfailed.2 code herror] at hindexers
      cases hindexers
    | recovered _ _ hnew _ =>
      have hstatus := hfailed.1
      rw [hnew] at hstatus
      cases hstatus

theorem rejections_keeps : Keeps cfg (fun w _ ↦ (ownership cfg).Holds w) (rejections cfg) where
  symm _ := trivial
  fresh _ := trivial
  spawn {w p t i m f} _ _ hspawn := by
    have hnone : f.settles = none ∧ f.stage = none := by
      simp only [spawn] at hspawn
      repeat' split at hspawn
      all_goals cases hspawn
      all_goals exact ⟨rfl, rfl⟩
    refine ⟨trivial, ⟨fun reader id code h ↦ ?_, fun id derivedId h ↦ ?_⟩, fun _ ↦ trivial⟩
    · rw [h] at hnone
      cases hnone.1
    · simp [hnone.2] at h
  tick _ _ _ := trivial
  serve {w t p c now fault} hI hP htask := by
    refine ⟨trivial, ⟨fun reader id code h ↦ (by cases h), fun id derivedId h ↦ ?_⟩, fun _ ↦ trivial,
      fun hne hu ↦ ⟨RejectedTask.serve hI hP htask hne hu now fault, trivial⟩⟩
    obtain ⟨next, hnext, hstatus⟩ := serve_intended h
    refine ⟨next, hnext, fun hfailed ↦ ?_⟩
    have hfalse := hfailed.1
    rw [hstatus] at hfalse
    cases hfalse
  part {w t p f i observations next} hI _ htask hpart := by
    have hf : RejectedTask w.shared f := hI.task htask
    refine ⟨trivial, trivial, ⟨fun reader id code h ↦ indexers_of_definitive (hpart.rejects h),
      fun id derivedId h ↦ ?_⟩, fun _ ↦ trivial,
      fun _ hu ↦ ⟨⟨(hI.task hu).rejects, (hI.task hu).intended⟩, trivial⟩⟩
    have hstep := hpart.stage
    rw [h] at hstep
    generalize hstage : f.stage = stage at hstep
    generalize submits observations = sent at hstep
    cases hstep with
    | stay => exact hf.intended id derivedId hstage

theorem rejections_after (es : List (Event ρ)) : (rejections cfg).Holds (after cfg es) := by
  refine rejections_keeps.after trivial es fun e he ↦ ?_
  obtain ⟨pre, _, _, _, hstate, _⟩ := Execution.mem_accepted he
  rw [hstate]
  exact ownership_after pre

/-! ## Jobs that are not submitted any more -/

/-- A job has one of its last statuses, no operation is about to submit it, and `n` submissions have
been made. -/
def closed (cfg : Config ρ) (id : JsString) (n : ℕ) : Invariant cfg where
  shared s := (∃ job, s.store.get id = some job ∧ job.status.terminal) ∧ (submits s.log).count id = n
  memory _ _ := True
  task _ f := ∀ derivedId, f.stage ≠ some (id, .intended derivedId)
  apart _ _ := True

theorem closed_keeps (id : JsString) (n : ℕ) : Keeps cfg (fun _ _ ↦ True) (closed cfg id n) where
  symm _ := trivial
  fresh _ := trivial
  spawn {w p t i m f} _ _ hspawn := by
    refine ⟨trivial, fun derivedId h ↦ ?_, fun _ ↦ trivial⟩
    simp only [spawn] at hspawn
    repeat' split at hspawn
    all_goals cases hspawn
    all_goals cases h
  tick _ _ _ := trivial
  serve {w t p c now fault} hI _ htask := by
    obtain ⟨⟨job, hjob, hterminal⟩, hcount⟩ := hI.shared
    obtain ⟨next, hnext, _, hstay⟩ :=
      (MemoryStore.serve_grows (s := w.shared.store) cfg c now fault).jobs hjob
    have hsame : next = job := by
      refine hstay.resolve_right ?_
      rw [Status.rank_of_terminal hterminal]
      exact Nat.not_lt.mpr next.status.rank_le
    refine ⟨⟨⟨next, hnext, by rw [hsame]; exact hterminal⟩, hcount⟩, fun derivedId h ↦ ?_,
      fun _ ↦ trivial, fun _ hu ↦ ⟨hI.task hu, trivial⟩⟩
    obtain ⟨next', hnext', hstatus⟩ := serve_intended h
    obtain rfl := Option.some.inj (hnext.symm.trans hnext')
    rw [← hsame, hstatus] at hterminal
    cases hterminal
  part {w t p f i observations next} hI _ htask hpart := by
    have hstep := hpart.stage
    have hf : ∀ derivedId, f.stage ≠ some (id, .intended derivedId) := hI.task htask
    have hnone : (submits observations).count id = 0 ∧
        ∀ derivedId, next.frame.stage ≠ some (id, .intended derivedId) := by
      generalize f.stage = old at hstep hf
      generalize submits observations = sent at hstep ⊢
      generalize next.frame.stage = new at hstep ⊢
      cases hstep with
      | leave => exact ⟨rfl, by simp⟩
      | stay => exact ⟨rfl, hf⟩
      | post id' derivedId =>
        have hne : id' ≠ id := fun heq ↦ hf derivedId (by rw [heq])
        exact ⟨by simp [hne], by simp⟩
      | pending => exact ⟨rfl, by simp⟩
      | closing => exact ⟨rfl, by simp⟩
    refine ⟨⟨hI.shared.1, ?_⟩, trivial, hnone.2, fun _ ↦ trivial, fun _ hu ↦ ⟨hI.task hu, trivial⟩⟩
    rw [Shared.record, submits_append, List.count_append, hnone.1, Nat.add_zero]
    exact hI.shared.2

/-- The indexer has been honest in a run. -/
def HonestRun (cfg : Config ρ) (es : List (Event ρ)) : Prop :=
  ∀ e ∈ Execution.accepted (Tasks.step (service cfg)) (init cfg) es, Honest cfg e.1 e.2

theorem honesty_after {es : List (Event ρ)} (h : HonestRun cfg es) :
    (honesty cfg).Holds (after cfg es) := by
  refine honesty_keeps.after trivial es fun e he ↦ ⟨?_, h e he⟩
  obtain ⟨pre, _, _, _, hstate, _⟩ := Execution.mem_accepted he
  rw [hstate]
  exact ownership_after pre

/-- A closed job is not submitted in the rest of a run. -/
theorem closed_after {pre : List (Event ρ)} {id : JsString}
    (h : (closed cfg id ((submits (after cfg pre).shared.log).count id)).Holds (after cfg pre))
    (post : List (Event ρ)) : (submits (after cfg (pre ++ post)).shared.log).count id =
      (submits (after cfg pre).shared.log).count id := by
  have hrun := (closed_keeps id _).kept.run h post fun _ _ ↦ trivial
  rw [after, Tasks.runEvents, Execution.run_append]
  exact hrun.shared.2

/-- A job with one of its last statuses is closed if it was given up, if it has failed without the indexer, or if the
indexer is honest. -/
theorem closed_of_terminal {es : List (Event ρ)} {job : Job}
    (hjob : (after cfg es).shared.store.get job.id = some job)
    (h : job.status = .recoveryRequired ∨ job.FailedBefore ∨
      (job.status = .confirmed ∨ job.status = .failed) ∧ HonestRun cfg es) :
    (closed cfg job.id ((submits (after cfg es).shared.log).count job.id)).Holds (after cfg es) where
  shared := by
    refine ⟨⟨job, hjob, ?_⟩, rfl⟩
    rcases h with h | h | ⟨h | h, _⟩
    · rw [h]
      rfl
    · rw [h.1]
      rfl
    · rw [h]
      rfl
    · rw [h]
      rfl
  memory _ := trivial
  task {t p f} htask derivedId hstage := by
    rcases h with h | h | ⟨hstatus, hhonest⟩
    · obtain ⟨job', hjob', hmarked, _⟩ := ((ownership_after es).task htask _ _ hstage).allows
      obtain rfl := Option.some.inj (hjob.symm.trans hjob')
      simp [h, Status.marked] at hmarked
    · obtain ⟨job', hjob', hnot⟩ := ((rejections_after es).task htask).intended _ _ hstage
      obtain rfl := Option.some.inj (hjob.symm.trans hjob')
      exact hnot h
    · obtain ⟨job', hjob', hsubmitted⟩ := ((honesty_after hhonest).task htask).intended _ _ hstage
      obtain rfl := Option.some.inj (hjob.symm.trans hjob')
      simp [hsubmitted] at hstatus
  apart _ _ _ := trivial

/-- A list without duplicates has at most one entry of a kind that no two entries share. -/
theorem countP_le_one {α : Type} {p : α → Bool} {l : List α} (hnodup : l.Nodup)
    (h : ∀ a ∈ l, ∀ b ∈ l, p a → p b → a = b) : l.countP p ≤ 1 := by
  rw [List.countP_eq_length_filter]
  cases hl : l.filter p with
  | nil => simp
  | cons a rest =>
    cases rest with
    | nil => simp
    | cons b rest =>
      have ha : a ∈ l.filter p := by simp [hl]
      have hb : b ∈ l.filter p := by simp [hl]
      rw [List.mem_filter] at ha hb
      have hfilter := hnodup.filter p
      rw [hl, List.nodup_cons] at hfilter
      exact absurd (h a ha.1 b hb.1 ha.2 hb.2) fun heq ↦ hfilter.1 (by simp [heq])

/-- **At most one submission.** In every run of any number of services the executor is asked at most
once to submit a job, and at most once for a request hash; it balances for a job only the bytes of a
transaction with the request hash of the job; and a job that was submitted, given up or failed without
the indexer is not submitted any more, nor is one that an honest indexer has settled. -/
theorem at_most_one_submission (cfg : Config ρ) (es : List (Event ρ)) :
    (∀ id, (submits (after cfg es).shared.log).count id ≤ 1) ∧
    (∀ hash, (submits (after cfg es).shared.log).countP (fun id ↦
      ((after cfg es).shared.store.get id).map Job.requestHash = some hash) ≤ 1) ∧
    (∀ id ∈ submits (after cfg es).shared.log, ∃ job, (after cfg es).shared.store.get id = some job) ∧
    (∀ id tx, .executor (.balanceAndFinalize id tx) ∈ (after cfg es).shared.log →
      Carries cfg (after cfg es).shared.store id tx) ∧
    ∀ pre post, es = pre ++ post → ∀ job ∈ (after cfg pre).shared.store.jobs.entries,
      (job.id ∈ submits (after cfg pre).shared.log ∨ job.status = .recoveryRequired ∨ job.FailedBefore ∨
        (job.status = .confirmed ∨ job.status = .failed) ∧ HonestRun cfg pre) →
      (submits (after cfg es).shared.log).count job.id =
        (submits (after cfg pre).shared.log).count job.id := by
  have howned : (ownership cfg).Holds (after cfg es) := ownership_after es
  have hsettled := howned.shared
  refine ⟨fun id ↦ List.nodup_iff_count_le_one.mp hsettled.nodup id, fun hash ↦ ?_,
    fun id hmem ↦ ?_, (bytes_after es).shared, fun pre post hsplit job hjob hclosed ↦ ?_⟩
  · refine countP_le_one hsettled.nodup fun a _ b _ ha hb ↦ ?_
    obtain ⟨job, hjob, hhash⟩ := Option.map_eq_some_iff.mp (of_decide_eq_true ha)
    obtain ⟨job', hjob', hhash'⟩ := Option.map_eq_some_iff.mp (of_decide_eq_true hb)
    exact hsettled.distinct.requestHash hjob hjob' (hhash.trans hhash'.symm)
  · obtain ⟨job, hjob, _⟩ := hsettled.sent id hmem
    exact ⟨job, hjob⟩
  · subst hsplit
    rcases hclosed with hmem | hterminal
    · have hpre := List.count_pos_iff.mpr hmem
      have hle : (submits (after cfg pre).shared.log).count job.id ≤
          (submits (after cfg (pre ++ post)).shared.log).count job.id :=
        ((after_log cfg pre post).filterMap _).sublist.count_le _
      have hone := List.nodup_iff_count_le_one.mp hsettled.nodup job.id
      omega
    · exact closed_after (closed_of_terminal (MemoryStore.get_of_mem hjob) hterminal) post

/-! ## Sample runs -/

/-- A step that is no answer of the indexer about a transaction that nobody has submitted. -/
def asksSubmitted (w : World cfg) : Event ρ → Bool
  | .advance t (.indexed _) =>
    match w.tasks t with
    | some (_, .external (.resolve _ id _)) => id ∈ submits w.shared.log
    | _ => true
  | _ => true

theorem Honest.of_asksSubmitted {w : World cfg} {e : Event ρ} (h : asksSubmitted w e = true) : Honest cfg w e := by
  intro t p reader id job raw he htask _
  subst he
  simpa [asksSubmitted, htask] using h

/-- A job is submitted, and the indexer confirms it. -/
def settledRun : List SampleEvent :=
  sampleAccepts 0 0 (sampleAccept "aaaa") ++ sampleReserves 0 1 ++ sampleSubmits 1 (some (js "t1")) (.ok (js "t1")) ++
    .spawn 0 2 (.reconcile (js "aaaa")) :: sampleCalls 2 1 ++
    .advance 2 (.indexed (some sampleReceipt)) :: sampleCalls 2 2

/-- The request is made again in another process, which starts after that. -/
def repeatedRun : List SampleEvent := sampleAccepts 1 3 (sampleAccept "aaaa") ++ .spawn 1 4 .start :: sampleCalls 4 2

theorem at_most_one_submission_sample :
    ∃ job ∈ (after sampleConfig settledRun).shared.store.jobs.entries, job.status = .confirmed ∧
      (submits (after sampleConfig (settledRun ++ repeatedRun)).shared.log).count job.id =
        (submits (after sampleConfig settledRun).shared.log).count job.id := by
  have hconfirmed : (after sampleConfig settledRun).shared.store.jobs.entries.any (·.status = .confirmed) = true := by
    decide +kernel
  have hcheck : (Execution.accepted (Tasks.step (service sampleConfig)) (init sampleConfig) settledRun).all
      (fun e ↦ asksSubmitted e.1 e.2) = true := by
    decide +kernel
  have hhonest : HonestRun sampleConfig settledRun := fun e he ↦
    Honest.of_asksSubmitted (List.all_eq_true.mp hcheck e he)
  obtain ⟨job, hjob, hstatus⟩ := List.any_eq_true.mp hconfirmed
  generalize settledRun = pre at hjob hhonest ⊢
  generalize repeatedRun = post
  refine ⟨job, hjob, of_decide_eq_true hstatus, ?_⟩
  exact (at_most_one_submission sampleConfig (pre ++ post)).2.2.2.2 pre post rfl job hjob
    (Or.inr (Or.inr (Or.inr ⟨Or.inl (of_decide_eq_true hstatus), hhonest⟩)))

/-- The job is marked as submitted, and a reconciliation asks the indexer before the executor is asked. -/
def overtakenRun : List SampleEvent :=
  sampleAccepts 0 0 (sampleAccept "aaaa") ++ sampleReserves 0 1 ++
    .advance 1 (.balanced (.ok (js "ff", some (js "t1")))) :: sampleCalls 1 1 ++
    .advance 1 (.serve (js "now") .none) :: .spawn 0 2 (.reconcile (js "aaaa")) :: sampleCalls 2 1 ++
    .advance 2 (.indexed (some sampleReceipt)) :: sampleCalls 2 1

/-- A job that the indexer has confirmed is submitted after that. -/
theorem confirmed_then_submitted :
    (after sampleConfig overtakenRun).shared.store.jobs.entries.map (fun job ↦ (job.id, job.status)) =
        [(js "aaaa", .confirmed)] ∧
      submits (after sampleConfig overtakenRun).shared.log = [] ∧
      submits (after sampleConfig (overtakenRun ++ [.advance 1 (.resume (js "u"))])).shared.log = [js "aaaa"] := by
  decide +kernel

end MidnightReferendum.Relayer
