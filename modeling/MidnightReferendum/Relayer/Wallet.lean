import MidnightReferendum.Relayer.Jobs
import MidnightReferendum.Relayer.Methods

/-!
# Wallet operations

From its compare-and-set of `authorized` to its last transition, a wallet operation owns its job. No
other operation owns the same job, and the only calls that reach the job past its owner are those of a
reconciliation and of `start`.
-/

namespace MidnightReferendum.Relayer

open Js

/-- How far the owner of a job is. -/
inductive Stage where
  | claimed
  | refused
  | reserved
  | finalized (derivedId : Option JsString)
  | intended (derivedId : Option JsString)
  | posted (derivedId : Option JsString)
  | pending (transactionId : JsString)
  | closing
  deriving DecidableEq

/-- The job that a frame owns. -/
def Frame.stage {sha256 : JsString → JsString} : Frame sha256 → Option (JsString × Stage)
  | .ready (.walletValidate id _) (.ok (some _)) => some (id, .claimed)
  | .waiting (.walletReserve id _ _) => some (id, .claimed)
  | .ready (.walletReserve id _ _) (.ok none) => some (id, .refused)
  | .ready (.walletReserve id _ _) (.ok (some _)) => some (id, .reserved)
  | .external (.balanceAndFinalize id _) => some (id, .reserved)
  | .waiting (.walletRejected id) => some (id, .reserved)
  | .waiting (.walletFinalize id _ _) => some (id, .reserved)
  | .ready (.walletFinalize id _ derivedId) (.ok _) => some (id, .finalized derivedId)
  | .waiting (.walletIntent id _ derivedId) => some (id, .finalized derivedId)
  | .ready (.walletIntent id _ derivedId) (.ok (some _)) => some (id, .intended derivedId)
  | .external (.submit id _ derivedId) => some (id, .posted derivedId)
  | .waiting (.walletLost id derivedId) => some (id, .pending derivedId)
  | .waiting (.walletPending id transactionId) => some (id, .pending transactionId)
  | .waiting (.walletUnknown id) => some (id, .closing)
  | .waiting (.walletMismatch id) => some (id, .closing)
  | _ => none

/-- The executor has been asked to submit the transaction. -/
def Stage.sent : Stage → Bool
  | .posted _ | .pending _ | .closing => true
  | _ => false

/-- The job has been marked as submitted, and the indexer may have settled it. -/
def Status.marked : Status → Bool
  | .submitted | .confirmed | .failed => true
  | _ => false

/-- What the owner knows about its job. -/
def Stage.Allows (job : Job) : Stage → Prop
  | .claimed | .refused => job.status = .validated ∨ job.status = .recoveryRequired
  | .reserved => job.status = .dustReserved ∨ job.status = .recoveryRequired
  | .finalized derivedId =>
    job.status = .finalized ∧ job.transactionId = derivedId ∨ job.status = .recoveryRequired
  | .intended derivedId | .posted derivedId => job.status.marked ∧ job.transactionId = derivedId
  | .pending transactionId => job.status.marked ∧
    (job.transactionId = none ∨ job.transactionId = some transactionId)
  | .closing => job.status.marked

theorem Stage.Allows.ne_authorized {job : Job} {stage : Stage} (h : stage.Allows job) :
    job.status ≠ .authorized := by
  intro hstatus
  cases stage <;> simp [Allows, hstatus, Status.marked] at h

/-! ## The calls of the others -/

/-- The job that `start` gives up. -/
def StoreFrame.recovers : StoreFrame → Option JsString
  | .startRecover id _ => some id
  | _ => none

/-- What a reconciliation or `start` does to a job that is owned by a wallet operation. -/
inductive Drift (c : StoreFrame) (job : Job) : Job → Prop
  | same : Drift c job job
  | settled {next : Job} (hc : c.settles = some job.id)
      (hold : job.status = .submitted ∨ job.status = .indexerPending)
      (hnew : next.status = .confirmed ∨ next.status = .failed)
      (hid : next.transactionId = job.transactionId)
      (hcode : next.status = .failed →
        ∃ reader code, c = .reconcileReject reader job.id code ∧ next.errorCode = some code) : Drift c job next
  | recovered {next : Job} (hc : c.recovers = some job.id) (hold : job.status.rank ≤ 3)
      (hnew : next.status = .recoveryRequired) (hid : next.transactionId = job.transactionId) :
    Drift c job next

theorem Stage.Allows.drift {c : StoreFrame} {job next : Job} {stage : Stage} (h : stage.Allows job)
    (hdrift : Drift c job next) : stage.Allows next := by
  cases hdrift with
  | same => exact h
  | settled _ hold hnew hid _ =>
    rcases hold with hold | hold <;> rcases hnew with hnew | hnew <;> cases stage <;>
      simp_all [Allows, Status.marked]
  | recovered _ hold hnew hid =>
    cases stage <;> simp_all [Allows]
    all_goals
      cases hstatus : job.status <;> simp_all [Status.marked, Status.rank]

section

variable {ρ : Type} (cfg : Config ρ)

theorem serve_drift {s : MemoryStore} (c : StoreFrame) (now : JsString) (fault : Fault)
    {id : JsString} {job : Job} (hjob : s.get id = some job) (hstatus : job.status ≠ .authorized)
    (hc : ∀ stage, (Frame.waiting c : Frame cfg.sha256).stage ≠ some (id, stage)) :
    ∃ next, (serve cfg c now fault s).2.get id = some next ∧ Drift c job next := by
  have hchange := serve_change cfg s c now fault id
  rw [hjob] at hchange
  generalize (serve cfg c now fault s).2.get id = next at hchange ⊢
  generalize hcall : c.call cfg.sha256 = call at hchange
  cases hchange with
  | same => exact ⟨job, rfl, .same⟩
  | moved hexpected hid _ =>
    refine ⟨_, rfl, ?_⟩
    cases c <;> simp only [StoreFrame.call, reduceCtorEq, StoreCall.transition.injEq] at hcall
    all_goals
      obtain ⟨rfl, rfl, rfl⟩ := hcall
    case acceptReplayed => simp [hstatus] at hexpected
    case reconcileConfirm =>
      exact .settled (by rw [hid]; rfl) (by simpa using hexpected) (by simp [Job.patch]) rfl (by simp [Job.patch])
    case reconcileReject =>
      refine .settled (by rw [hid]; rfl) (by simpa using hexpected) (by simp [Job.patch]) rfl fun _ ↦ ?_
      exact ⟨_, _, by rw [hid], rfl⟩
    case walletValidate => simp [hstatus] at hexpected
    case startRecover =>
      refine .recovered (by rw [hid]; rfl) ?_ (by simp [Job.patch]) rfl
      simp at hexpected
      rcases hexpected with h | h | h | h <;> simp [h, Status.rank]
    all_goals exact absurd rfl (hc _)
  | reserved =>
    cases c <;> simp only [StoreFrame.call, reduceCtorEq, StoreCall.reserveDust.injEq] at hcall
    obtain ⟨rfl, rfl⟩ := hcall
    exact absurd rfl (hc _)

/-! ## Parts of methods -/

/-- The jobs that the executor has been asked to submit. -/
def Observation.submit? : Observation ρ → Option JsString
  | .executor (.submit id _) => some id
  | _ => none

def submits (log : List (Observation ρ)) : List JsString := log.filterMap Observation.submit?

variable {sha256 : JsString → JsString} (m : Memory)

/-- What a part of a method does to its stage and to the submissions. -/
inductive StageStep : Option (JsString × Stage) → List JsString → Option (JsString × Stage) → Prop
  | leave (stage : Option (JsString × Stage)) : StageStep stage [] none
  | stay (id : JsString) (stage : Stage) : StageStep (some (id, stage)) [] (some (id, stage))
  | post (id : JsString) (derivedId : Option JsString) :
    StageStep (some (id, .intended derivedId)) [id] (some (id, .posted derivedId))
  | pending {id : JsString} {derivedId : Option JsString} {transactionId : JsString}
      (h : derivedId = none ∨ derivedId = some transactionId) :
    StageStep (some (id, .posted derivedId)) [] (some (id, .pending transactionId))
  | closing (id : JsString) (derivedId : Option JsString) :
    StageStep (some (id, .posted derivedId)) [] (some (id, .closing))

theorem Frame.quiet_stage {f : Frame sha256} (h : f.quiet) : f.stage = none := by
  unfold Frame.quiet at h
  split at h
  all_goals first
    | rfl
    | cases h

theorem Next.Quiet.stageStep {next : Next sha256} {m : Memory} (h : next.Quiet m)
    (stage : Option (JsString × Stage)) :
    StageStep stage (submits (next.calls.map (Observation.executor (ρ := ρ)))) next.frame.stage := by
  rw [h.calls, Frame.quiet_stage h.frame]
  exact .leave stage

theorem resume_loud_stage {c : StoreFrame} (hc : c.loud = true) (uuid : JsString)
    (reply : Except StoreError (c.call sha256).Answer) :
    StageStep (Frame.ready c reply).stage
      (submits ((resume m uuid c reply).calls.map (Observation.executor (ρ := ρ))))
      (resume m uuid c reply).frame.stage := by
  cases c <;> cases hc
  case acceptCreate a =>
    simp only [resume, acceptCreated]
    repeat' split
    all_goals exact .leave _
  case acceptByKey a existing created =>
    simp only [resume, acceptFoundByKey]
    repeat' split
    all_goals exact .leave _
  case acceptConsume a existing =>
    simp only [resume, acceptConsumed]
    split
    all_goals exact .leave _
  case acceptReplayed a existing =>
    rcases reply with e | _
    all_goals exact .leave _
  case acceptReconsume a existing =>
    rcases reply with e | _
    all_goals exact .leave _
  case walletRead id =>
    simp only [resume, walletFound]
    repeat' split
    all_goals exact .leave _
  case walletValidate id pending =>
    rcases reply with e | _ | job
    · exact .leave _
    · exact .leave _
    · exact .stay id .claimed
  case walletReserve id pending reservationId =>
    rcases reply with e | _ | job
    · exact .leave _
    · exact .leave _
    · exact .stay id .reserved
  case walletFinalize id finalized derivedId =>
    rcases reply with e | _
    · exact .leave _
    · exact .stay id (.finalized derivedId)
  case walletIntent id finalized derivedId =>
    rcases reply with e | _ | job
    · exact .leave _
    · exact .leave _
    · exact .post id derivedId
  all_goals
    rcases reply with e | _
    all_goals exact .leave _

theorem resume_stage (uuid : JsString) (c : StoreFrame)
    (reply : Except StoreError (c.call sha256).Answer) :
    StageStep (Frame.ready c reply).stage
      (submits ((resume m uuid c reply).calls.map (Observation.executor (ρ := ρ))))
      (resume m uuid c reply).frame.stage := by
  cases hc : c.loud with
  | false => exact (resume_quiet m hc uuid reply).stageStep _
  | true => exact resume_loud_stage m hc uuid reply

/-- The stages along the parts of the methods. -/
theorem Part.stage {cfg : Config ρ} {m : Memory} {f : Frame cfg.sha256} {i : Input ρ}
    {observations : List (Observation ρ)} {next : Next cfg.sha256}
    (h : Part cfg m f i observations next) :
    StageStep f.stage (submits observations) next.frame.stage := by
  cases h with
  | resumed c reply uuid => exact resume_stage m uuid c reply
  | balanced id pending result =>
    rcases result with _ | ⟨finalized, derivedId⟩
    · exact .stay id .reserved
    · exact .stay id .reserved
  | submitted id finalized derivedId result =>
    simp only [walletSubmitted]
    split
    · exact .pending (Or.inr rfl)
    · exact .closing id none
    · next transactionId derivedId _ _ =>
      split
      · exact .closing id _
      · next heq => exact .pending (Or.inr (by rw [not_not.mp heq]))
    · exact .pending (Or.inl rfl)
  | indexed reader id job raw =>
    have hcases : Resolved m reader id _ (reconcileResolved m reader id job _ : Next cfg.sha256) :=
      reconcileResolved_cases m reader id job (cfg.resolve job.query raw)
    generalize cfg.resolve job.query raw = answer at hcases ⊢
    generalize (reconcileResolved m reader id job answer : Next cfg.sha256) = next at hcases ⊢
    cases hcases with
    | quiet hquiet =>
      rw [Frame.quiet_stage hquiet.frame]
      exact .leave _
    | confirm receipt => exact .leave _
    | reject code _ => exact .leave _

/-! ## Calls of the owner -/

section Serve

variable {cfg : Config ρ} {s : MemoryStore} {c : StoreFrame} {now : JsString} {fault : Fault}

/-- How a frame that has its reply came to own a job. -/
inductive Granted (cfg : Config ρ) (s : MemoryStore) (c : StoreFrame) (id : JsString) : Stage → Prop
  | claimed {pending : Transient} {job : Job} (hc : c = .walletValidate id pending)
      (hjob : s.get id = some job) (hstatus : job.status = .authorized) : Granted cfg s c id .claimed
  | kept {stage stage' : Stage} (hstage : (Frame.waiting c : Frame cfg.sha256).stage = some (id, stage))
      (hsent : stage.sent = false) : Granted cfg s c id stage'

theorem serve_stage {id : JsString} {stage : Stage}
    (h : (Frame.ready c (serve cfg c now fault s).1).stage = some (id, stage))
    (hold : ∀ stage', (Frame.waiting c : Frame cfg.sha256).stage = some (id, stage') →
      ∃ job, s.get id = some job ∧ stage'.Allows job) (hunsent : s.Unsent) :
    (∃ next, (serve cfg c now fault s).2.get id = some next ∧ stage.Allows next) ∧
      stage.sent = false ∧ Granted cfg s c id stage := by
  generalize hreply : (serve cfg c now fault s).1 = reply at h
  cases c
  case walletValidate id' pending =>
    rcases reply with e | _ | next <;> cases h
    obtain rfl := fault_of_ok hreply
    obtain ⟨job, hjob, hexpected, hnext, _⟩ := MemoryStore.transition_reply hreply
    refine ⟨⟨next, MemoryStore.get_transition hreply, Or.inl ?_⟩, rfl,
      .claimed rfl hjob (by simpa using hexpected)⟩
    rw [hnext]
    rfl
  case walletReserve id' pending reservationId =>
    rcases reply with e | _ | next <;> cases h
    · obtain rfl := fault_of_ok hreply
      obtain ⟨job, hjob, hallows⟩ := hold _ rfl
      refine ⟨⟨job, ?_, hallows⟩, rfl, .kept rfl rfl⟩
      change MemoryStore.get (s.reserveDust _ _ now).2 id = _
      rw [MemoryStore.reserveDust_null (Except.ok.inj hreply)]
      exact hjob
    · obtain rfl := fault_of_ok hreply
      have hreserved := Except.ok.inj hreply
      obtain ⟨job, hjob, hstatus, hfree, hnext, _⟩ := MemoryStore.reserveDust_reply hreserved
      refine ⟨⟨next, MemoryStore.get_reserveDust hreserved, Or.inl ?_⟩, rfl, .kept rfl rfl⟩
      rw [hnext]
      rfl
  case walletFinalize id' finalized derivedId =>
    rcases reply with e | _ | next <;> cases h
    · obtain rfl := fault_of_ok hreply
      obtain ⟨job, hjob, hallows⟩ := hold _ rfl
      obtain ⟨heq, hstatus⟩ := MemoryStore.transition_null hreply hjob
      refine ⟨⟨job, ?_, Or.inr ?_⟩, rfl, .kept rfl rfl⟩
      · change MemoryStore.get (s.transition _ _ _ now).2 id = _
        rw [heq]
        exact hjob
      · exact hallows.resolve_left (by simpa using hstatus)
    · obtain rfl := fault_of_ok hreply
      obtain ⟨job, hjob, hexpected, hnext, _⟩ := MemoryStore.transition_reply hreply
      have hstatus : job.status = .dustReserved := by simpa using hexpected
      have hnone : job.transactionId = none := hunsent _ _ hjob (by simp [hstatus, Status.rank])
      refine ⟨⟨next, MemoryStore.get_transition hreply, Or.inl ?_⟩, rfl, .kept rfl rfl⟩
      rw [hnext]
      exact ⟨rfl, by simp [Job.patch, hnone]⟩
  case walletIntent id' finalized derivedId =>
    rcases reply with e | _ | next <;> cases h
    obtain rfl := fault_of_ok hreply
    obtain ⟨job, hjob, hexpected, hnext, _⟩ := MemoryStore.transition_reply hreply
    obtain ⟨job', hjob', hallows⟩ := hold _ rfl
    obtain rfl := Option.some.inj (hjob.symm.trans hjob')
    have hstatus : job.status = .finalized := by simpa using hexpected
    have hid := (hallows.resolve_right (by simp [hstatus])).2
    refine ⟨⟨next, MemoryStore.get_transition hreply, ?_⟩, rfl, .kept rfl rfl⟩
    rw [hnext]
    exact ⟨rfl, hid⟩
  all_goals cases h

end Serve

/-! ## Ownership -/

theorem Status.marked_rank {status : Status} (h : status.marked) : 4 ≤ status.rank := by
  cases status <;> simp_all [marked, rank]

theorem submits_append (log log' : List (Observation ρ)) :
    submits (log ++ log') = submits log ++ submits log' :=
  List.filterMap_append

/-- What holds of the store and of the submissions. -/
structure Settled (s : Shared ρ) : Prop where
  distinct : s.store.Distinct
  unsent : s.store.Unsent
  nodup : (submits s.log).Nodup
  sent : ∀ id ∈ submits s.log, ∃ job, s.store.get id = some job ∧ 4 ≤ job.status.rank

/-- What holds of a job that an operation owns: it is at the stage of the operation, and the executor
has not been asked to submit it before. -/
structure Owned (s : Shared ρ) (id : JsString) (stage : Stage) : Prop where
  allows : ∃ job, s.store.get id = some job ∧ stage.Allows job
  unsubmitted : stage.sent = false → id ∉ submits s.log

def ownership (cfg : Config ρ) : Invariant cfg where
  shared := Settled
  memory _ _ := True
  task s f := ∀ id stage, f.stage = some (id, stage) → Owned s id stage
  apart f g := ∀ id stage stage', f.stage = some (id, stage) → g.stage ≠ some (id, stage')

variable {cfg : Config ρ}

/-- A job whose owner has not marked it is not submitted, nor is an authorized one. -/
theorem Settled.not_mem_of_authorized {s : Shared ρ} (h : Settled s) {id : JsString} {job : Job}
    (hjob : s.store.get id = some job) (hstatus : job.status = .authorized) :
    id ∉ submits s.log := by
  intro hmem
  obtain ⟨job', hjob', hrank⟩ := h.sent id hmem
  obtain rfl := Option.some.inj (hjob.symm.trans hjob')
  simp [hstatus, Status.rank] at hrank

theorem Settled.serve {s : Shared ρ} (h : Settled s) (c : StoreFrame) (now : JsString)
    (fault : Fault) : Settled (served cfg s c now fault) where
  distinct := h.distinct.serve cfg c now fault
  unsent := h.unsent.serve cfg c now fault
  nodup := h.nodup
  sent id hmem := by
    obtain ⟨job, hjob, hrank⟩ := h.sent id hmem
    obtain ⟨next, hnext, _, hle⟩ := (MemoryStore.serve_grows cfg c now fault).rank_le hjob
    exact ⟨next, hnext, hrank.trans hle⟩

/-- A call of another operation leaves an owner in place. -/
theorem Owned.serve {s : Shared ρ} {id : JsString} {stage : Stage} (h : Owned s id stage)
    {c : StoreFrame} (hc : ∀ stage', (Frame.waiting c : Frame cfg.sha256).stage ≠ some (id, stage'))
    (now : JsString) (fault : Fault) : Owned (served cfg s c now fault) id stage := by
  obtain ⟨job, hjob, hallows⟩ := h.allows
  obtain ⟨next, hnext, hdrift⟩ :=
    serve_drift cfg c now fault hjob hallows.ne_authorized hc
  exact ⟨⟨next, hnext, hallows.drift hdrift⟩, h.unsubmitted⟩

theorem ownership_serve {w : World cfg} {t p : ℕ} {c : StoreFrame} (hI : (ownership cfg).Holds w)
    (htask : w.tasks t = some (p, .waiting c)) (now : JsString) (fault : Fault) {id : JsString}
    {stage : Stage}
    (hstage : (Frame.ready c (serve cfg c now fault w.shared.store).1).stage = some (id, stage)) :
    Owned (served cfg w.shared c now fault) id stage ∧
      Granted cfg w.shared.store c id stage := by
  have hold : ∀ stage', (Frame.waiting c : Frame cfg.sha256).stage = some (id, stage') →
      Owned w.shared id stage' := fun stage' ↦ hI.task htask id stage'
  obtain ⟨hnext, hsent, hgranted⟩ :=
    serve_stage hstage (fun stage' h ↦ (hold stage' h).allows) hI.shared.unsent
  refine ⟨⟨hnext, fun _ ↦ ?_⟩, hgranted⟩
  cases hgranted with
  | claimed hc hjob hstatus => exact hI.shared.not_mem_of_authorized hjob hstatus
  | kept hwaiting hsent' => exact (hold _ hwaiting).unsubmitted hsent'

/-- Only the owner of a job has it submitted. -/
theorem StageStep.mem_submits {old new : Option (JsString × Stage)} {sent : List JsString}
    (h : StageStep old sent new) {id : JsString} (hmem : id ∈ sent) :
    ∃ stage, old = some (id, stage) := by
  cases h with
  | post id' derivedId =>
    obtain rfl := List.mem_singleton.mp hmem
    exact ⟨_, rfl⟩
  | _ => cases hmem

theorem Owned.record {s : Shared ρ} {id : JsString} {stage : Stage} (h : Owned s id stage)
    {observations : List (Observation ρ)} (hnew : id ∉ submits observations) :
    Owned (s.record observations) id stage where
  allows := h.allows
  unsubmitted hsent := by
    simp only [Shared.record, submits_append, List.mem_append, not_or]
    exact ⟨h.unsubmitted hsent, hnew⟩

/-- A part of the owner's method keeps the owner in place. -/
theorem ownership_part {w : World cfg} {t p : ℕ} {f : Frame cfg.sha256}
    {observations : List (Observation ρ)} {new : Option (JsString × Stage)}
    (hI : (ownership cfg).Holds w) (htask : w.tasks t = some (p, f))
    (hstep : StageStep f.stage (submits observations) new) :
    Settled (w.shared.record observations) ∧ ∀ id stage, new = some (id, stage) →
      Owned (w.shared.record observations) id stage ∧ ∃ old, f.stage = some (id, old) := by
  have hquiet : submits observations = [] → Settled (w.shared.record observations) ∧
      ∀ id stage, Owned w.shared id stage → Owned (w.shared.record observations) id stage := by
    intro hnone
    have heq : submits (w.shared.log ++ observations) = submits w.shared.log := by
      rw [submits_append, hnone, List.append_nil]
    refine ⟨⟨hI.shared.distinct, hI.shared.unsent, ?_, ?_⟩, fun id stage h ↦ h.record ?_⟩
    · simpa only [Shared.record, heq] using hI.shared.nodup
    · simpa only [Shared.record, heq] using hI.shared.sent
    · rw [hnone]
      exact List.not_mem_nil
  have hold : ∀ id stage, f.stage = some (id, stage) → Owned w.shared id stage := hI.task htask
  generalize f.stage = old at hstep hold
  generalize hsent : submits observations = sent at hstep
  cases hstep with
  | leave => exact ⟨(hquiet hsent).1, fun id stage h ↦ by cases h⟩
  | stay id stage =>
    refine ⟨(hquiet hsent).1, ?_⟩
    rintro _ _ ⟨⟩
    exact ⟨(hquiet hsent).2 _ _ (hold _ _ rfl), _, rfl⟩
  | post id derivedId =>
    have howned := hold _ _ rfl
    obtain ⟨job, hjob, hallows⟩ := howned.allows
    have hlog : submits (w.shared.log ++ observations) = submits w.shared.log ++ [id] := by
      rw [submits_append, hsent]
    refine ⟨⟨hI.shared.distinct, hI.shared.unsent, ?_, ?_⟩, ?_⟩
    · simp only [Shared.record, hlog, ← List.concat_eq_append]
      exact hI.shared.nodup.concat (howned.unsubmitted rfl)
    · intro id' hmem
      simp only [Shared.record, hlog, List.mem_append, List.mem_singleton] at hmem
      rcases hmem with hmem | rfl
      · exact hI.shared.sent id' hmem
      · exact ⟨job, hjob, Status.marked_rank hallows.1⟩
    · rintro _ _ ⟨⟩
      exact ⟨⟨⟨job, hjob, hallows⟩, fun h ↦ by cases h⟩, _, rfl⟩
  | pending h =>
    obtain ⟨job, hjob, hmarked, hid⟩ := (hold _ _ rfl).allows
    refine ⟨(hquiet hsent).1, ?_⟩
    rintro _ _ ⟨⟩
    exact ⟨⟨⟨job, hjob, hmarked, by rw [hid]; exact h⟩, fun h ↦ by cases h⟩, _, rfl⟩
  | closing id derivedId =>
    obtain ⟨job, hjob, hmarked, _⟩ := (hold _ _ rfl).allows
    refine ⟨(hquiet hsent).1, ?_⟩
    rintro _ _ ⟨⟩
    exact ⟨⟨⟨job, hjob, hmarked⟩, fun h ↦ by cases h⟩, _, rfl⟩

theorem mem_submits_record {s : Shared ρ} {id : JsString} (h : id ∈ submits s.log)
    (observations : List (Observation ρ)) : id ∈ submits (s.record observations).log := by
  rw [Shared.record, submits_append]
  exact List.mem_append_left _ h

/-- The intent marks the job as submitted. -/
theorem serve_intended {s : MemoryStore} {c : StoreFrame} {now : JsString} {fault : Fault}
    {id : JsString} {derivedId : Option JsString}
    (h : (Frame.ready c (serve cfg c now fault s).1).stage = some (id, .intended derivedId)) :
    ∃ next, (serve cfg c now fault s).2.get id = some next ∧ next.status = .submitted := by
  generalize hreply : (serve cfg c now fault s).1 = reply at h
  cases c
  case walletIntent id' finalized derivedId' =>
    rcases reply with e | _ | next <;> cases h
    obtain rfl := fault_of_ok hreply
    obtain ⟨job, _, _, hnext, _⟩ := MemoryStore.transition_reply hreply
    refine ⟨next, MemoryStore.get_transition hreply, ?_⟩
    rw [hnext]
    rfl
  all_goals rcases reply with e | r
  all_goals first
    | cases h
    | (rcases r with _ | r <;> cases h)

/-- Two operations do not own the same job. -/
theorem ownership_keeps : Keeps cfg (fun _ _ ↦ True) (ownership cfg) where
  symm h id stage stage' hf hg := h id stage' stage hg hf
  fresh _ := trivial
  spawn {w p t i m f} _ _ hspawn := by
    have hnone : f.stage = none := by
      simp only [spawn] at hspawn
      repeat' split at hspawn
      all_goals cases hspawn
      all_goals rfl
    refine ⟨trivial, fun id stage h ↦ ?_, fun _ id stage stage' h ↦ ?_⟩
    · simp [hnone] at h
    · simp [hnone] at h
  tick _ _ _ := trivial
  serve {w t p c now fault} hI _ htask := by
    refine ⟨hI.shared.serve c now fault, fun id stage h ↦ (ownership_serve hI htask now fault h).1,
      fun _ ↦ trivial, fun {u q g} hne hu ↦ ⟨fun id stage h ↦ ?_, fun id stage stage' h hg ↦ ?_⟩⟩
    · exact (hI.task hu id stage h).serve (fun stage' ↦ hI.apart hne hu htask id stage stage' h) now fault
    · cases (ownership_serve hI htask now fault h).2 with
      | claimed hc hjob hstatus =>
        obtain ⟨job', hjob', hallows⟩ := (hI.task hu id stage' hg).allows
        obtain rfl := Option.some.inj (hjob.symm.trans hjob')
        exact hallows.ne_authorized hstatus
      | kept hwaiting _ => exact hI.apart (Ne.symm hne) htask hu id _ stage' hwaiting hg
  part {w t p f i observations next} hI _ htask hpart := by
    have hstep := hpart.stage
    obtain ⟨hshared, hframe⟩ := ownership_part hI htask hstep
    refine ⟨hshared, trivial, fun id stage h ↦ (hframe id stage h).1, fun _ ↦ trivial,
      fun {u q g} hne hu ↦ ⟨fun id stage h ↦ ?_, fun id stage stage' h hg ↦ ?_⟩⟩
    · refine (hI.task hu id stage h).record fun hmem ↦ ?_
      obtain ⟨old, hold⟩ := hstep.mem_submits hmem
      exact hI.apart hne hu htask id stage old h hold
    · obtain ⟨old, hold⟩ := (hframe id stage h).2
      exact hI.apart (Ne.symm hne) htask hu id old stage' hold hg

/-- After every run two operations own distinct jobs. -/
theorem ownership_after (es : List (Event ρ)) : (ownership cfg).Holds (after cfg es) := by
  refine ownership_keeps.after ⟨.empty, ?_, List.nodup_nil, ?_⟩ es fun _ _ ↦ trivial
  · intro id job h
    cases h
  · intro id h
    cases h

/-- A transaction id that is set is kept by every call. -/
theorem serve_transactionId {w : World cfg} {t p : ℕ} {c : StoreFrame} (hI : (ownership cfg).Holds w)
    (htask : w.tasks t = some (p, .waiting c)) (now : JsString) (fault : Fault) {id : JsString}
    {job next : Job} {transactionId : JsString} (hjob : w.shared.store.get id = some job)
    (hnext : (serve cfg c now fault w.shared.store).2.get id = some next)
    (hid : job.transactionId = some transactionId) : next.transactionId = some transactionId := by
  have hchange := serve_change cfg w.shared.store c now fault id
  rw [hjob, hnext] at hchange
  generalize hcall : c.call cfg.sha256 = call at hchange
  cases hchange with
  | same => exact hid
  | reserved => exact hid
  | moved hexpected hjobid _ =>
    have howned := hI.task htask id
    cases c <;> simp only [StoreFrame.call, reduceCtorEq, StoreCall.transition.injEq] at hcall
    all_goals
      obtain ⟨rfl, rfl, rfl⟩ := hcall
    case walletFinalize =>
      have hstatus : job.status = .dustReserved := by simpa using hexpected
      have hnone := hI.shared.unsent _ _ hjob (by simp [hstatus, Status.rank])
      simp [hid] at hnone
    case walletLost =>
      obtain ⟨job', hjob', _, hallowed⟩ := (howned _ rfl).allows
      obtain rfl := Option.some.inj (hjob.symm.trans hjob')
      simpa [Job.patch, hid, eq_comm] using hallowed
    case walletPending =>
      obtain ⟨job', hjob', _, hallowed⟩ := (howned _ rfl).allows
      obtain rfl := Option.some.inj (hjob.symm.trans hjob')
      simpa [Job.patch, hid, eq_comm] using hallowed
    all_goals exact hid

end

end MidnightReferendum.Relayer
