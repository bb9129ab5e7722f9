import MidnightReferendum.Relayer.Steps

/-!
# The parts of the methods

Reading, reconciling and starting are quiet: apart from the confirmation and the rejection of a job they
neither reach the wallet nor the memory that the wallet works with.
-/

namespace MidnightReferendum.Relayer

open Js

variable {sha256 : JsString → JsString} (m : Memory)

@[simp]
theorem frame_finish (outcome : Outcome) : (m.finish outcome : Next sha256).frame = .done outcome := rfl

@[simp]
theorem calls_finish (outcome : Outcome) : (m.finish outcome : Next sha256).calls = [] := rfl

@[simp]
theorem memory_finish (outcome : Outcome) : (m.finish outcome : Next sha256).memory = m := rfl

@[simp]
theorem frame_await (c : StoreFrame) : (m.await c : Next sha256).frame = .waiting c := rfl

@[simp]
theorem calls_await (c : StoreFrame) : (m.await c : Next sha256).calls = [] := rfl

@[simp]
theorem memory_await (c : StoreFrame) : (m.await c : Next sha256).memory = m := rfl

theorem transient_setTransient (id : JsString) (transient : Option Transient) :
    (m.setTransient id transient).transient = Function.update m.transient id transient := rfl

/-! ## Quiet parts -/

/-- A frame that awaits something to read, or the transition of `start`. -/
def Frame.quiet : Frame sha256 → Bool
  | .waiting (.getRead _ _) | .waiting (.getLatest _ _) | .waiting (.reconcileRead _ _)
  | .waiting (.reconcileLagging _ _ _) | .waiting (.reconcileLatest _ _)
  | .waiting .startList | .waiting (.startRecover _ _) => true
  | .external (.resolve _ _ _) => true
  | .done (.rejected _ _) => false
  | .done _ => true
  | _ => false

/-- The part of a method that leaves the wallet and its memory alone. -/
structure Next.Quiet (next : Next sha256) (m : Memory) : Prop where
  frame : next.frame.quiet
  calls : next.calls = []
  transient : next.memory.transient = m.transient
  running : next.memory.running = m.running
  walletTail : next.memory.walletTail = m.walletTail
  run : ∀ {id}, .run id ∈ next.memory.timers → .run id ∈ m.timers

theorem quiet_finish {outcome : Outcome} (h : ∀ a e, outcome ≠ .rejected a e) :
    (m.finish outcome : Next sha256).Quiet m := by
  refine ⟨?_, rfl, rfl, rfl, rfl, id⟩
  cases outcome with
  | rejected a e => exact absurd rfl (h a e)
  | _ => rfl

theorem quiet_await {c : StoreFrame} (h : (Frame.waiting c : Frame sha256).quiet) :
    (m.await c : Next sha256).Quiet m :=
  ⟨h, rfl, rfl, rfl, rfl, id⟩

/-- Scheduling a reconciliation before a quiet part is quiet. -/
theorem Next.Quiet.scheduled {next : Next sha256} {id : JsString}
    (h : next.Quiet (m.scheduleReconcile id)) : next.Quiet m where
  frame := h.frame
  calls := h.calls
  transient := h.transient
  running := h.running
  walletTail := h.walletTail
  run hrun := by simpa [Memory.scheduleReconcile] using h.run hrun

theorem quiet_startLoop (jobs : List Job) : (startLoop m jobs : Next sha256).Quiet m := by
  induction jobs generalizing m with
  | nil => exact quiet_finish m (by simp)
  | cons job rest ih =>
    rw [startLoop]
    split
    · exact (ih _).scheduled
    · exact quiet_await m rfl

theorem quiet_reconciled (reader : Option Reader) (id : JsString) (result : Option PublicJob) :
    (reconciled m reader id result : Next sha256).Quiet m := by
  cases reader with
  | none => exact quiet_finish m (by simp)
  | some reader => exact quiet_await m rfl

theorem quiet_reconcileLater (reader : Option Reader) (id : JsString) :
    (reconcileLater m reader id : Next sha256).Quiet m :=
  (quiet_await _ rfl).scheduled

/-- A call of `accept`, or of the wallet. -/
def StoreFrame.loud : StoreFrame → Bool
  | .acceptCreate _ | .acceptByKey _ _ _ | .acceptConsume _ _ | .acceptReplayed _ _
  | .acceptReconsume _ _ => true
  | .walletRead _ | .walletValidate _ _ | .walletReserve _ _ _ | .walletRejected _
  | .walletFinalize _ _ _ | .walletIntent _ _ _ | .walletLost _ _ | .walletUnknown _
  | .walletMismatch _ | .walletPending _ _ => true
  | _ => false

theorem resume_quiet {c : StoreFrame} (hc : c.loud = false) (uuid : JsString)
    (reply : Except StoreError (c.call sha256).Answer) : (resume m uuid c reply).Quiet m := by
  cases c <;> cases hc
  case getRead reader id =>
    rcases reply with e | _ | job
    · exact quiet_finish m (by simp)
    · exact quiet_finish m (by cases reader <;> simp [Reader.missing])
    · simp only [resume, readerRead]
      split
      · exact quiet_await m rfl
      · exact quiet_await m rfl
  case getLatest reader id =>
    rcases reply with e | latest
    · exact quiet_finish m (by simp)
    · exact quiet_finish m (by cases reader <;> simp [Reader.outcome])
  case reconcileRead reader id =>
    rcases reply with e | _ | job
    · exact quiet_finish m (by simp)
    · exact quiet_reconciled m reader id none
    · simp only [resume, reconcileFound]
      split
      · exact quiet_reconciled m reader id _
      · exact ⟨rfl, rfl, rfl, rfl, rfl, fun h ↦ h⟩
  case reconcileLagging reader id job =>
    rcases reply with e | latest
    · exact quiet_reconcileLater m reader id
    · exact quiet_reconciled m reader id _
  case reconcileConfirm reader id receipt =>
    rcases reply with e | _
    · exact quiet_reconcileLater m reader id
    · exact quiet_await m rfl
  case reconcileReject reader id code =>
    rcases reply with e | _
    · exact quiet_finish m (by simp)
    · exact quiet_await m rfl
  case reconcileLatest reader id =>
    rcases reply with e | latest
    · exact quiet_finish m (by simp)
    · exact quiet_reconciled m reader id _
  case startList =>
    rcases reply with e | jobs
    · exact quiet_finish m (by simp)
    · exact quiet_startLoop m jobs
  case startRecover id rest =>
    rcases reply with e | _
    · exact quiet_finish m (by simp)
    · exact quiet_startLoop m rest

/-- The answer of the resolver is final for the job. -/
inductive Definitive : Except (Option ErrorCode) (Option CanonicalReceipt) → Prop
  | confirmed (receipt : CanonicalReceipt) : Definitive (.ok (some receipt))
  | mismatch : Definitive (.error (some .indexerContractMismatch))
  | rejected : Definitive (.error (some .indexerRejected))

/-- A reconciliation confirms or rejects its job only after a definitive answer. -/
inductive Resolved (m : Memory) (reader : Option Reader) (id : JsString) :
    Except (Option ErrorCode) (Option CanonicalReceipt) → Next sha256 → Prop
  | quiet {answer next} (h : Next.Quiet next m) : Resolved m reader id answer next
  | confirm (receipt : CanonicalReceipt) :
    Resolved m reader id (.ok (some receipt)) (m.await (.reconcileConfirm reader id receipt))
  | reject (code : ErrorCode) (h : Definitive (.error (some code))) :
    Resolved m reader id (.error (some code)) (m.await (.reconcileReject reader id code))

theorem reconcileResolved_cases (reader : Option Reader) (id : JsString) (job : Job)
    (answer : Except (Option ErrorCode) (Option CanonicalReceipt)) :
    Resolved m reader id answer (reconcileResolved m reader id job answer : Next sha256) := by
  unfold reconcileResolved
  split
  · exact .quiet (quiet_await _ rfl).scheduled
  · exact .confirm _
  · exact .reject _ .mismatch
  · exact .reject _ .rejected
  · exact .quiet (quiet_reconcileLater m reader id)

/-! ## Where parts end -/

/-- The job that a reconciliation confirms or rejects. -/
def StoreFrame.settles : StoreFrame → Option JsString
  | .reconcileConfirm _ id _ | .reconcileReject _ id _ => some id
  | _ => none

def Frame.settles : Frame sha256 → Option JsString
  | .waiting c => c.settles
  | _ => none

def Frame.replied : Frame sha256 → Bool
  | .ready _ _ => true
  | _ => false

/-- How an operation has ended. -/
def Frame.outcome : Frame sha256 → Option Outcome
  | .done outcome => some outcome
  | _ => none

theorem Frame.quiet_ends {f : Frame sha256} (h : f.quiet) : f.replied = false ∧ f.settles = none := by
  unfold Frame.quiet at h
  split at h
  all_goals first
    | exact ⟨rfl, rfl⟩
    | cases h

theorem resume_ends (uuid : JsString) (c : StoreFrame)
    (reply : Except StoreError (c.call sha256).Answer) :
    (resume m uuid c reply).frame.replied = false ∧ (resume m uuid c reply).frame.settles = none := by
  cases hc : c.loud with
  | false => exact Frame.quiet_ends (resume_quiet m hc uuid reply).frame
  | true =>
    cases c <;> try cases hc
    all_goals
      simp only [resume, acceptCreated, acceptFoundByKey, acceptConsumed, acceptReconsumed, acceptFailed,
        walletFound, walletValidated, walletReserved, walletClosed, walletFinalized, walletIntended,
        walletAwaitsIndexer]
      repeat' split
      all_goals exact ⟨rfl, rfl⟩

section

variable {ρ : Type} {cfg : Config ρ} {m} {f : Frame cfg.sha256} {i : Input ρ}
  {observations : List (Observation ρ)} {next : Next cfg.sha256}

/-- A part of a method settles a job only after a definitive answer. -/
theorem Part.settles (h : Part cfg m f i observations next) {id : JsString}
    (hid : next.frame.settles = some id) : ∃ reader job raw,
      f = .external (.resolve reader id job) ∧ i = .indexed raw ∧
      observations = [.indexed id job.query raw] ∧ Definitive (cfg.resolve job.query raw) ∧
      ∀ reader' id' receipt, next.frame = .waiting (.reconcileConfirm reader' id' receipt) →
        cfg.resolve job.query raw = .ok (some receipt) := by
  cases h with
  | resumed c reply uuid => simp [(resume_ends m uuid c reply).2] at hid
  | balanced id' pending result => rcases result with _ | ⟨finalized, derivedId⟩ <;> cases hid
  | submitted id' finalized derivedId result =>
    simp only [walletSubmitted] at hid
    repeat' split at hid
    all_goals cases hid
  | indexed reader id' job raw =>
    have hcases : Resolved m reader id' _ (reconcileResolved m reader id' job _ : Next cfg.sha256) :=
      reconcileResolved_cases m reader id' job (cfg.resolve job.query raw)
    generalize hanswer : cfg.resolve job.query raw = answer at hcases hid ⊢
    generalize (reconcileResolved m reader id' job answer : Next cfg.sha256) = next at hcases hid ⊢
    cases hcases with
    | quiet hquiet => simp [(Frame.quiet_ends hquiet.frame).2] at hid
    | confirm receipt =>
      cases hid
      refine ⟨reader, job, raw, rfl, rfl, rfl, hanswer ▸ .confirmed receipt, ?_⟩
      rintro _ _ _ ⟨⟩
      exact hanswer
    | reject code hdefinitive =>
      cases hid
      refine ⟨reader, job, raw, rfl, rfl, rfl, hanswer ▸ hdefinitive, ?_⟩
      rintro _ _ _ ⟨⟩

/-- A job is rejected with the error of a definitive answer. -/
theorem Part.rejects (h : Part cfg m f i observations next) {reader : Option Reader} {id : JsString}
    {code : ErrorCode} (hframe : next.frame = .waiting (.reconcileReject reader id code)) :
    Definitive (.error (some code)) := by
  have hsettles : next.frame.settles = some id := by
    rw [hframe]
    rfl
  cases h with
  | resumed c reply uuid => simp [(resume_ends m uuid c reply).2] at hsettles
  | balanced id' pending result => rcases result with _ | ⟨finalized, derivedId⟩ <;> cases hframe
  | submitted id' finalized derivedId result =>
    simp only [walletSubmitted] at hframe
    repeat' split at hframe
    all_goals cases hframe
  | indexed reader' id' job raw =>
    have hcases : Resolved m reader' id' _ (reconcileResolved m reader' id' job _ : Next cfg.sha256) :=
      reconcileResolved_cases m reader' id' job (cfg.resolve job.query raw)
    generalize cfg.resolve job.query raw = answer at hcases hframe hsettles
    generalize (reconcileResolved m reader' id' job answer : Next cfg.sha256) = next at hcases hframe hsettles
    cases hcases with
    | quiet hquiet => simp [(Frame.quiet_ends hquiet.frame).2] at hsettles
    | confirm receipt => cases hframe
    | reject code hdefinitive =>
      cases hframe
      exact hdefinitive

theorem Part.replied (h : Part cfg m f i observations next) : next.frame.replied = false := by
  cases h with
  | resumed c reply uuid => exact (resume_ends m uuid c reply).1
  | balanced id pending result =>
    rcases result with _ | ⟨finalized, derivedId⟩
    · rfl
    · rfl
  | submitted id finalized derivedId result =>
    simp only [walletSubmitted]
    repeat' split
    all_goals rfl
  | indexed reader id job raw =>
    have hcases : Resolved m reader id _ (reconcileResolved m reader id job _ : Next cfg.sha256) :=
      reconcileResolved_cases m reader id job (cfg.resolve job.query raw)
    generalize cfg.resolve job.query raw = answer at hcases ⊢
    generalize (reconcileResolved m reader id job answer : Next cfg.sha256) = next at hcases ⊢
    cases hcases with
    | quiet hquiet => exact (Frame.quiet_ends hquiet.frame).1
    | confirm receipt => rfl
    | reject code _ => rfl

end

end MidnightReferendum.Relayer
