import MidnightReferendum.Passport.RelayJobs

/-!
# Dead jobs and second jobs

A call that finds its recorded action at the relay waits for the job of that action, also when the job is dead.
It then rejects and leaves the record, so every later call does the same. As long as no call finds a dead job
and none gives up a request that is still on its way, a call after a dead job sends its own transaction, and at
most one job of the scope is undecided.
-/

namespace MidnightReferendum.Passport.Walletless

open Execution Js Relayer

variable {opts : Options} {w w' : World}

/-! ## The condition -/

/-- The relay answers a call that looks for its recorded action. -/
def LooksUp (e : World × Event) (previous : PendingActionRecord) : Prop :=
  ∃ call own now, e.1.running = some (call, .getAction own previous) ∧ e.2 = .answer (.succeeds now)

/-- No call finds a dead job. -/
def FindsNoDead (e : World × Event) : Prop :=
  ∀ previous, LooksUp e previous → ∀ job, e.1.jobs previous.actionId = some job → job.state.dead = false

/-- A request for which the relay has no job is no longer on its way when a call looks for it. -/
def GivesUpNone (e : World × Event) : Prop :=
  ∀ previous, LooksUp e previous → e.1.jobs previous.actionId = none →
    ∀ request ∈ e.1.sent, request.actionId ≠ previous.actionId

/-- The store keeps its record when the page is loaded again. -/
def KeepsStore (e : World × Event) : Prop := e.2 ≠ .reload false

/-! ## What every run keeps -/

def Outcome.failed : Outcome → Bool
  | .rejected (.failed _) => true
  | _ => false

/-- A call for which the recorded job was dead has sent its own transaction. -/
def Call.Retried (call : Call) : Prop := call.foundDead = true → call.submitted = true

/-- No request or job of the scope is undecided. -/
def Idle (w : World) : Prop := ∀ actionId, ¬Live w actionId

/-- What is true where a call waits. -/
def FrameTidy (opts : Options) (w : World) (call : Call) : Frame → Prop
  | .storeGet own => (Fresh w own.actionId ∧ own.actionId ∈ w.used) ∧
      (call.foundDead = true → ∃ previous ∈ w.pending, previous.actionId ∈ w.died)
  | .getAction own previous => (Fresh w own.actionId ∧ own.actionId ∈ w.used) ∧ w.pending = some previous ∧
      (call.foundDead = true → previous.actionId ∈ w.died)
  | .deleteStale own => (Fresh w own.actionId ∧ own.actionId ∈ w.used) ∧ Idle w
  | .issue own => (Fresh w own.actionId ∧ own.actionId ∈ w.used) ∧ Idle w
  | .put own _ => (Fresh w own.actionId ∧ own.actionId ∈ w.used) ∧ Idle w
  | .submit own => call.submitted = true ∧ w.pending = some (own.record opts)
  | .getReceipt wait _ => call.Retried ∧ ∃ previous ∈ w.pending, previous.actionId = wait.initial.actionId
  | .poll wait => call.Retried ∧ ∃ previous ∈ w.pending, previous.actionId = wait.initial.actionId
  | .deleteDone _ => call.Retried ∧ Idle w

/-- Only the recorded action may be undecided, with the hash of the record. -/
structure StoreTidy (w : World) : Prop extends RelayTidy w where
  hash : ∀ previous ∈ w.pending, ∀ request, Known w previous.actionId request →
    request.requestHash = previous.requestHash
  live : ∀ actionId, Live w actionId → ∃ previous ∈ w.pending, previous.actionId = actionId
  ended : ∀ call outcome, (call, outcome) ∈ w.ended → outcome.failed = false → call.Retried

structure Tidy (opts : Options) (w : World) : Prop extends StoreTidy w where
  frame : ∀ call frame, w.running = some (call, frame) → FrameTidy opts w call frame

/-- What is true when a call goes on or ends. -/
structure NextTidy (opts : Options) (w : World) (call : Call) (next : Next) : Prop where
  goes : ∀ frame, next = .goes frame → FrameTidy opts w (call.after frame) frame
  ends : ∀ outcome, next = .ends outcome → outcome.failed = false → call.Retried

theorem Idle.beside (h : Idle w) (hbeside : Beside w w') : Idle w' :=
  fun actionId hlive ↦ h actionId (hbeside.live actionId hlive)

theorem FrameTidy.beside {call : Call} {frame : Frame} (h : FrameTidy opts w call frame)
    (hbeside : Beside w w') : FrameTidy opts w' call frame := by
  have hfresh : ∀ {actionId}, Fresh w actionId ∧ actionId ∈ w.used → Fresh w' actionId ∧ actionId ∈ w'.used :=
    fun ⟨hfresh, hused⟩ ↦ ⟨hbeside.fresh _ hfresh, hbeside.used ▸ hused⟩
  cases frame with
  | storeGet own =>
    refine ⟨hfresh h.1, fun hdead ↦ ?_⟩
    obtain ⟨previous, hprevious, hdied⟩ := h.2 hdead
    exact ⟨previous, hbeside.pending ▸ hprevious, hbeside.died hdied⟩
  | getAction own previous =>
    exact ⟨hfresh h.1, hbeside.pending.trans h.2.1, fun hdead ↦ hbeside.died (h.2.2 hdead)⟩
  | deleteStale own => exact ⟨hfresh h.1, h.2.beside hbeside⟩
  | issue own => exact ⟨hfresh h.1, h.2.beside hbeside⟩
  | put own actionCapability => exact ⟨hfresh h.1, h.2.beside hbeside⟩
  | submit own => exact ⟨h.1, hbeside.pending.trans h.2⟩
  | getReceipt wait job => exact ⟨h.1, hbeside.pending ▸ h.2⟩
  | poll wait => exact ⟨h.1, hbeside.pending ▸ h.2⟩
  | deleteDone transactionId => exact ⟨h.1, h.2.beside hbeside⟩

theorem Tidy.beside (h : Tidy opts w) (hbeside : Beside w w') : Tidy opts w' where
  toRelayTidy := hbeside.tidy h.toRelayTidy
  hash previous hprevious request hknown :=
    h.hash previous (hbeside.pending ▸ hprevious) request (hbeside.known _ _ hknown)
  live actionId hlive := hbeside.pending ▸ h.live actionId (hbeside.live actionId hlive)
  frame call frame hrunning := (h.frame call frame (hbeside.running.symm.trans hrunning)).beside hbeside
  ended := hbeside.ended ▸ h.ended

/-- The call goes on or ends, and the rest of the world stays. -/
theorem StoreTidy.continue (h : StoreTidy w) {call : Call} {next : Next} (hnext : NextTidy opts w call next) :
    Tidy opts (w.continue call next) := by
  cases next with
  | goes frame =>
    refine ⟨⟨⟨h.used, h.arrived, h.jobId, h.died⟩, h.hash, h.live, h.ended⟩, fun call' frame' hrunning ↦ ?_⟩
    cases hrunning
    have htidy := hnext.goes frame rfl
    cases frame <;> exact htidy
  | ends outcome =>
    refine ⟨⟨⟨h.used, h.arrived, h.jobId, h.died⟩, h.hash, h.live, ?_⟩, fun call' frame' hrunning ↦ ?_⟩
    · intro call' outcome' hmem
      rcases List.mem_append.mp hmem with hold | hnew
      · exact h.ended call' outcome' hold
      · cases List.mem_singleton.mp hnew
        exact hnext.ends outcome rfl
    · cases hrunning

/-! ## The answers -/

section Answers

variable {call : Call} {wait : Wait}

theorem nextTidy_goes {frame : Frame} (h : FrameTidy opts w (call.after frame) frame) :
    NextTidy opts w call (.goes frame) where
  goes frame' heq := by
    cases heq
    exact h
  ends outcome heq := by cases heq

theorem nextTidy_fails (message : JsString) : NextTidy opts w call (.fails message) where
  goes frame heq := by cases heq
  ends outcome heq hfailed := by
    cases heq
    cases hfailed

theorem nextTidy_ends {outcome : Outcome} (h : call.Retried) : NextTidy opts w call (.ends outcome) where
  goes frame heq := by cases heq
  ends _ _ _ := h

theorem awaitReceipt_tidy (hretried : call.Retried)
    (hpending : ∃ previous ∈ w.pending, previous.actionId = wait.initial.actionId)
    (found : Option WalletlessActionJob) : NextTidy opts w call (awaitReceipt wait found) := by
  unfold awaitReceipt
  split
  · exact nextTidy_ends hretried
  · split
    · exact nextTidy_ends hretried
    · exact nextTidy_goes ⟨hretried, hpending⟩

theorem waitForCanonicalReceipt_tidy {initial : WalletlessActionJob} {now : ℤ} (hretried : call.Retried)
    (hpending : ∃ previous ∈ w.pending, previous.actionId = initial.actionId) :
    NextTidy opts w call (waitForCanonicalReceipt opts now initial) :=
  awaitReceipt_tidy hretried hpending _

/-- The job of an action that the relay shows is the one for its request. -/
theorem public_of_find {actionId : JsString} {found : WalletlessActionJob} (h : RelayTidy w)
    (hfound : w.find actionId = some found) : ∃ job, w.jobs actionId = some job ∧
      found.actionId = actionId ∧ found.requestHash = job.request.requestHash := by
  obtain ⟨job, hjob, rfl⟩ := Option.map_eq_some_iff.mp hfound
  exact ⟨job, hjob, h.jobId actionId job hjob, rfl⟩

theorem idle_of_none (h : StoreTidy w) (hpending : w.pending = none) : Idle w := by
  intro actionId hlive
  obtain ⟨previous, hprevious, _⟩ := h.live actionId hlive
  cases hpending.symm.trans hprevious

/-- Nothing is undecided if the recorded action is not. -/
theorem idle_of_not_live (h : StoreTidy w) {previous : PendingActionRecord} (hpending : w.pending = some previous)
    (hnot : ¬Live w previous.actionId) : Idle w := by
  intro actionId hlive
  obtain ⟨record, hrecord, rfl⟩ := h.live actionId hlive
  obtain rfl := Option.some.inj (hpending.symm.trans hrecord)
  exact hnot hlive

/-- The record is deleted when nothing is undecided. -/
theorem StoreTidy.delete (h : StoreTidy w) (hidle : Idle w) : StoreTidy { w with pending := none } where
  toRelayTidy := ⟨h.used, h.arrived, h.jobId, h.died⟩
  hash previous hprevious := by cases hprevious
  live actionId hlive := (hidle actionId hlive).elim
  ended := h.ended

/-- A new action is recorded when nothing is undecided. -/
theorem StoreTidy.record (h : StoreTidy w) {own : Own} (hfresh : Fresh w own.actionId) (hidle : Idle w) :
    StoreTidy { w with pending := some (own.record opts) } where
  toRelayTidy := ⟨h.used, h.arrived, h.jobId, h.died⟩
  hash previous hprevious request hknown := by
    obtain rfl := Option.some.inj hprevious
    exact (hfresh.1 request hknown).elim
  live actionId hlive := (hidle actionId hlive).elim
  ended := h.ended

/-- The request of the recorded action is sent. -/
theorem StoreTidy.send (h : StoreTidy w) {own : Own} {actionCapability : JsString}
    (hfresh : Fresh w own.actionId) (hused : own.actionId ∈ w.used) (hidle : Idle w) :
    StoreTidy { w with
      pending := some (own.record opts)
      sent := own.request opts actionCapability :: w.sent } := by
  refine ⟨h.toRelayTidy.send hfresh hused _, ?_, ?_, h.ended⟩
  · intro previous hprevious request hrequest
    obtain rfl := Option.some.inj hprevious
    rcases known_send hrequest with ⟨_, rfl⟩ | hold
    · rfl
    · exact (hfresh.1 request hold).elim
  · intro actionId hlive
    refine ⟨own.record opts, rfl, ?_⟩
    rcases hlive with ⟨request, hmem, rfl⟩ | hundecided
    · rcases List.mem_cons.mp hmem with rfl | hold
      · rfl
      · exact (hidle _ (Or.inl ⟨request, hold, rfl⟩)).elim
    · exact (hidle actionId (Or.inr hundecided)).elim

/-- A job with a receipt is decided. -/
theorem not_live_of_receipt (h : RelayTidy w) {actionId : JsString} {state : JobState}
    (hstate : (w.jobs actionId).map RelayJob.state = some state) {receipt : CanonicalReceipt}
    (hreceipt : state.receipt = some receipt) : ¬Live w actionId := by
  obtain ⟨job, hjob, rfl⟩ := Option.map_eq_some_iff.mp hstate
  rintro (⟨request, hmem, rfl⟩ | ⟨job', hjob', hpending⟩)
  · cases (h.arrived request hmem).1.symm.trans hjob
  · obtain rfl := Option.some.inj (hjob.symm.trans hjob')
    have hconfirmed := job.state.receipt_confirmed (by rw [hreceipt]; rfl)
    cases hconfirmed.symm.trans hpending

theorem afterReceipt_tidy (h : StoreTidy w) (hretried : call.Retried) {job : WalletlessActionJob} {now : ℤ}
    (hpending : ∃ previous ∈ w.pending, previous.actionId = wait.initial.actionId) :
    NextTidy opts w call
      (afterReceipt wait job now ((w.jobs wait.initial.actionId).map RelayJob.state)) := by
  unfold afterReceipt
  split
  · next state hstate =>
    split
    · next receipt hreceipt =>
      split
      · obtain ⟨previous, hprevious, hid⟩ := hpending
        refine nextTidy_goes ⟨hretried, idle_of_not_live h hprevious ?_⟩
        exact hid ▸ not_live_of_receipt h.toRelayTidy hstate hreceipt
      · exact nextTidy_ends hretried
    · split
      · exact nextTidy_fails _
      · split
        · exact nextTidy_ends hretried
        · exact nextTidy_goes ⟨hretried, hpending⟩
  · split
    · exact nextTidy_ends hretried
    · exact nextTidy_goes ⟨hretried, hpending⟩

/-- The relay has answered a call that looked for its recorded action. -/
theorem lookup_tidy (h : StoreTidy w) {own : Own} {previous : PendingActionRecord} {now : ℤ} {w₁ : World}
    {next : Next} (hframe : FrameTidy opts w call (.getAction own previous))
    (hfinds : ∀ job, w.jobs previous.actionId = some job → job.state.dead = false)
    (hgives : w.jobs previous.actionId = none → ∀ request ∈ w.sent, request.actionId ≠ previous.actionId)
    (hperform : perform opts w (.getAction own previous) (.succeeds now) = some (w₁, next)) :
    w₁ = w ∧ NextTidy opts w call next := by
  obtain ⟨hfresh, hpending, hdied⟩ := hframe
  simp only [perform] at hperform
  split at hperform
  · next recovered hfound =>
    obtain ⟨job, hjob, hid, hhash⟩ := public_of_find h.toRelayTidy hfound
    have hsame : recovered.requestHash = previous.requestHash :=
      hhash.trans (h.hash previous hpending job.request (Or.inr ⟨job, hjob, rfl⟩))
    rw [if_pos hsame] at hperform
    cases hperform
    refine ⟨rfl, waitForCanonicalReceipt_tidy ?_ ⟨previous, hpending, hid.symm⟩⟩
    -- The job that was found is alive, so it has never died.
    intro hdead
    have hjobDead := (h.died previous.actionId (hdied hdead)).2 job hjob
    cases (hfinds job hjob).symm.trans hjobDead
  · next hnone =>
    cases hperform
    have hjob : w.jobs previous.actionId = none := Option.map_eq_none_iff.mp hnone
    refine ⟨rfl, nextTidy_goes ⟨hfresh, idle_of_not_live h hpending ?_⟩⟩
    rintro (⟨request, hmem, hid⟩ | ⟨job, hfound, _⟩)
    · exact hgives hjob request hmem hid
    · cases hjob.symm.trans hfound

theorem perform_tidy (h : StoreTidy w) {frame : Frame} {reply : Reply} {w₁ : World} {next : Next}
    (hframe : FrameTidy opts w call frame)
    (hlookup : ∀ own previous now, frame = .getAction own previous → reply = .succeeds now →
      (∀ job, w.jobs previous.actionId = some job → job.state.dead = false) ∧
        (w.jobs previous.actionId = none → ∀ request ∈ w.sent, request.actionId ≠ previous.actionId))
    (hperform : perform opts w frame reply = some (w₁, next)) :
    StoreTidy w₁ ∧ NextTidy opts w₁ call next := by
  unfold perform at hperform
  split at hperform
  · cases hperform
    exact ⟨h, nextTidy_fails _⟩
  · split at hperform
    · next previous hprevious =>
      cases hperform
      refine ⟨h, nextTidy_goes ⟨hframe.1, hprevious, fun hdead ↦ ?_⟩⟩
      obtain ⟨record, hrecord, hdied⟩ := hframe.2 hdead
      obtain rfl := Option.some.inj (hprevious.symm.trans hrecord)
      exact hdied
    · next hnone =>
      cases hperform
      exact ⟨h, nextTidy_goes ⟨hframe.1, idle_of_none h hnone⟩⟩
  · next own previous now =>
    obtain ⟨hfinds, hgives⟩ := hlookup own previous now rfl rfl
    obtain ⟨rfl, hnext⟩ := lookup_tidy h hframe hfinds hgives hperform
    exact ⟨h, hnext⟩
  · cases hperform
    exact ⟨h.delete hframe.2, nextTidy_goes ⟨hframe.1, hframe.2⟩⟩
  · cases hperform
    exact ⟨h.delete hframe.2, nextTidy_fails _⟩
  · cases hperform
    exact ⟨h, nextTidy_goes ⟨hframe.1, hframe.2⟩⟩
  · cases hperform
    exact ⟨h.send hframe.1.1 hframe.1.2 hframe.2, nextTidy_goes ⟨rfl, rfl⟩⟩
  · cases hperform
    exact ⟨h.record hframe.1.1 hframe.2, nextTidy_fails _⟩
  · next own now =>
    obtain ⟨found, hfound, heq⟩ := Option.map_eq_some_iff.mp hperform
    cases heq
    obtain ⟨job, _, hid, _⟩ := public_of_find h.toRelayTidy hfound
    have hsame : (own.record opts).actionId = found.actionId := hid.symm
    exact ⟨h, waitForCanonicalReceipt_tidy (fun _ ↦ hframe.1) ⟨_, hframe.2, hsame⟩⟩
  · cases hperform
    exact ⟨h, afterReceipt_tidy h hframe.1 hframe.2⟩
  · cases hperform
    exact ⟨h, awaitReceipt_tidy hframe.1 hframe.2 _⟩
  · cases hperform
    exact ⟨h.delete hframe.2, nextTidy_ends hframe.1⟩
  · cases hperform
    exact ⟨h.delete hframe.2, nextTidy_fails _⟩
  · cases hperform

end Answers

/-! ## A dead job that the relay keeps -/

/-- A call that waits for the store or for the recorded job. -/
def FrameBlocked (previous : PendingActionRecord) : Frame → Prop
  | .storeGet _ => True
  | .getAction _ record => record = previous
  | .submit own => own.actionId = previous.actionId
  | .getReceipt wait _ => wait.initial.actionId = previous.actionId
  | .poll wait => wait.initial.actionId = previous.actionId
  | _ => False

/-- The recorded job is dead. -/
structure Blocked (previous : PendingActionRecord) (w : World) : Prop extends RelayTidy w where
  pending : w.pending = some previous
  dead : ∃ job, w.jobs previous.actionId = some job ∧ job.state.dead = true ∧
    job.request.requestHash = previous.requestHash
  frame : ∀ call frame, w.running = some (call, frame) → FrameBlocked previous frame

section Blocked

variable {previous : PendingActionRecord}

/-- A next wait, if there is one, is for the store or for the recorded job. -/
def Next.Blocked (previous : PendingActionRecord) : Next → Prop
  | .goes frame => FrameBlocked previous frame
  | .ends _ => True

theorem awaitReceipt_blocked {wait : Wait} {found : Option WalletlessActionJob}
    (hdead : ∀ job ∈ found, job.dead = true) : (awaitReceipt wait found).Blocked previous := by
  unfold awaitReceipt
  split
  · trivial
  · next job =>
    rw [if_pos (hdead job rfl)]
    trivial

theorem receipt_none_of_dead {state : JobState} (hdead : state.dead = true) : state.receipt = none := by
  cases hreceipt : state.receipt with
  | none => rfl
  | some receipt =>
    have hconfirmed := state.receipt_confirmed (by rw [hreceipt]; rfl)
    simp [JobState.dead, hconfirmed] at hdead

/-- A call that waits for a dead job changes nothing. -/
theorem Blocked.perform (h : Blocked previous w) {frame : Frame} (hframe : FrameBlocked previous frame)
    {reply : Reply} {w₁ : World} {next : Next} (hperform : perform opts w frame reply = some (w₁, next)) :
    w₁ = w ∧ next.Blocked previous := by
  obtain ⟨job, hjob, hdead, hhash⟩ := h.dead
  have hfind : w.find previous.actionId = some job.public := by simp only [World.find, hjob, Option.map_some]
  have hfound : ∀ {id}, id = previous.actionId → ∀ found ∈ w.find id, found.dead = true := by
    rintro id rfl found hmem
    obtain rfl := Option.some.inj (hfind.symm.trans hmem)
    exact hdead
  unfold Walletless.perform at hperform
  split at hperform
  · cases hperform
    exact ⟨rfl, trivial⟩
  · rw [h.pending] at hperform
    cases hperform
    exact ⟨rfl, rfl⟩
  · next own record now =>
    obtain rfl : record = previous := hframe
    rw [hfind] at hperform
    simp only at hperform
    have hsame : job.public.requestHash = record.requestHash := hhash
    rw [if_pos hsame] at hperform
    cases hperform
    exact ⟨rfl, awaitReceipt_blocked fun found hmem ↦ hfound rfl found (hfind.trans hmem)⟩
  · cases hframe
  · cases hframe
  · cases hframe
  · cases hframe
  · cases hframe
  · next own now =>
    obtain ⟨found, hmem, heq⟩ := Option.map_eq_some_iff.mp hperform
    cases heq
    refine ⟨rfl, awaitReceipt_blocked fun other hother ↦ ?_⟩
    exact hfound hframe other (hmem.trans hother)
  · next wait shown now =>
    cases hperform
    refine ⟨rfl, ?_⟩
    have hid : wait.initial.actionId = previous.actionId := hframe
    simp only [afterReceipt, hid, hjob, Option.map_some, receipt_none_of_dead hdead, hdead, if_true]
    trivial
  · next wait now =>
    cases hperform
    exact ⟨rfl, awaitReceipt_blocked (hfound hframe)⟩
  · cases hframe
  · cases hframe
  · cases hperform

theorem Blocked.continue (h : Blocked previous w) {call : Call} {next : Next} (hnext : next.Blocked previous) :
    Blocked previous (w.continue call next) := by
  cases next with
  | goes frame =>
    refine ⟨⟨h.used, h.arrived, h.jobId, h.died⟩, h.pending, h.dead, fun call' frame' hrunning ↦ ?_⟩
    cases hrunning
    exact hnext
  | ends outcome =>
    refine ⟨⟨h.used, h.arrived, h.jobId, h.died⟩, h.pending, h.dead, fun call' frame' hrunning ↦ ?_⟩
    cases hrunning

theorem perform_jobs {frame : Frame} {reply : Reply} {w₁ : World} {next : Next}
    (hperform : perform opts w frame reply = some (w₁, next)) : w₁.jobs = w.jobs := by
  unfold Walletless.perform at hperform
  split at hperform
  case h_2 => split at hperform <;> (cases hperform; rfl)
  case h_3 => grind
  case h_9 =>
    obtain ⟨_, _, heq⟩ := Option.map_eq_some_iff.mp hperform
    cases heq
    rfl
  all_goals
    cases hperform
    try rfl

theorem continue_jobs (w : World) (call : Call) (next : Next) : (w.continue call next).jobs = w.jobs := by
  cases next <;> rfl

/-- A dead job stays as it is until the relay loses it. -/
theorem jobs_of_step (h : RelayTidy w) {actionId : JsString} {job : RelayJob} (hjob : w.jobs actionId = some job)
    (hdead : job.state.dead = true) {e : Event} (hpurge : e ≠ .purge actionId)
    (hok : step opts w e = .ok w') : w'.jobs actionId = some job := by
  have hsome := stepOption_of_step hok
  cases e with
  | submitTx own =>
    simp only [stepOption] at hsome
    split at hsome
    · obtain rfl := Option.some.inj hsome
      exact hjob
    · cases hsome
  | answer reply =>
    simp only [stepOption] at hsome
    split at hsome
    · next call frame hrunning =>
      obtain ⟨⟨w₁, next⟩, hperform, rfl⟩ := Option.map_eq_some_iff.mp hsome
      rw [continue_jobs, perform_jobs hperform, hjob]
    · cases hsome
  | reload kept =>
    obtain rfl := Option.some.inj hsome
    exact hjob
  | arrives id state =>
    simp only [stepOption] at hsome
    split at hsome
    · next request hfound =>
      obtain rfl := Option.some.inj hsome
      have hid : request.actionId = id := by simpa using List.find?_some hfound
      have hne : actionId ≠ id := by
        rintro rfl
        cases (hid ▸ (h.arrived request (List.mem_of_find?_eq_some hfound)).1).symm.trans hjob
      exact (Function.update_of_ne hne _ _).trans hjob
    · cases hsome
  | drops id =>
    obtain rfl := Option.some.inj hsome
    exact hjob
  | progress id state =>
    simp only [stepOption] at hsome
    split at hsome
    · next found hfound =>
      split at hsome
      · next hpending =>
        obtain rfl := Option.some.inj hsome
        have hne : actionId ≠ id := by
          rintro rfl
          obtain rfl := Option.some.inj (hjob.symm.trans hfound)
          exact dead_of_not_pending hdead hpending
        exact (Function.update_of_ne hne _ _).trans hjob
      · cases hsome
    · cases hsome
  | purge id =>
    obtain rfl := Option.some.inj hsome
    have hne : actionId ≠ id := fun heq ↦ hpurge (heq ▸ rfl)
    exact (Function.update_of_ne hne _ _).trans hjob

/-- The relay and the store keep a dead job and its record, and no request is made. -/
theorem Blocked.step (h : Blocked previous w) {e : Event} (hpurge : e ≠ .purge previous.actionId)
    (hkeeps : KeepsStore (w, e)) (hok : step opts w e = .ok w') :
    Blocked previous w' ∧ ∀ actionId request, Known w' actionId request → Known w actionId request := by
  have hdead : ∃ job, w'.jobs previous.actionId = some job ∧ job.state.dead = true ∧
      job.request.requestHash = previous.requestHash := by
    obtain ⟨job, hjob, hdead, hhash⟩ := h.dead
    exact ⟨job, jobs_of_step h.toRelayTidy hjob hdead hpurge hok, hdead, hhash⟩
  cases effect_of_step h.toRelayTidy hok with
  | called own hrunning hunused =>
    refine ⟨⟨h.toRelayTidy.called _ _, h.pending, hdead, fun call frame hframe ↦ ?_⟩, fun _ _ hknown ↦ hknown⟩
    cases hframe
    trivial
  | answered reply call frame w₁ next hrunning hperform =>
    obtain ⟨rfl, hnext⟩ := h.perform (h.frame call frame hrunning) hperform
    refine ⟨h.continue hnext, fun actionId request hknown ↦ ?_⟩
    cases next <;> exact hknown
  | reloaded kept =>
    cases kept with
    | false => exact absurd rfl hkeeps
    | true =>
      refine ⟨⟨⟨h.used, h.arrived, h.jobId, h.died⟩, h.pending, hdead, fun call frame hframe ↦ ?_⟩,
        fun _ _ hknown ↦ hknown⟩
      cases hframe
  | beside e w' hbeside =>
    refine ⟨⟨hbeside.tidy h.toRelayTidy, hbeside.pending.trans h.pending, hdead, ?_⟩, hbeside.known⟩
    exact fun call frame hrunning ↦ h.frame call frame (hbeside.running ▸ hrunning)

/-- As long as the relay and the store keep the recorded job and its record, no call after its death makes
another request. -/
theorem Blocked.run (h : Blocked previous w) (es : List Event)
    (hkept : ∀ e ∈ accepted (Walletless.step opts) w es, e.2 ≠ .purge previous.actionId ∧ KeepsStore e) :
    Blocked previous (run (Walletless.step opts) w es) ∧ ∀ actionId request,
      Known (run (Walletless.step opts) w es) actionId request → Known w actionId request :=
  run_history (f := Walletless.step opts)
    (I := fun _ w' ↦ Blocked previous w' ∧ ∀ actionId request, Known w' actionId request → Known w actionId request)
    (P := fun e ↦ e.2 ≠ .purge previous.actionId ∧ KeepsStore e)
    (fun _ _ _ _ ⟨hblocked, hknown⟩ ⟨hpurge, hkeep⟩ hok ↦
      have ⟨hnext, hback⟩ := hblocked.step hpurge hkeep hok
      ⟨hnext, fun actionId request hnew ↦ hknown actionId request (hback actionId request hnew)⟩)
    ⟨h, fun _ _ hknown ↦ hknown⟩ es hkept

end Blocked

/-! ## Every run -/

theorem tidy_step (h : Tidy opts w) {e : Event} (hfinds : FindsNoDead (w, e)) (hgives : GivesUpNone (w, e))
    (hkeeps : KeepsStore (w, e)) (hok : step opts w e = .ok w') : Tidy opts w' := by
  cases effect_of_step h.toRelayTidy hok with
  | called own hrunning hunused =>
    refine ⟨⟨h.toRelayTidy.called _ _, h.hash, h.live, h.ended⟩, fun call frame hframe ↦ ?_⟩
    cases hframe
    refine ⟨⟨h.fresh hunused, List.mem_cons_self⟩, fun hdead ↦ ?_⟩
    simp only [World.foundDead] at hdead
    split at hdead
    · next previous hprevious => exact ⟨previous, hprevious, List.contains_iff_mem.mp hdead⟩
    · cases hdead
  | answered reply call frame w₁ next hrunning hperform =>
    have hlookup : ∀ own previous now, frame = .getAction own previous → reply = .succeeds now →
        (∀ job, w.jobs previous.actionId = some job → job.state.dead = false) ∧
          (w.jobs previous.actionId = none → ∀ request ∈ w.sent, request.actionId ≠ previous.actionId) := by
      rintro own previous now rfl rfl
      have hlooks : LooksUp (w, .answer (.succeeds now)) previous := ⟨call, own, now, hrunning, rfl⟩
      exact ⟨hfinds previous hlooks, hgives previous hlooks⟩
    obtain ⟨hstore, hnext⟩ := perform_tidy h.toStoreTidy (h.frame call frame hrunning) hlookup hperform
    exact hstore.continue hnext
  | reloaded kept =>
    cases kept with
    | false => exact absurd rfl hkeeps
    | true =>
      refine ⟨⟨⟨h.used, h.arrived, h.jobId, h.died⟩, h.hash, h.live, h.ended⟩, fun call frame hframe ↦ ?_⟩
      cases hframe
  | beside e w' hbeside => exact h.beside hbeside

theorem tidy_start (opts : Options) : Tidy opts start where
  toRelayTidy := relayTidy_start
  hash previous hprevious := by cases hprevious
  live actionId hlive := by
    rcases hlive with ⟨request, hmem, _⟩ | ⟨job, hjob, _⟩
    · cases hmem
    · cases hjob
  ended call outcome hmem := by cases hmem
  frame call frame hrunning := by cases hrunning

/-- A dead job does not block voting, and no second job is made beside an undecided one. -/
structure LetsVote (w : World) : Prop where
  retried : ∀ call outcome, (call, outcome) ∈ w.ended → outcome.failed = false → call.foundDead = true →
    call.submitted = true
  one : ∀ actionId actionId', Undecided w actionId → Undecided w actionId' → actionId = actionId'

theorem tidy_run (opts : Options) (es : List Event)
    (hfinds : ∀ e ∈ accepted (step opts) start es, FindsNoDead e)
    (hgives : ∀ e ∈ accepted (step opts) start es, GivesUpNone e)
    (hkeeps : ∀ e ∈ accepted (step opts) start es, KeepsStore e) : Tidy opts (run (step opts) start es) :=
  run_history (f := step opts) (I := fun _ w ↦ Tidy opts w)
    (P := fun e ↦ FindsNoDead e ∧ GivesUpNone e ∧ KeepsStore e)
    (fun _ _ _ _ htidy ⟨hfind, hgive, hkeep⟩ hok ↦ tidy_step htidy hfind hgive hkeep hok)
    (tidy_start opts) es fun e he ↦ ⟨hfinds e he, hgives e he, hkeeps e he⟩

/-- In every run in which no call finds a dead job or gives up a request that is on its way, dead jobs do not
block voting. -/
theorem dead_job_does_not_block (opts : Options) (es : List Event)
    (hfinds : ∀ e ∈ accepted (step opts) start es, FindsNoDead e)
    (hgives : ∀ e ∈ accepted (step opts) start es, GivesUpNone e)
    (hkeeps : ∀ e ∈ accepted (step opts) start es, KeepsStore e) : LetsVote (run (step opts) start es) := by
  have hrun := tidy_run opts es hfinds hgives hkeeps
  refine ⟨fun call outcome hmem hfailed hdead ↦ hrun.ended call outcome hmem hfailed hdead, ?_⟩
  intro actionId actionId' hundecided hundecided'
  obtain ⟨previous, hprevious, rfl⟩ := hrun.live actionId (Or.inr hundecided)
  obtain ⟨previous', hprevious', rfl⟩ := hrun.live actionId' (Or.inr hundecided')
  rw [Option.some.inj (hprevious.symm.trans hprevious')]

/-! ## Runs on a sample -/

/-- The record that an answered call looks for. -/
def lookedUp : World × Event → Option PendingActionRecord
  | (w, .answer (.succeeds _)) =>
    match w.running with
    | some (_, .getAction _ previous) => some previous
    | _ => none
  | _ => none

theorem lookedUp_of {e : World × Event} {previous : PendingActionRecord} (h : LooksUp e previous) :
    previous ∈ lookedUp e := by
  obtain ⟨call, own, now, hrunning, hanswer⟩ := h
  obtain ⟨w, e⟩ := e
  obtain rfl : e = .answer (.succeeds now) := hanswer
  simp only at hrunning
  simp only [lookedUp, hrunning]
  rfl

def sampleOptions : Options where
  networkId := js "preview"
  submissionTimeoutMs := 5
  scope := ⟨js "authorization", js "contract", js "castVote", .vote⟩
  sha256 := id

def sampleOwn (name : String) : Own := ⟨js "tx" ++ js name, js name, js "key"⟩

/-- A job without a receipt. -/
def undecided : JobState := ⟨.pending, none, none, none, no_receipt⟩

def failedJob : JobState := ⟨.failed, none, none, none, no_receipt⟩

def sampleReceipt : CanonicalReceipt where
  action := .vote
  network := js "preview"
  transactionId := js "id"
  transactionHash := js "hash"
  contractAddress := js "contract"
  circuit := js "castVote"
  blockHeight := 0
  blockHash := js "block"
  blockTimestamp := js "time"
  explorerUrl := none

def confirmedJob : JobState := ⟨.confirmed, some (js "id"), some sampleReceipt, none, fun _ ↦ rfl⟩

/-- A call records its action and sends its request. -/
def sends : List Event := [.answer (.succeeds 0), .answer (.issued (js "capability")), .answer (.succeeds 0)]

/-- The first call sends a request, whose job fails. -/
def firstFails : List Event :=
  .submitTx (sampleOwn "a") :: sends ++
    [.arrives (js "a") undecided, .answer (.succeeds 0), .progress (js "a") failedJob, .answer (.succeeds 0)]

/-- The relay loses the failed job. The second call sends its own transaction, which is confirmed. -/
def lostJob : List Event :=
  firstFails ++ [.purge (js "a"), .submitTx (sampleOwn "b"), .answer (.succeeds 0), .answer (.succeeds 0)] ++
    sends ++ [.arrives (js "b") confirmedJob] ++ List.replicate 3 (.answer (.succeeds 0))

def Event.keepsStore : Event → Bool
  | .reload kept => kept
  | _ => true

theorem keepsStore_of {w : World} {es : List Event} (h : ∀ e ∈ es, e.keepsStore = true) :
    ∀ e ∈ accepted (step opts) w es, KeepsStore e := by
  intro e he hreload
  have hmem := (accepted_sublist w es).subset (List.mem_map_of_mem he)
  rw [hreload] at hmem
  cases h _ hmem

theorem dead_job_does_not_block_sample :
    LetsVote (run (step sampleOptions) start lostJob) ∧
      ((run (step sampleOptions) start lostJob).ended.map fun e ↦ (e.1.foundDead, e.1.submitted)) =
        [(false, true), (true, true)] := by
  have hlook : ∀ e ∈ accepted (step sampleOptions) start lostJob, ∀ previous ∈ lookedUp e,
      (∀ job ∈ e.1.jobs previous.actionId, job.state.dead = false) ∧
        ∀ request ∈ e.1.sent, request.actionId ≠ previous.actionId := by
    decide +kernel
  refine ⟨dead_job_does_not_block sampleOptions lostJob ?_ ?_ (keepsStore_of (by decide +kernel)),
    by decide +kernel⟩
  · exact fun e he previous hlooks job hjob ↦ (hlook e he previous (lookedUp_of hlooks)).1 job hjob
  · exact fun e he previous hlooks _ ↦ (hlook e he previous (lookedUp_of hlooks)).2

/-- A later call finds the failed job. -/
def foundJob : List Event := firstFails ++ [.submitTx (sampleOwn "b"), .answer (.succeeds 0), .answer (.succeeds 0)]

/-- The first request is still on its way when a later call looks for it and sends its own. -/
def overtakes : List Event :=
  .submitTx (sampleOwn "a") :: sends ++
    [.answer (.fails (js "network")), .submitTx (sampleOwn "b"), .answer (.succeeds 0), .answer (.succeeds 0),
      .answer (.succeeds 0)] ++ sends.tail ++ [.arrives (js "a") undecided, .arrives (js "b") undecided]

theorem firstFails_blocked :
    Blocked ((sampleOwn "a").record sampleOptions) (run (step sampleOptions) start firstFails) := by
  have hlook : ∀ e ∈ accepted (step sampleOptions) start firstFails, lookedUp e = none := by decide +kernel
  have hnot : ∀ e ∈ accepted (step sampleOptions) start firstFails, ∀ previous, ¬LooksUp e previous := by
    intro e he previous hlooks
    cases (hlook e he).symm.trans (lookedUp_of hlooks)
  have htidy := tidy_run sampleOptions firstFails (fun e he _ hlooks ↦ (hnot e he _ hlooks).elim)
    (fun e he _ hlooks ↦ (hnot e he _ hlooks).elim) (keepsStore_of (by decide +kernel))
  refine ⟨htidy.toRelayTidy, by decide +kernel, ?_, ?_⟩
  · have hjob : ∀ job ∈ (run (step sampleOptions) start firstFails).jobs (js "a"), job.state.dead = true ∧
        job.request.requestHash = ((sampleOwn "a").record sampleOptions).requestHash := by
      decide +kernel
    have hsome : ((run (step sampleOptions) start firstFails).jobs (js "a")).isSome = true := by decide +kernel
    obtain ⟨job, hfound⟩ := Option.isSome_iff_exists.mp hsome
    exact ⟨job, hfound, hjob job hfound⟩
  · have hnone : (run (step sampleOptions) start firstFails).running.isNone = true := by decide +kernel
    intro call frame hrunning
    cases (Option.isNone_iff_eq_none.mp hnone).symm.trans hrunning

/-- A later call fails with the error of the failed job, and none sends its own transaction while the relay
keeps that job. A call that overtakes a request makes a second undecided job. -/
theorem dead_job_blocks :
    (¬LetsVote (run (step sampleOptions) start foundJob) ∧
      ∀ es, (∀ e ∈ accepted (step sampleOptions) (run (step sampleOptions) start firstFails) es,
          e.2 ≠ .purge (js "a") ∧ KeepsStore e) →
        ∀ actionId request, Known (run (step sampleOptions) start (firstFails ++ es)) actionId request →
          actionId = js "a") ∧
      ¬LetsVote (run (step sampleOptions) start overtakes) := by
  refine ⟨⟨fun h ↦ ?_, fun es hkept actionId request hknown ↦ ?_⟩, fun h ↦ ?_⟩
  · have hfound : ∃ e ∈ (run (step sampleOptions) start foundJob).ended, e.2.failed = false ∧
        e.1.foundDead = true ∧ e.1.submitted = false := by
      decide +kernel
    obtain ⟨e, he, hfailed, hdead, hnot⟩ := hfound
    cases (h.retried e.1 e.2 he hfailed hdead).symm.trans hnot
  · rw [run_append] at hknown
    have hold := (firstFails_blocked.run es hkept).2 actionId request hknown
    have hused : (run (step sampleOptions) start firstFails).used = [js "a"] := by decide +kernel
    exact List.mem_singleton.mp (hused ▸ firstFails_blocked.used actionId request hold)
  · have hundecided : ∀ id ∈ [js "a", js "b"], Undecided (run (step sampleOptions) start overtakes) id := by
      have hstatus : ∀ id ∈ [js "a", js "b"],
          ((run (step sampleOptions) start overtakes).jobs id).map (fun job ↦ job.state.status) =
            some .pending := by
        decide +kernel
      exact fun id hid ↦ Option.map_eq_some_iff.mp (hstatus id hid)
    have hsame := h.one (js "a") (js "b") (hundecided _ (by decide)) (hundecided _ (by decide))
    exact absurd hsame (by decide)

end MidnightReferendum.Passport.Walletless
