import MidnightReferendum.Relayer.Jobs
import MidnightReferendum.Relayer.Methods

/-!
# Restarts

What `start` makes of a store that crashed services have left behind.
-/

namespace MidnightReferendum.Relayer

open Js

variable {ρ : Type} {cfg : Config ρ}

/-! ## Transaction ids -/

/-- The transaction id that an operation stores with its job. -/
def Frame.sendsAs {sha256 : JsString → JsString} : Frame sha256 → Option JsString
  | .waiting (.walletFinalize _ _ derivedId) | .ready (.walletFinalize _ _ derivedId) _ => derivedId
  | .waiting (.walletIntent _ _ derivedId) | .ready (.walletIntent _ _ derivedId) _ => derivedId
  | .external (.submit _ _ derivedId) => derivedId
  | .waiting (.walletLost _ derivedId) => some derivedId
  | .waiting (.walletPending _ transactionId) => some transactionId
  | _ => none

/-- A job that waits for the indexer has a transaction id. -/
def identified (cfg : Config ρ) : Invariant cfg where
  shared s := ∀ id job, s.store.get id = some job → job.status = .indexerPending →
    truthy job.transactionId
  memory _ _ := True
  task _ f := ∀ transactionId, f.sendsAs = some transactionId → truthy (some transactionId)
  apart _ _ := True

theorem requireTransactionId_truthy {result : Except Unit JsString} {transactionId : JsString}
    (h : requireTransactionId result = some transactionId) : truthy (some transactionId) := by
  unfold requireTransactionId at h
  split at h
  · cases h
  · split at h
    · cases h
    · next hblank =>
      cases h
      cases transactionId with
      | nil => simp [isBlank] at hblank
      | cons u us => rfl

theorem Frame.quiet_sendsAs {sha256 : JsString → JsString} {f : Frame sha256} (h : f.quiet) :
    f.sendsAs = none := by
  unfold Frame.quiet at h
  split at h
  all_goals first
    | rfl
    | cases h

theorem resume_sendsAs {m : Memory} {uuid : JsString} {c : StoreFrame}
    {reply : Except StoreError (c.call cfg.sha256).Answer} {transactionId : JsString}
    (h : (resume m uuid c reply).frame.sendsAs = some transactionId) :
    (Frame.ready c reply).sendsAs = some transactionId := by
  cases hc : c.loud with
  | false =>
    rw [Frame.quiet_sendsAs (resume_quiet m hc uuid reply).frame] at h
    cases h
  | true =>
    cases c <;> try cases hc
    all_goals
      simp only [resume, acceptCreated, acceptFoundByKey, acceptConsumed, acceptReconsumed, acceptFailed,
        walletFound, walletValidated, walletReserved, walletClosed, walletFinalized, walletIntended,
        walletAwaitsIndexer] at h
      repeat' split at h
    all_goals first
      | exact h
      | cases h

theorem Part.sendsAs {m : Memory} {f : Frame cfg.sha256} {i : Input ρ}
    {observations : List (Observation ρ)} {next : Next cfg.sha256}
    (h : Part cfg m f i observations next) {transactionId : JsString}
    (hid : next.frame.sendsAs = some transactionId) :
    f.sendsAs = some transactionId ∨ truthy (some transactionId) := by
  cases h with
  | resumed c reply uuid => exact Or.inl (resume_sendsAs hid)
  | balanced id pending result =>
    rcases result with _ | ⟨finalized, derivedId⟩
    · cases hid
    · right
      have hderived : (if truthy derivedId then derivedId else none) = some transactionId := hid
      split at hderived
      · next htruthy => rwa [hderived] at htruthy
      · cases hderived
  | submitted id finalized derivedId result =>
    simp only [walletSubmitted] at hid
    split at hid
    · exact Or.inl hid
    · cases hid
    · next hsome =>
      split at hid
      · cases hid
      · cases hid
        exact Or.inr (requireTransactionId_truthy hsome)
    · next hsome =>
      cases hid
      exact Or.inr (requireTransactionId_truthy hsome)
  | indexed reader id job raw =>
    have hcases : Resolved m reader id _ (reconcileResolved m reader id job _ : Next cfg.sha256) :=
      reconcileResolved_cases m reader id job (cfg.resolve job.query raw)
    generalize cfg.resolve job.query raw = answer at hcases hid
    generalize (reconcileResolved m reader id job answer : Next cfg.sha256) = next at hcases hid
    cases hcases with
    | quiet hquiet => simp [Frame.quiet_sendsAs hquiet.frame] at hid
    | confirm receipt => cases hid
    | reject code _ => cases hid

theorem identified_keeps : Keeps cfg (fun _ _ ↦ True) (identified cfg) where
  symm _ := trivial
  fresh _ := trivial
  spawn {w p t i m f} _ _ hspawn := by
    refine ⟨trivial, fun transactionId h ↦ ?_, fun _ ↦ trivial⟩
    simp only [spawn] at hspawn
    repeat' split at hspawn
    all_goals cases hspawn
    all_goals cases h
  tick _ _ _ := trivial
  serve {w t p c now fault} hI _ htask := by
    refine ⟨fun id next hnext hstatus ↦ ?_, fun transactionId h ↦ ?_, fun _ ↦ trivial,
      fun _ hu ↦ ⟨hI.task hu, trivial⟩⟩
    · have hchange := serve_change cfg w.shared.store c now fault id
      rw [hnext] at hchange
      generalize hjob : w.shared.store.get id = job at hchange
      generalize hcall : c.call cfg.sha256 = call at hchange
      cases hchange with
      | same => exact hI.shared id next hjob hstatus
      | created => cases hstatus
      | reserved => cases hstatus
      | moved =>
        cases c <;> simp only [StoreFrame.call, reduceCtorEq, StoreCall.transition.injEq] at hcall
        all_goals
          obtain ⟨rfl, rfl, rfl⟩ := hcall
        case walletLost => exact hI.task htask _ rfl
        case walletPending => exact hI.task htask _ rfl
        all_goals cases hstatus
    · have hwaiting : (Frame.waiting c : Frame cfg.sha256).sendsAs = some transactionId := by
        cases c <;> first | exact h | cases h
      exact hI.task htask transactionId hwaiting
  part {w t p f i observations next} hI _ htask hpart := by
    refine ⟨hI.shared, trivial, fun transactionId h ↦ ?_, fun _ ↦ trivial,
      fun _ hu ↦ ⟨hI.task hu, trivial⟩⟩
    rcases hpart.sendsAs h with h | h
    · exact hI.task htask transactionId h
    · exact h

theorem identified_after (es : List (Event ρ)) : (identified cfg).Holds (after cfg es) :=
  identified_keeps.after (fun id job h ↦ by cases h) es fun _ _ ↦ trivial

/-! ## The loop of `start` -/

/-- What `start` makes of a job: it gives up a job that was not marked as submitted, keeps any other, and
schedules the reconciliation of a job that waits for the indexer under a transaction id. -/
structure Handled (s : MemoryStore) (m : Memory) (job : Job) : Prop where
  recovered : job.status.rank ≤ 3 → ∃ next, s.get job.id = some next ∧ next.status = .recoveryRequired
  kept : 3 < job.status.rank → s.get job.id = some job
  scheduled : job.reconcilable → .reconcile job.id ∈ m.timers

/-- The loop of `start` over the jobs of `old` has still to go through the jobs `todo`. -/
structure Loop (old : MemoryStore) (todo : List Job) (s : MemoryStore) (m : Memory) : Prop where
  nodup : todo.Nodup
  subset : ∀ job ∈ todo, job ∈ old.jobs.entries
  untouched : ∀ job ∈ todo, s.get job.id = some job
  handled : ∀ job ∈ old.jobs.entries, job ∉ todo → Handled s m job
  known : ∀ id job, s.get id = some job → ∃ job, old.get id = some job

theorem Status.rank_of_not_recoverable {status : Status} (h : status.recoverable = false) :
    3 < status.rank := by
  cases status <;> simp_all [recoverable, rank]

theorem Job.rank_of_reconcilable {job : Job} (h : job.reconcilable) : 3 < job.status.rank := by
  simp only [reconcilable, Bool.and_eq_true, Bool.or_eq_true, beq_iff_eq] at h
  rcases h.1 with h | h
  · simp [h, Status.rank]
  · simp [h, Status.rank]

theorem Job.recoverable_of_reconcilable {job : Job} (h : job.reconcilable) : job.status.recoverable := by
  simp only [reconcilable, Bool.and_eq_true, Bool.or_eq_true, beq_iff_eq] at h
  rcases h.1 with h | h
  · simp [h, Status.recoverable]
  · simp [h, Status.recoverable]

/-- The loop begins with the recoverable jobs. -/
theorem Loop.start (s : MemoryStore) (m : Memory) : Loop s s.listRecoverable s m where
  nodup := s.jobs.nodup.of_map.filter _
  subset job hjob := (List.mem_filter.mp hjob).1
  untouched job hjob := MemoryStore.get_of_mem (List.mem_filter.mp hjob).1
  handled job hjob hnot := by
    have hrecoverable : job.status.recoverable = false := by
      simpa [MemoryStore.listRecoverable, hjob] using hnot
    have hrank := Status.rank_of_not_recoverable hrecoverable
    refine ⟨fun h ↦ absurd h (by omega), fun _ ↦ MemoryStore.get_of_mem hjob, fun h ↦ ?_⟩
    simp [Job.recoverable_of_reconcilable h] at hrecoverable
  known id job hjob := ⟨job, hjob⟩

/-- The loop goes on to the next job. -/
theorem Loop.step {old s s' : MemoryStore} {m m' : Memory} {job : Job} {rest : List Job}
    (h : Loop old (job :: rest) s m) (hothers : ∀ id, id ≠ job.id → s'.get id = s.get id)
    (hknown : ∀ next, s'.get job.id = some next → ∃ next, s.get job.id = some next)
    (htimers : ∀ timer ∈ m.timers, timer ∈ m'.timers) (hjob : Handled s' m' job) :
    Loop old rest s' m' where
  nodup := (List.nodup_cons.mp h.nodup).2
  subset j hj := h.subset j (List.mem_cons_of_mem _ hj)
  untouched j hj := by
    have hne : j.id ≠ job.id := fun heq ↦ by
      obtain rfl := KeyedList.eq_of_mem (h.subset j (List.mem_cons_of_mem _ hj))
        (h.subset job List.mem_cons_self) heq
      exact (List.nodup_cons.mp h.nodup).1 hj
    rw [hothers _ hne]
    exact h.untouched j (List.mem_cons_of_mem _ hj)
  handled j hj hnot := by
    by_cases heq : j = job
    · rw [heq]
      exact hjob
    · have hne : j.id ≠ job.id := fun hid ↦
        heq (KeyedList.eq_of_mem hj (h.subset job List.mem_cons_self) hid)
      have hold := h.handled j hj (by simp [heq, hnot])
      exact ⟨fun hr ↦ by rw [hothers _ hne]; exact hold.recovered hr,
        fun hr ↦ by rw [hothers _ hne]; exact hold.kept hr, fun hr ↦ htimers _ (hold.scheduled hr)⟩
  known id next hnext := by
    by_cases hid : id = job.id
    · subst hid
      obtain ⟨next', hnext'⟩ := hknown next hnext
      exact h.known _ next' hnext'
    · rw [hothers id hid] at hnext
      exact h.known id next hnext

/-- Where the loop is after a part of `start`. -/
inductive LoopNext (old s : MemoryStore) (next : Next cfg.sha256) : Prop
  | finished (hframe : next.frame = .done .finished) (h : Loop old [] s next.memory)
  | recovers {job : Job} {rest : List Job} (hframe : next.frame = .waiting (.startRecover job.id rest))
      (hjob : job.reconcilable = false) (h : Loop old (job :: rest) s next.memory)

/-- The loop skips the jobs that wait for the indexer. -/
theorem startLoop_next {old s : MemoryStore} {m : Memory} {todo : List Job} (h : Loop old todo s m) :
    LoopNext old s (startLoop m todo : Next cfg.sha256) := by
  induction todo generalizing m with
  | nil => exact .finished rfl h
  | cons job rest ih =>
    rw [startLoop]
    split
    · next hreconcilable =>
      refine ih (h.step (fun _ _ ↦ rfl) (fun next hnext ↦ ⟨next, hnext⟩) ?_ ⟨?_, ?_, ?_⟩)
      · intro timer htimer
        exact List.mem_append_left _ htimer
      · have hrank := Job.rank_of_reconcilable hreconcilable
        intro hr
        omega
      · exact fun _ ↦ h.untouched job List.mem_cons_self
      · exact fun _ ↦ List.mem_append_right _ List.mem_cons_self
    · next hreconcilable => exact .recovers rfl (by simpa using hreconcilable) h

/-- The transition of `start` gives up a job that was not marked as submitted. -/
theorem Loop.recover {old s : MemoryStore} {m : Memory} {job : Job} {rest : List Job} {now : JsString}
    (h : Loop old (job :: rest) s m) (hjob : job.reconcilable = false) {reply : Option Job}
    (hreply : (serve cfg (.startRecover job.id rest) now .none s).1 = .ok reply) :
    Loop old rest (serve cfg (.startRecover job.id rest) now .none s).2 m := by
  have hget := h.untouched job List.mem_cons_self
  have hchange := serve_change cfg s (.startRecover job.id rest) now .none
  refine h.step (fun id hid ↦ ?_) (fun _ _ ↦ ⟨job, hget⟩) (fun _ ht ↦ ht) ⟨fun hrank ↦ ?_, fun hrank ↦ ?_,
    fun hr ↦ by simp [hjob] at hr⟩
  · have hsame := hchange id
    generalize (serve cfg (.startRecover job.id rest) now .none s).2.get id = next at hsame ⊢
    generalize s.get id = old at hsame ⊢
    cases hsame with
    | same => rfl
    | moved => exact absurd rfl hid
  · rcases reply with _ | next
    · have hnull := (MemoryStore.transition_null hreply hget).2
      cases hstatus : job.status <;> simp [hstatus, Status.rank] at hnull hrank
    · obtain ⟨_, _, _, hnext, _⟩ := MemoryStore.transition_reply hreply
      refine ⟨next, MemoryStore.get_transition hreply, ?_⟩
      rw [hnext]
      rfl
  · have hsame := hchange job.id
    rw [hget] at hsame
    generalize (serve cfg (.startRecover job.id rest) now .none s).2.get job.id = next at hsame ⊢
    cases hsame with
    | same => rfl
    | moved hexpected =>
      simp only [List.mem_cons, List.not_mem_nil, or_false] at hexpected
      rcases hexpected with h | h | h | h <;> simp [h, Status.rank] at hrank

/-- How far `start` is. -/
inductive Phase (cfg : Config ρ) (old : MemoryStore) : Frame cfg.sha256 → MemoryStore → Memory → Prop
  | listing (m : Memory) : Phase cfg old (.waiting .startList) old m
  | listed (m : Memory) : Phase cfg old (.ready .startList (.ok old.listRecoverable)) old m
  | recovering {job : Job} {rest : List Job} {s : MemoryStore} {m : Memory}
      (hjob : job.reconcilable = false) (h : Loop old (job :: rest) s m) :
    Phase cfg old (.waiting (.startRecover job.id rest)) s m
  | recovered {id : JsString} {rest : List Job} {reply : Option Job} {s : MemoryStore} {m : Memory}
      (h : Loop old rest s m) : Phase cfg old (.ready (.startRecover id rest) (.ok reply)) s m
  | finished {s : MemoryStore} {m : Memory} (h : Loop old [] s m) :
    Phase cfg old (.done .finished) s m
  | unlisted (e : StoreError) (s : MemoryStore) (m : Memory) :
    Phase cfg old (.ready .startList (.error e)) s m
  | unrecovered (id : JsString) (rest : List Job) (e : StoreError) (s : MemoryStore) (m : Memory) :
    Phase cfg old (.ready (.startRecover id rest) (.error e)) s m
  | threw (e : StoreError) (s : MemoryStore) (m : Memory) : Phase cfg old (.done (.threw e)) s m

theorem LoopNext.phase {old s : MemoryStore} {next : Next cfg.sha256} (h : LoopNext old s next) :
    Phase cfg old next.frame s next.memory := by
  cases h with
  | finished hframe h =>
    rw [hframe]
    exact .finished h
  | recovers hframe hjob h =>
    rw [hframe]
    exact .recovering hjob h

theorem Phase.serve {old s : MemoryStore} {c : StoreFrame} {m : Memory}
    (h : Phase cfg old (.waiting c) s m) (now : JsString) (fault : Fault) :
    Phase cfg old (.ready c (Relayer.serve cfg c now fault s).1) (Relayer.serve cfg c now fault s).2 m := by
  cases h with
  | listing =>
    cases fault with
    | none => exact .listed m
    | replyLost => exact .unlisted _ _ _
    | refused => exact .unlisted _ _ _
  | recovering hjob h =>
    cases fault with
    | none =>
      generalize hreply : (Relayer.serve cfg _ now .none s).1 = reply
      rcases reply with e | reply
      · exact .unrecovered _ _ _ _ _
      · exact .recovered (h.recover hjob hreply)
    | replyLost => exact .unrecovered _ _ _ _ _
    | refused => exact .unrecovered _ _ _ _ _

theorem Phase.part {old s : MemoryStore} {f : Frame cfg.sha256} {m : Memory} {i : Input ρ}
    {observations : List (Observation ρ)} {next : Next cfg.sha256} (h : Phase cfg old f s m)
    (hpart : Part cfg m f i observations next) : Phase cfg old next.frame s next.memory := by
  cases h with
  | listed =>
    cases hpart with
    | resumed => exact (startLoop_next (Loop.start old m)).phase
  | recovered h =>
    cases hpart with
    | resumed => exact (startLoop_next h).phase
  | unlisted =>
    cases hpart with
    | resumed => exact .threw _ _ _
  | unrecovered =>
    cases hpart with
    | resumed => exact .threw _ _ _
  | _ => cases hpart

/-! ## A restart -/

/-- All services have crashed after a run, and a new one runs `start` for the given inputs. -/
def restarted (cfg : Config ρ) (es : List (Event ρ)) (inputs : List (Input ρ)) : World cfg :=
  Tasks.runEvents (service cfg) (Tasks.start (service cfg) (after cfg es).shared)
    (.spawn 0 0 .start :: inputs.map (.advance 0))

def Restarting (old : MemoryStore) (w : World cfg) : Prop :=
  ∃ f, w.tasks 0 = some (0, f) ∧ Phase cfg old f w.shared.store (w.memory 0)

theorem Restarting.step {old : MemoryStore} {w w' : World cfg} {i : Input ρ} (h : Restarting old w)
    (hstep : Tasks.step (service cfg) w (.advance 0 i) = .ok w') : Restarting old w' := by
  obtain ⟨f, htask, hphase⟩ := h
  obtain ⟨p, f', s, m, f'', htask', hadvance, rfl⟩ := Tasks.step_advance hstep
  obtain ⟨rfl, rfl⟩ : p = 0 ∧ f' = f := by
    rw [htask] at htask'
    cases htask'
    exact ⟨rfl, rfl⟩
  refine ⟨f'', by simp, ?_⟩
  simp only [Function.update_self]
  obtain ⟨c, now, fault, rfl, rfl, rfl, rfl, rfl⟩ | ⟨observations, next, hpart, rfl, rfl, rfl⟩ :=
    advance_cases cfg hadvance
  · exact hphase.serve now fault
  · exact hphase.part hpart

theorem restarting (es : List (Event ρ)) (inputs : List (Input ρ)) :
    Restarting (after cfg es).shared.store (restarted cfg es inputs) := by
  induction inputs using List.reverseRecOn with
  | nil => exact ⟨_, rfl, .listing _⟩
  | append_singleton inputs i ih =>
    have hsplit : restarted cfg es (inputs ++ [i]) =
        Execution.apply (Tasks.step (service cfg)) (restarted cfg es inputs) (.advance 0 i) := by
      rw [restarted, List.map_append, ← List.cons_append]
      exact Execution.run_concat _ _ _
    rw [hsplit]
    cases hok : Tasks.step (service cfg) (restarted cfg es inputs) (.advance 0 i) with
    | ok w' =>
      rw [Execution.apply_of_ok hok]
      exact ih.step hok
    | error e =>
      rw [Execution.apply_of_error hok]
      exact ih

/-- A job that no service has to be asked about: it has one of its last statuses, or a reconciliation is
scheduled for it. -/
def Job.OwnedBy (job : Job) (m : Memory) : Prop :=
  job.status.terminal ∨ job.reconcilable ∧ .reconcile job.id ∈ m.timers

theorem Loop.owns {old s : MemoryStore} {m : Memory} (h : Loop old [] s m)
    (hidentified : ∀ id job, old.get id = some job → job.status = .indexerPending →
      truthy job.transactionId) :
    (∀ job ∈ s.jobs.entries, job.OwnedBy m) ↔
      ∀ job ∈ old.jobs.entries, job.status = .submitted → truthy job.transactionId := by
  constructor
  · intro howned job hjob hstatus
    have hget := (h.handled job hjob List.not_mem_nil).kept (by simp [hstatus, Status.rank])
    rcases howned job (MemoryStore.mem_of_get hget) with hterminal | ⟨hreconcilable, _⟩
    · simp [hstatus, Status.terminal] at hterminal
    · simp only [Job.reconcilable, Bool.and_eq_true] at hreconcilable
      exact hreconcilable.2
  · intro hsubmitted next hnext
    obtain ⟨job, hjob⟩ := h.known next.id next (MemoryStore.get_of_mem hnext)
    have hid := MemoryStore.id_of_get hjob
    have hhandled := h.handled job (MemoryStore.mem_of_get hjob) List.not_mem_nil
    by_cases hrank : job.status.rank ≤ 3
    · obtain ⟨next', hnext', hstatus⟩ := hhandled.recovered hrank
      rw [hid, MemoryStore.get_of_mem hnext] at hnext'
      cases hnext'
      exact Or.inl (by simp [hstatus, Status.terminal])
    · have hkept := hhandled.kept (by omega)
      rw [hid, MemoryStore.get_of_mem hnext] at hkept
      cases hkept
      have hreconciles : truthy next.transactionId →
          (next.status = .submitted ∨ next.status = .indexerPending) → next.OwnedBy m := by
        intro htruthy hstatus
        have hreconcilable : next.reconcilable := by
          simpa [Job.reconcilable, htruthy] using hstatus
        exact Or.inr ⟨hreconcilable, hhandled.scheduled hreconcilable⟩
      cases hstatus : next.status with
      | submitted =>
        exact hreconciles (hsubmitted next (MemoryStore.mem_of_get hjob) hstatus) (Or.inl hstatus)
      | indexerPending => exact hreconciles (hidentified _ next hjob hstatus) (Or.inr hstatus)
      | confirmed => exact Or.inl (by rw [hstatus]; rfl)
      | failed => exact Or.inl (by rw [hstatus]; rfl)
      | recoveryRequired => exact Or.inl (by rw [hstatus]; rfl)
      | _ => simp [hstatus, Status.rank] at hrank

/-- **Restarts.** After any run of any number of services, a restart that finishes `start` leaves every
job owned exactly if no job of the store was submitted without a transaction id. -/
theorem restart_owns_every_job (cfg : Config ρ) (es : List (Event ρ)) (inputs : List (Input ρ))
    {p : ℕ} {f : Frame cfg.sha256} (htask : (restarted cfg es inputs).tasks 0 = some (p, f))
    (hfinished : f.outcome = some .finished) :
    (∀ job ∈ (restarted cfg es inputs).shared.store.jobs.entries,
        job.OwnedBy ((restarted cfg es inputs).memory 0)) ↔
      ∀ job ∈ (after cfg es).shared.store.jobs.entries,
        job.status = .submitted → truthy job.transactionId := by
  have hrestarting : Restarting (after cfg es).shared.store (restarted cfg es inputs) :=
    restarting es inputs
  obtain ⟨f', htask', hphase⟩ := hrestarting
  rw [htask] at htask'
  cases htask'
  generalize (restarted cfg es inputs).shared.store = s at hphase ⊢
  generalize (restarted cfg es inputs).memory 0 = m at hphase ⊢
  cases hphase with
  | finished h => exact h.owns (identified_after es).shared
  | _ => cases hfinished

/-! ## Sample runs -/

/-- Two jobs are accepted, and the first is submitted without a derived id before its services crash. -/
def unidentifiedRun : List SampleEvent :=
  sampleAccepts 0 0 (sampleAccept "aaaa") ++ sampleAccepts 0 1 (sampleAccept "bbbb") ++
    sampleReserves 0 2 ++ .advance 2 (.balanced (.ok (js "ff", none))) :: sampleCalls 2 2

/-- The same run with a derived id. -/
def identifiedRun : List SampleEvent :=
  sampleAccepts 0 0 (sampleAccept "aaaa") ++ sampleAccepts 0 1 (sampleAccept "bbbb") ++
    sampleReserves 0 2 ++ .advance 2 (.balanced (.ok (js "ff", some (js "t1")))) :: sampleCalls 2 2

/-- The inputs of `start` for a store with `n` jobs to give up. -/
def startInputs (n : ℕ) : List (Input (Option CanonicalReceipt)) :=
  (List.replicate (n + 1) [.serve (js "now") .none, .resume (js "u")]).flatten

theorem restart_owns_every_job_sample :
    (∀ job ∈ (restarted sampleConfig identifiedRun (startInputs 1)).shared.store.jobs.entries,
        job.OwnedBy ((restarted sampleConfig identifiedRun (startInputs 1)).memory 0)) ↔
      ∀ job ∈ (after sampleConfig identifiedRun).shared.store.jobs.entries,
        job.status = .submitted → truthy job.transactionId := by
  have hdone : ((restarted sampleConfig identifiedRun (startInputs 1)).tasks 0).map
      (fun task ↦ task.2.outcome) = some (some .finished) := by
    decide +kernel
  obtain ⟨⟨p, f⟩, htask, hfinished⟩ := Option.map_eq_some_iff.mp hdone
  generalize identifiedRun = es at htask ⊢
  generalize startInputs 1 = inputs at htask ⊢
  exact restart_owns_every_job sampleConfig es inputs htask hfinished

/-- A job that was submitted without a derived id keeps the DUST lease after the restart: it has no
transaction id to reconcile, and nothing is scheduled for it. -/
theorem restart_leaves_a_dead_job :
    ((restarted sampleConfig unidentifiedRun (startInputs 2)).tasks 0).map
        (fun task ↦ task.2.outcome) = some (some .finished) ∧
      (restarted sampleConfig unidentifiedRun (startInputs 2)).shared.store.jobs.entries.map
        (fun job ↦ (job.status, job.transactionId)) =
          [(.submitted, none), (.recoveryRequired, none)] ∧
      ((restarted sampleConfig unidentifiedRun (startInputs 2)).memory 0).timers = [] := by
  decide +kernel

end MidnightReferendum.Relayer
