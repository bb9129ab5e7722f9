import MidnightReferendum.Relayer.Bytes
import MidnightReferendum.Relayer.Wallet

/-!
# Capabilities

When a wallet operation works on a job only after the capability of the job has been consumed.
-/

namespace MidnightReferendum.Relayer

open Js

variable {ρ : Type} {cfg : Config ρ}

/-- A capability has been consumed. -/
def Consumed (s : MemoryStore) (digest : JsString) : Prop :=
  ∃ reservation, s.capabilities.get? digest = some reservation

/-- The capability recorded in a job has been consumed. -/
def Cleared (s : MemoryStore) (id : JsString) : Prop :=
  ∃ job, s.get id = some job ∧ Consumed s job.capabilityDigest

/-- The store has a job of the same id and capability. -/
def Digested (s : MemoryStore) (existing : Job) : Prop :=
  ∃ job, s.get existing.id = some job ∧ job.capabilityDigest = existing.capabilityDigest

section Grows

variable {s s' : MemoryStore} (h : s.Grows s')

include h

theorem Consumed.grows {digest : JsString} (hdigest : Consumed s digest) : Consumed s' digest := by
  obtain ⟨reservation, hreservation⟩ := hdigest
  exact ⟨reservation, h.capabilities hreservation⟩

theorem Cleared.grows {id : JsString} (hid : Cleared s id) : Cleared s' id := by
  obtain ⟨job, hjob, hconsumed⟩ := hid
  obtain ⟨next, hnext, hsame, _⟩ := h.rank_le hjob
  exact ⟨next, hnext, by rw [hsame.capabilityDigest]; exact hconsumed.grows h⟩

theorem Digested.grows {existing : Job} (hexisting : Digested s existing) : Digested s' existing := by
  obtain ⟨job, hjob, hdigest⟩ := hexisting
  obtain ⟨next, hnext, hsame, _⟩ := h.rank_le hjob
  exact ⟨next, hnext, hsame.capabilityDigest.trans hdigest⟩

end Grows

theorem Digested.cleared {s : MemoryStore} {existing : Job} (h : Digested s existing)
    (hconsumed : Consumed s existing.capabilityDigest) : Cleared s existing.id := by
  obtain ⟨job, hjob, hdigest⟩ := h
  exact ⟨job, hjob, by rw [hdigest]; exact hconsumed⟩

/-! ## Frames -/

/-- The answer about the idempotency key lets a call of `accept` go on. -/
def AcceptCall.agrees (sha256 : JsString → JsString) (a : AcceptCall) (byKey : Option Job) : Bool :=
  !byKey.any fun job ↦
    job.requestHash ≠ a.requestHash sha256 || job.capabilityDigest ≠ a.capabilityDigest

section Frames

variable {sha256 : JsString → JsString}

/-- A call of `accept` with its job, and whether it has made sure that they share the capability. -/
def Frame.matching : Frame sha256 → Option (AcceptCall × Job × Bool)
  | .waiting (.acceptByKey a existing created) | .ready (.acceptByKey a existing created) _ =>
    some (a, existing, created)
  | .waiting (.acceptConsume a existing) | .ready (.acceptConsume a existing) _ =>
    some (a, existing, true)
  | .waiting (.acceptReconsume a existing) | .ready (.acceptReconsume a existing) _ =>
    some (a, existing, true)
  | _ => none

/-- The job that `createOrGet` has returned to a call of `accept`. -/
def Frame.answered : Frame sha256 → Option (AcceptCall × Job × Bool)
  | .ready (.acceptCreate a) (.ok (existing, created)) => some (a, existing, created)
  | _ => none

/-- A call of `accept` that has consumed its capability, or has found it consumed. -/
def Frame.consumed : Frame sha256 → Option AcceptCall
  | .ready (.acceptConsume a _) (.ok true) => some a
  | .ready (.acceptReconsume a _) (.ok _) => some a
  | _ => none

/-- A call of `accept` that starts a job under another capability than its own. -/
def Frame.startsOther : Frame sha256 → Option Job
  | .ready (.acceptByKey a existing false) (.ok byKey) =>
    if a.agrees sha256 byKey ∧ existing.capabilityDigest ≠ a.capabilityDigest then some existing else none
  | _ => none

/-- The job of a wallet operation that has not reserved the lease yet. -/
def Frame.opening : Frame sha256 → Option JsString
  | .waiting (.walletRead id) | .ready (.walletRead id) _ => some id
  | .waiting (.walletValidate id _) | .ready (.walletValidate id _) _ => some id
  | .waiting (.walletReserve id _ _) | .ready (.walletReserve id _ _) _ => some id
  | _ => none

/-- The jobs that a service has still to work on. -/
def Memory.queued (m : Memory) (id : JsString) : Prop := id ∈ m.walletTail ∨ .run id ∈ m.timers

theorem Memory.queued_of_scheduleReconcile {m : Memory} {id id' : JsString}
    (h : (m.scheduleReconcile id').queued id) : m.queued id :=
  h.imp_right fun h ↦ by simpa [scheduleReconcile] using h

/-- How a part of a method puts a job in the queue, and what the frames after it know. -/
structure Queues (m : Memory) (f : Frame sha256) (next : Next sha256) : Prop where
  queued : ∀ id, next.memory.queued id → m.queued id ∨ f.opening = some id ∨
    ∃ existing, existing.id = id ∧ existing.status = .authorized ∧
      ((∃ a, f.consumed = some a ∧ f.matching = some (a, existing, true)) ∨
        f.startsOther = some existing)
  opening : ∀ id, next.frame.opening = some id → f.opening = some id
  matching : ∀ a existing same, next.frame.matching = some (a, existing, same) →
    (∃ same', f.matching = some (a, existing, same') ∧
      (same → same' ∨ existing.capabilityDigest = a.capabilityDigest)) ∨
    f.answered = some (a, existing, same)

theorem Frame.quiet_queues {f : Frame sha256} (h : f.quiet) :
    f.opening = none ∧ f.matching = none := by
  unfold Frame.quiet at h
  split at h
  all_goals first
    | exact ⟨rfl, rfl⟩
    | cases h

theorem Next.Quiet.queues {m : Memory} {next : Next sha256} (h : next.Quiet m) (f : Frame sha256) :
    Queues m f next where
  queued id hid := Or.inl (hid.imp (fun hmem ↦ by rwa [h.walletTail] at hmem) h.run)
  opening id hid := by simp [(Frame.quiet_queues h.frame).1] at hid
  matching a existing same heq := by simp [(Frame.quiet_queues h.frame).2] at heq

/-- A part of a method that ends without a change of the queue. -/
theorem queues_done {m m' : Memory} {f : Frame sha256} {outcome : Outcome}
    (h : ∀ id, m'.queued id → m.queued id) : Queues m f ⟨m', .done outcome, []⟩ where
  queued id hid := Or.inl (h id hid)
  opening id hid := by cases hid
  matching a existing same heq := by cases heq

/-- A part of a method that awaits the executor or the indexer. -/
theorem queues_external {m m' : Memory} {f : Frame sha256} {x : ExternalFrame}
    {calls : List ExecutorCall} (h : ∀ id, m'.queued id → m.queued id) :
    Queues m f ⟨m', .external x, calls⟩ where
  queued id hid := Or.inl (h id hid)
  opening id hid := by cases hid
  matching a existing same heq := by cases heq

/-- The end of `accept` puts its job in the queue only when it has found the job `authorized`. -/
theorem accepted_queued (m : Memory) (a : AcceptCall) (existing : Job) (created : Bool) {id : JsString}
    (h : (accepted m a existing created : Next sha256).memory.queued id) :
    m.queued id ∨ existing.id = id ∧ existing.status = .authorized := by
  have hset : (if existing.status = .authorized ∨ created then
      m.setTransient existing.id (some ⟨a.request.tx, none⟩) else m).queued id ↔ m.queued id := by
    split
    · rfl
    · rfl
  simp only [accepted, memory_finish] at h
  generalize (if existing.status = .authorized ∨ created then
      m.setTransient existing.id (some ⟨a.request.tx, none⟩) else m) = m' at h hset
  rw [← hset]
  split at h
  · next hstart =>
    rcases h with h | h
    · rcases List.mem_append.mp h with h | h
      · exact Or.inl (Or.inl h)
      · exact Or.inr ⟨(List.mem_singleton.mp h).symm, hstart.1⟩
    · exact Or.inl (Or.inr h)
  · split at h
    · refine Or.inl (h.imp_right fun h ↦ ?_)
      simpa [Memory.scheduleReconcile] using h
    · exact Or.inl h

theorem queues_accepted {f : Frame sha256} (m : Memory) (a : AcceptCall) (existing : Job)
    (created : Bool) (h : (f.consumed = some a ∧ f.matching = some (a, existing, true)) ∨
      f.startsOther = some existing) : Queues m f (accepted m a existing created) where
  queued id hid := by
    rcases accepted_queued m a existing created hid with hold | ⟨hexisting, hstatus⟩
    · exact Or.inl hold
    · exact Or.inr (Or.inr ⟨existing, hexisting, hstatus, h.imp_left fun h ↦ ⟨a, h⟩⟩)
  opening id hid := by cases hid
  matching a existing same heq := by cases heq

/-- A part of a method that awaits the store. -/
theorem queues_await {m m' : Memory} {f : Frame sha256} {c : StoreFrame}
    (hqueued : ∀ id, m'.queued id → m.queued id)
    (hopening : ∀ id, (Frame.waiting c : Frame sha256).opening = some id → f.opening = some id)
    (hmatching : ∀ a existing same, (Frame.waiting c : Frame sha256).matching = some (a, existing, same) →
      (∃ same', f.matching = some (a, existing, same') ∧
        (same → same' ∨ existing.capabilityDigest = a.capabilityDigest)) ∨
      f.answered = some (a, existing, same)) : Queues m f ⟨m', .waiting c, []⟩ where
  queued id hid := Or.inl (hqueued id hid)
  opening := hopening
  matching := hmatching

theorem queues_acceptCreate (m : Memory) (uuid : JsString) (a : AcceptCall)
    (reply : Except StoreError ((StoreFrame.acceptCreate a).call sha256).Answer) :
    Queues m (.ready (.acceptCreate a) reply) (resume m uuid (.acceptCreate a) reply) := by
  simp only [resume, acceptCreated]
  repeat' split
  · exact queues_done fun _ h ↦ h
  · exact queues_done fun _ h ↦ h
  · exact queues_done fun _ h ↦ h
  · refine queues_await (fun _ h ↦ h) (fun _ h ↦ by cases h) fun _ _ _ h ↦ Or.inr ?_
    rw [← h]
    rfl

theorem queues_acceptByKey (m : Memory) (uuid : JsString) (a : AcceptCall) (existing : Job) (created : Bool)
    (reply : Except StoreError ((StoreFrame.acceptByKey a existing created).call sha256).Answer) :
    Queues m (.ready (.acceptByKey a existing created) reply) (resume m uuid (.acceptByKey a existing created) reply) := by
  rcases reply with e | byKey
  · exact queues_done fun _ h ↦ h
  · simp only [resume, acceptFoundByKey]
    split
    · exact queues_done fun _ h ↦ h
    · next hagrees =>
      split
      · next hcreated =>
        refine queues_await (fun _ h ↦ h) (fun _ h ↦ by cases h) ?_
        rintro _ _ _ ⟨⟩
        exact Or.inl ⟨created, rfl, fun _ ↦ Or.inl hcreated⟩
      · next hcreated =>
        split
        · next hdigest =>
          refine queues_await (fun _ h ↦ h) (fun _ h ↦ by cases h) ?_
          rintro _ _ _ ⟨⟩
          exact Or.inl ⟨created, rfl, fun _ ↦ Or.inr hdigest⟩
        · next hdigest =>
          obtain rfl : created = false := by simpa using hcreated
          refine queues_accepted m a existing false (Or.inr ?_)
          rw [Frame.startsOther, if_pos ⟨by simpa [AcceptCall.agrees] using hagrees, hdigest⟩]

theorem queues_acceptConsume (m : Memory) (uuid : JsString) (a : AcceptCall) (existing : Job)
    (reply : Except StoreError ((StoreFrame.acceptConsume a existing).call sha256).Answer) :
    Queues m (.ready (.acceptConsume a existing) reply) (resume m uuid (.acceptConsume a existing) reply) := by
  simp only [resume, acceptConsumed]
  split
  · exact queues_done fun _ h ↦ h
  · exact queues_await (fun _ h ↦ h) (fun _ h ↦ by cases h) fun _ _ _ h ↦ by cases h
  · exact queues_accepted m a existing true (Or.inl ⟨rfl, rfl⟩)

theorem queues_acceptReconsume (m : Memory) (uuid : JsString) (a : AcceptCall) (existing : Job)
    (reply : Except StoreError ((StoreFrame.acceptReconsume a existing).call sha256).Answer) :
    Queues m (.ready (.acceptReconsume a existing) reply) (resume m uuid (.acceptReconsume a existing) reply) := by
  rcases reply with e | _
  · exact queues_done fun _ h ↦ h
  · exact queues_accepted m a existing false (Or.inl ⟨rfl, rfl⟩)

theorem queues_walletRead (m : Memory) (uuid : JsString) (id : JsString)
    (reply : Except StoreError ((StoreFrame.walletRead id).call sha256).Answer) :
    Queues m (.ready (.walletRead id) reply) (resume m uuid (.walletRead id) reply) := by
  simp only [resume, walletFound]
  repeat' split
  · exact queues_done fun _ h ↦ h
  · exact queues_await (fun _ h ↦ h) (fun _ h ↦ h) fun _ _ _ h ↦ by cases h
  · exact queues_done fun _ h ↦ h
  · exact queues_done fun _ h ↦ h

theorem queues_walletValidate (m : Memory) (uuid : JsString) (id : JsString) (pending : Transient)
    (reply : Except StoreError ((StoreFrame.walletValidate id pending).call sha256).Answer) :
    Queues m (.ready (.walletValidate id pending) reply) (resume m uuid (.walletValidate id pending) reply) := by
  rcases reply with e | _ | job
  · exact queues_done fun _ h ↦ h
  · exact queues_done fun _ h ↦ h
  · exact queues_await (fun _ h ↦ h) (fun _ h ↦ h) fun _ _ _ h ↦ by cases h

theorem queues_walletReserve (m : Memory) (uuid : JsString) (id : JsString) (pending : Transient)
    (reservationId : JsString)
    (reply : Except StoreError ((StoreFrame.walletReserve id pending reservationId).call sha256).Answer) :
    Queues m (.ready (.walletReserve id pending reservationId) reply)
      (resume m uuid (.walletReserve id pending reservationId) reply) := by
  rcases reply with e | _ | job
  · exact queues_done fun _ h ↦ h
  · constructor
    · intro id' hid
      rcases hid with hid | hid
      · exact Or.inl (Or.inl hid)
      · rcases List.mem_append.mp hid with hid | hid
        · exact Or.inl (Or.inr hid)
        · obtain ⟨⟩ := List.mem_singleton.mp hid
          exact Or.inr (Or.inl rfl)
    · intro id' hid
      cases hid
    · intro _ _ _ heq
      cases heq
  · exact queues_external fun _ h ↦ h

theorem resume_queues (m : Memory) (uuid : JsString) (c : StoreFrame)
    (reply : Except StoreError (c.call sha256).Answer) :
    Queues m (.ready c reply) (resume m uuid c reply) := by
  cases hc : c.loud with
  | false => exact (resume_quiet m hc uuid reply).queues _
  | true =>
    cases c <;> try cases hc
    case true.acceptCreate a => exact queues_acceptCreate m uuid a reply
    case true.acceptByKey a existing created => exact queues_acceptByKey m uuid a existing created reply
    case true.acceptConsume a existing => exact queues_acceptConsume m uuid a existing reply
    case true.acceptReplayed a existing =>
      rcases reply with e | _
      · exact queues_done fun _ h ↦ h
      · exact queues_done fun _ h ↦ h
    case true.acceptReconsume a existing => exact queues_acceptReconsume m uuid a existing reply
    case true.walletRead id => exact queues_walletRead m uuid id reply
    case true.walletValidate id pending => exact queues_walletValidate m uuid id pending reply
    case true.walletReserve id pending reservationId => exact queues_walletReserve m uuid id pending reservationId reply
    case true.walletIntent id finalized derivedId =>
      rcases reply with e | _ | job
      · exact queues_done fun _ h ↦ h
      · exact queues_done fun _ h ↦ h
      · exact queues_external fun _ h ↦ h
    case true.walletFinalize id finalized derivedId =>
      rcases reply with e | _
      · exact queues_done fun _ h ↦ h
      · exact queues_await (fun _ h ↦ h) (fun _ h ↦ by cases h) fun _ _ _ h ↦ by cases h
    case true.walletLost id derivedId =>
      rcases reply with e | _
      · exact queues_done fun _ h ↦ h
      · exact queues_done fun _ h ↦ Memory.queued_of_scheduleReconcile h
    case true.walletPending id transactionId =>
      rcases reply with e | _
      · exact queues_done fun _ h ↦ h
      · exact queues_done fun _ h ↦ Memory.queued_of_scheduleReconcile h
    all_goals
      rcases reply with e | _
      · exact queues_done fun _ h ↦ h
      · exact queues_done fun _ h ↦ h

theorem Part.queues {m : Memory} {f : Frame cfg.sha256} {i : Input ρ}
    {observations : List (Observation ρ)} {next : Next cfg.sha256}
    (h : Part cfg m f i observations next) : Queues m f next := by
  cases h with
  | resumed c reply uuid => exact resume_queues m uuid c reply
  | balanced id pending result =>
    rcases result with _ | ⟨finalized, derivedId⟩
    · exact queues_await (fun _ h ↦ h) (fun _ h ↦ by cases h) fun _ _ _ h ↦ by cases h
    · exact queues_await (fun _ h ↦ h) (fun _ h ↦ by cases h) fun _ _ _ h ↦ by cases h
  | submitted id finalized derivedId result =>
    simp only [walletSubmitted]
    repeat' split
    all_goals exact queues_await (fun _ h ↦ h) (fun _ h ↦ by cases h) fun _ _ _ h ↦ by cases h
  | indexed reader id job raw =>
    have hcases : Resolved m reader id _ (reconcileResolved m reader id job _ : Next cfg.sha256) :=
      reconcileResolved_cases m reader id job (cfg.resolve job.query raw)
    generalize cfg.resolve job.query raw = answer at hcases ⊢
    generalize (reconcileResolved m reader id job answer : Next cfg.sha256) = next at hcases ⊢
    cases hcases with
    | quiet hquiet => exact hquiet.queues _
    | confirm receipt =>
      exact queues_await (fun _ h ↦ h) (fun _ h ↦ by cases h) fun _ _ _ h ↦ by cases h
    | reject code _ =>
      exact queues_await (fun _ h ↦ h) (fun _ h ↦ by cases h) fun _ _ _ h ↦ by cases h

end Frames

/-! ## The invariant of the capabilities -/

/-- A step that does not start an `authorized` job under another capability than its own before its own
has been consumed. -/
def StartStep (w : World cfg) (e : Event ρ) : Prop :=
  ∀ t p f uuid existing, e = .advance t (.resume uuid) → w.tasks t = some (p, f) →
    f.startsOther = some existing → existing.status = .authorized →
    Consumed w.shared.store existing.capabilityDigest

structure ClearedTask (s : MemoryStore) (f : Frame cfg.sha256) : Prop where
  opening : ∀ id, f.opening = some id → Cleared s id
  matching : ∀ a existing same, f.matching = some (a, existing, same) ∨
    f.answered = some (a, existing, same) →
    Digested s existing ∧ (same → existing.capabilityDigest = a.capabilityDigest)
  consumed : ∀ a, f.consumed = some a → Consumed s a.capabilityDigest

def cleared (cfg : Config ρ) : Invariant cfg where
  shared _ := True
  memory s m := ∀ id, m.queued id → Cleared s.store id
  task s f := ClearedTask s.store f
  apart _ _ := True

theorem ClearedTask.grows {s s' : MemoryStore} (h : s.Grows s') {f : Frame cfg.sha256}
    (hf : ClearedTask s f) : ClearedTask s' f where
  opening id hid := (hf.opening id hid).grows h
  matching a existing same heq := (hf.matching a existing same heq).imp_left (Digested.grows h)
  consumed a ha := (hf.consumed a ha).grows h

/-- After a call of `consumeCapability` the capability is consumed, whatever the call returns. -/
theorem consumed_consumeCapability (s : MemoryStore) (reservation : Reservation) :
    Consumed (s.consumeCapability reservation).2 reservation.digest := by
  unfold MemoryStore.consumeCapability
  split
  · next old hold => exact ⟨old, hold⟩
  · exact ⟨reservation, KeyedList.get?_set_self s.capabilities reservation⟩

section Serve

variable {s : MemoryStore} {c : StoreFrame} {now : JsString} {fault : Fault}

theorem answered_serve {a : AcceptCall} {existing : Job} {same : Bool}
    (h : (Frame.ready c (serve cfg c now fault s).1 : Frame cfg.sha256).answered =
      some (a, existing, same)) : Digested (serve cfg c now fault s).2 existing ∧
        (same → existing.capabilityDigest = a.capabilityDigest) := by
  generalize hreply : (serve cfg c now fault s).1 = reply at h
  cases c <;> try cases h
  rcases reply with e | ⟨existing', created⟩ <;> cases h
  obtain rfl := fault_of_ok hreply
  refine ⟨⟨existing, MemoryStore.get_createOrGet hreply, rfl⟩, fun hsame ↦ ?_⟩
  rcases MemoryStore.createOrGet_reply hreply with ⟨hcreated, _⟩ | ⟨_, _, _, hjob, _⟩
  · simp [hcreated] at hsame
  · rw [hjob]
    rfl

theorem consumed_serve {a : AcceptCall}
    (h : (Frame.ready c (serve cfg c now fault s).1 : Frame cfg.sha256).consumed = some a) :
    Consumed (serve cfg c now fault s).2 a.capabilityDigest := by
  generalize hreply : (serve cfg c now fault s).1 = reply at h
  cases c <;> try cases h
  case acceptConsume a' existing =>
    rcases reply with e | _ | _ <;> cases h
    obtain rfl := fault_of_ok hreply
    exact consumed_consumeCapability s (a.capabilityReservation cfg.sha256)
  case acceptReconsume a' existing =>
    rcases reply with e | consumed <;> cases h
    obtain rfl := fault_of_ok hreply
    exact consumed_consumeCapability s (a.capabilityReservation cfg.sha256)

end Serve

theorem ClearedTask.serve {s : MemoryStore} {c : StoreFrame}
    (h : ClearedTask s (.waiting c : Frame cfg.sha256)) (now : JsString) (fault : Fault) :
    ClearedTask (serve cfg c now fault s).2
      (.ready c (serve cfg c now fault s).1 : Frame cfg.sha256) := by
  have hgrows := MemoryStore.serve_grows (s := s) cfg c now fault
  constructor
  · intro id hid
    have hwaiting : (Frame.waiting c : Frame cfg.sha256).opening = some id := by
      rw [← hid]
      cases c <;> rfl
    exact (h.opening id hwaiting).grows hgrows
  · rintro a existing same (heq | heq)
    · have hwaiting : (Frame.waiting c : Frame cfg.sha256).matching = some (a, existing, same) := by
        rw [← heq]
        cases c <;> rfl
      exact (h.matching a existing same (Or.inl hwaiting)).imp_left (Digested.grows hgrows)
    · exact answered_serve heq
  · exact fun a ha ↦ consumed_serve ha

theorem spawn_queued {i : Input ρ} {m m' : Memory} {f : Frame cfg.sha256}
    (h : spawn cfg i m = some (m', f)) : (∀ id, m'.queued id → m.queued id) ∧
      (∀ id, f.opening = some id → m.queued id) ∧
      f.matching = none ∧ f.answered = none ∧ f.consumed = none := by
  cases i <;> simp only [spawn, reduceCtorEq] at h
  case fireReconcile id =>
    split at h
    · cases h
      refine ⟨fun _ hid ↦ hid.imp_right List.mem_of_mem_erase, ?_, rfl, rfl, rfl⟩
      intro _ h
      cases h
    · cases h
  case dequeue =>
    split at h
    · next id rest _ htail =>
      cases h
      refine ⟨fun _ hid ↦ hid.imp_left fun h ↦ ?_, fun _ hid ↦ ?_, rfl, rfl, rfl⟩
      · rw [htail]
        exact List.mem_cons_of_mem _ h
      · cases hid
        exact Or.inl (by rw [htail]; exact List.mem_cons_self)
    · cases h
  all_goals
    cases h
    refine ⟨fun _ h ↦ h, ?_, rfl, rfl, rfl⟩
    intro _ h
    cases h

theorem tick_queued {i : Input ρ} {m m' : Memory} (h : tick i m = some m') {id : JsString}
    (hid : m'.queued id) : m.queued id := by
  cases i <;> simp only [tick, reduceCtorEq] at h
  case fireRun id' =>
    split at h
    · next hmem =>
      cases h
      split at hid
      · exact hid.imp_right List.mem_of_mem_erase
      · rcases hid with hid | hid
        · rcases List.mem_append.mp hid with hid | hid
          · exact Or.inl hid
          · obtain rfl := List.mem_singleton.mp hid
            exact Or.inr hmem
        · exact Or.inr (List.mem_of_mem_erase hid)
    · cases h
  case settle id' =>
    split at h
    · cases h
      exact hid
    · cases h

theorem Frame.of_startsOther {f : Frame cfg.sha256} {existing : Job}
    (h : f.startsOther = some existing) :
    ∃ a reply, f = .ready (.acceptByKey a existing false) reply := by
  unfold Frame.startsOther at h
  split at h
  · split at h
    · cases h
      exact ⟨_, _, rfl⟩
    · cases h
  · cases h

theorem Frame.of_not_replied {f : Frame cfg.sha256} (h : f.replied = false) :
    f.answered = none ∧ f.consumed = none := by
  cases f with
  | ready c reply => cases h
  | _ => exact ⟨rfl, rfl⟩

theorem cleared_keeps : Keeps cfg StartStep (cleared cfg) where
  symm _ := trivial
  fresh _ id hid := by
    rcases hid with hid | hid <;> cases hid
  spawn {w p t i m f} hI _ hspawn := by
    obtain ⟨hm, hopening, hmatching, hanswered, hconsumed⟩ := spawn_queued hspawn
    refine ⟨fun id hid ↦ hI.memory p id (hm id hid), ⟨?_, ?_, ?_⟩, fun _ ↦ trivial⟩
    · exact fun id hid ↦ hI.memory p id (hopening id hid)
    · rintro a existing same (h | h)
      · simp [hmatching] at h
      · simp [hanswered] at h
    · intro a h
      simp [hconsumed] at h
  tick {w p i m} hI _ htick := by
    exact fun id hid ↦ hI.memory p id (tick_queued htick hid)
  serve {w t p c now fault} hI _ htask := by
    have hgrows := MemoryStore.serve_grows (s := w.shared.store) cfg c now fault
    have hc : ClearedTask w.shared.store (.waiting c : Frame cfg.sha256) := hI.task htask
    exact ⟨trivial, hc.serve now fault, fun h id hid ↦ (h id hid).grows hgrows,
      fun _ hu ↦ ⟨ClearedTask.grows hgrows (hI.task hu), trivial⟩⟩
  part {w t p f i observations next} hI hstart htask hpart := by
    have hqueues := hpart.queues
    have hf : ClearedTask w.shared.store f := hI.task htask
    have hm : ∀ id, (w.memory p).queued id → Cleared w.shared.store id := hI.memory p
    refine ⟨trivial, fun id hid ↦ ?_, ⟨fun id hid ↦ hf.opening id (hqueues.opening id hid), ?_, ?_⟩,
      fun h ↦ h, fun _ hu ↦ ⟨hI.task hu, trivial⟩⟩
    · obtain hid | hid | ⟨existing, rfl, hstatus, ⟨a, hconsumed, hmatching⟩ | hother⟩ :=
        hqueues.queued id hid
      · exact hm id hid
      · exact hf.opening id hid
      · obtain ⟨hdigested, hsame⟩ := hf.matching a existing true (Or.inl hmatching)
        refine hdigested.cleared ?_
        rw [hsame rfl]
        exact hf.consumed a hconsumed
      · obtain ⟨a, reply, rfl⟩ := Frame.of_startsOther hother
        obtain ⟨hdigested, _⟩ := hf.matching a existing false (Or.inl rfl)
        cases hpart with
        | resumed _ _ uuid => exact hdigested.cleared (hstart t p _ uuid existing rfl htask hother hstatus)
    · rintro a existing same (heq | heq)
      · rcases hqueues.matching a existing same heq with ⟨same', hold, hsame⟩ | hold
        · obtain ⟨hdigested, hold⟩ := hf.matching a existing same' (Or.inl hold)
          exact ⟨hdigested, fun h ↦ (hsame h).elim hold id⟩
        · exact hf.matching a existing same (Or.inr hold)
      · simp [(Frame.of_not_replied hpart.replied).1] at heq
    · intro a heq
      simp [(Frame.of_not_replied hpart.replied).2] at heq

/-! ## One job for each capability -/

/-- Every consumed capability belongs to a job with the request hash of its reservation. -/
def assigned (cfg : Config ρ) : Invariant cfg where
  shared s := ∀ digest reservation, s.store.capabilities.get? digest = some reservation →
    ∃ id job, s.store.get id = some job ∧ job.requestHash = reservation.requestHash
  memory _ _ := True
  task _ _ := True
  apart _ _ := True

theorem call_consumeCapability {c : StoreFrame} {reservation : Reservation}
    (h : c.call cfg.sha256 = .consumeCapability reservation) : ∃ a existing,
      reservation = a.capabilityReservation cfg.sha256 ∧
      (Frame.waiting c : Frame cfg.sha256).accepting = some (a, existing) := by
  cases c <;> simp only [StoreFrame.call, reduceCtorEq, StoreCall.consumeCapability.injEq] at h
  · exact ⟨_, _, h.symm, rfl⟩
  · exact ⟨_, _, h.symm, rfl⟩

theorem assigned_keeps : Keeps cfg (fun w _ ↦ (bytes cfg).Holds w) (assigned cfg) where
  symm _ := trivial
  fresh _ := trivial
  spawn _ _ _ := ⟨trivial, trivial, fun _ ↦ trivial⟩
  tick _ _ _ := trivial
  serve {w t p c now fault} hI hbytes htask := by
    have hgrows := MemoryStore.serve_grows (s := w.shared.store) cfg c now fault
    refine ⟨?_, trivial, fun _ ↦ trivial, fun _ _ ↦ ⟨trivial, trivial⟩⟩
    intro digest reservation hget
    rcases serve_capabilities cfg w.shared.store c now fault with heq | ⟨new, hcall, _, heq⟩
    · rw [heq] at hget
      obtain ⟨id, job, hjob, hhash⟩ := hI.shared digest reservation hget
      obtain ⟨next, hnext, hsame, _⟩ := hgrows.rank_le hjob
      exact ⟨id, next, hnext, hsame.requestHash.trans hhash⟩
    · rw [heq, KeyedList.get?_set] at hget
      split at hget
      · cases hget
        obtain ⟨a, existing, rfl, haccepting⟩ := call_consumeCapability hcall
        obtain ⟨hhash, hrecorded⟩ := BytesOf.accepting (hbytes.task htask) a existing haccepting
        obtain ⟨job, hjob, heq⟩ := hrecorded.grows hgrows
        exact ⟨existing.id, job, hjob, heq.trans hhash⟩
      · obtain ⟨id, job, hjob, hhash⟩ := hI.shared digest reservation hget
        obtain ⟨next, hnext, hsame, _⟩ := hgrows.rank_le hjob
        exact ⟨id, next, hnext, hsame.requestHash.trans hhash⟩
  part hI _ _ _ := ⟨hI.shared, trivial, trivial, fun _ ↦ trivial, fun _ _ ↦ ⟨trivial, trivial⟩⟩

theorem assigned_after (es : List (Event ρ)) : (assigned cfg).Holds (after cfg es) := by
  refine assigned_keeps.after (fun _ _ h ↦ by cases h) es fun e he ↦ ?_
  obtain ⟨pre, _, _, _, hstate, _⟩ := Execution.mem_accepted he
  rw [hstate]
  exact bytes_after pre

/-- A step that moves a job to `validated` is the compare-and-set of a wallet operation. -/
theorem step_validated {w w' : World cfg} {e : Event ρ} (h : Tasks.step (service cfg) w e = .ok w')
    {id : JsString} {job next : Job} (hjob : w.shared.store.get id = some job)
    (hnext : w'.shared.store.get id = some next) (hauthorized : job.status = .authorized)
    (hvalidated : next.status = .validated) :
    ∃ t p pending, w.tasks t = some (p, .waiting (.walletValidate id pending)) := by
  rcases step_store cfg h with heq | ⟨t, p, c, now, fault, rfl, htask, heq⟩
  · rw [heq, hjob] at hnext
    cases hnext
    simp [hauthorized] at hvalidated
  · have hchange := serve_change cfg w.shared.store c now fault id
    rw [hjob, ← heq, hnext] at hchange
    generalize hcall : c.call cfg.sha256 = call at hchange
    cases hchange with
    | same => simp [hauthorized] at hvalidated
    | moved =>
      cases c <;> simp only [StoreFrame.call, reduceCtorEq, StoreCall.transition.injEq] at hcall
      all_goals
        obtain ⟨rfl, rfl, rfl⟩ := hcall
        simp [Job.patch] at hvalidated
      exact ⟨t, p, _, htask⟩
    | reserved hstatus => simp [hauthorized] at hstatus

/-- No step moves a job to `validated` before its capability has been consumed. -/
def Guarded (w : World cfg) : Prop :=
  ∀ e w', Tasks.step (service cfg) w e = .ok w' → ∀ id job next, w.shared.store.get id = some job →
    w'.shared.store.get id = some next → job.status = .authorized → next.status = .validated →
    Consumed w.shared.store job.capabilityDigest

/-- **Consumed capabilities.** In a run that starts no `authorized` job under another capability before
its own has been consumed, a job becomes `validated` only after its capability has been consumed. In
every run a consumed capability stays consumed, for exactly one job. -/
theorem capability_before_wallet (cfg : Config ρ) (es : List (Event ρ))
    (h : ∀ e ∈ Execution.accepted (Tasks.step (service cfg)) (init cfg) es, StartStep e.1 e.2) :
    Guarded (after cfg es) ∧
    ∀ digest reservation, (after cfg es).shared.store.capabilities.get? digest = some reservation →
      (∃! id, ∃ job, (after cfg es).shared.store.get id = some job ∧
        job.requestHash = reservation.requestHash) ∧
      ∀ post, (after cfg (es ++ post)).shared.store.capabilities.get? digest = some reservation := by
  constructor
  · intro e w' hstep id job next hjob hnext hauthorized hvalidated
    obtain ⟨t, p, pending, htask⟩ := step_validated hstep hjob hnext hauthorized hvalidated
    have hI := cleared_keeps.after trivial es h
    obtain ⟨job', hjob', hconsumed⟩ := ClearedTask.opening (hI.task htask) id rfl
    obtain rfl := Option.some.inj (hjob.symm.trans hjob')
    exact hconsumed
  · intro digest reservation hget
    constructor
    · obtain ⟨id, job, hjob, hhash⟩ := (assigned_after es).shared digest reservation hget
      refine ⟨id, ⟨job, hjob, hhash⟩, ?_⟩
      rintro id' ⟨job', hjob', hhash'⟩
      exact (ownership_after es).shared.distinct.requestHash hjob' hjob (hhash'.trans hhash.symm)
    · exact fun post ↦ (after_grows cfg es post).capabilities hget

/-! ## Sample runs -/

/-- A request for the transaction of `sampleAccept "aaaa"` under another id, key and capability. -/
def otherAccept : AcceptCall := { sampleAccept "bbbb" with
  request := { (sampleAccept "aaaa").request with actionId := js "bbbb", idempotencyKey := js "bbbb" } }

/-- The other request starts the job, and a wallet operation finds it `authorized`. -/
def otherStarts : List SampleEvent :=
  .spawn 1 1 (.accept otherAccept) :: sampleCalls 1 2 ++ .spawn 1 2 .dequeue :: sampleCalls 2 1

/-- The first request has consumed its capability before the other one arrives. -/
def consumedRun : List SampleEvent := sampleAccepts 0 0 (sampleAccept "aaaa") ++ otherStarts

/-- The first request has not consumed its capability. -/
def unconsumedRun : List SampleEvent :=
  .spawn 0 0 (.accept (sampleAccept "aaaa")) :: sampleCalls 0 1 ++ otherStarts

/-- The step starts no job before its capability has been consumed. -/
def startsCleared (w : World cfg) : Event ρ → Bool
  | .advance t (.resume _) =>
    match w.tasks t with
    | some (_, f) => !f.startsOther.any fun existing ↦ existing.status = .authorized &&
        (w.shared.store.capabilities.get? existing.capabilityDigest).isNone
    | none => true
  | _ => true

theorem StartStep.of_startsCleared {w : World cfg} {e : Event ρ} (h : startsCleared w e = true) :
    StartStep w e := by
  intro t p f uuid existing he htask hother hstatus
  subst he
  have hsome : (w.shared.store.capabilities.get? existing.capabilityDigest).isSome := by
    simpa [startsCleared, htask, hother, hstatus] using h
  exact Option.isSome_iff_exists.mp hsome

theorem capability_before_wallet_sample : Guarded (after sampleConfig consumedRun) := by
  have hcheck : (Execution.accepted (Tasks.step (service sampleConfig)) (init sampleConfig)
      consumedRun).all (fun e ↦ startsCleared e.1 e.2) = true := by
    decide +kernel
  exact (capability_before_wallet sampleConfig consumedRun
    fun e he ↦ StartStep.of_startsCleared (List.all_eq_true.mp hcheck e he)).1

/-- A wallet operation works on the job although no capability has been consumed. -/
theorem wallet_before_capability : ¬Guarded (after sampleConfig unconsumedRun) := by
  have hbefore : ((after sampleConfig unconsumedRun).shared.store.get (js "aaaa")).map Job.status =
      some .authorized ∧ (after sampleConfig unconsumedRun).shared.store.capabilities.entries = [] := by
    decide +kernel
  have hafter : ((after sampleConfig (unconsumedRun ++ [.advance 2 (.serve (js "now") .none)])
      ).shared.store.get (js "aaaa")).map Job.status = some .validated := by
    decide +kernel
  generalize unconsumedRun = es at hbefore hafter ⊢
  generalize (Tasks.Event.advance 2 (.serve (js "now") .none) : SampleEvent) = e at hafter
  obtain ⟨⟨job, hjob, hauthorized⟩, hnone⟩ := hbefore.imp_left Option.map_eq_some_iff.mp
  obtain ⟨next, hnext, hvalidated⟩ := Option.map_eq_some_iff.mp hafter
  rw [after, Tasks.runEvents, Execution.run_concat] at hnext
  intro hguarded
  cases hok : Tasks.step (service sampleConfig) (after sampleConfig es) e with
  | error err =>
    rw [Execution.apply_of_error hok, hjob] at hnext
    cases hnext
    simp [hauthorized] at hvalidated
  | ok w' =>
    rw [Execution.apply_of_ok hok] at hnext
    obtain ⟨reservation, hget⟩ := hguarded e w' hok _ job next hjob hnext hauthorized hvalidated
    have hmem := KeyedList.mem_of_get? hget
    simp [hnone] at hmem

end MidnightReferendum.Relayer
