import MidnightReferendum.Relayer.Jobs
import MidnightReferendum.Relayer.Methods

/-!
# Transaction bytes

The bytes of a transaction travel from a request through the memory of a service to the wallet. On this
way they stay attached to a job with the request hash of the request.
-/

namespace MidnightReferendum.Relayer

open Js

variable {ρ : Type} {cfg : Config ρ}

/-- The request and the job that a call of `accept` works with after its first `await`. -/
def Frame.accepting {sha256 : JsString → JsString} : Frame sha256 → Option (AcceptCall × Job)
  | .waiting (.acceptByKey a existing _) | .ready (.acceptByKey a existing _) _ => some (a, existing)
  | .waiting (.acceptConsume a existing) | .ready (.acceptConsume a existing) _ => some (a, existing)
  | .waiting (.acceptReconsume a existing) | .ready (.acceptReconsume a existing) _ =>
    some (a, existing)
  | _ => none

/-- The bytes that a wallet operation works with before the executor has balanced them. -/
def Frame.unbound {sha256 : JsString → JsString} : Frame sha256 → Option (JsString × JsString)
  | .waiting (.walletValidate id pending) | .ready (.walletValidate id pending) _ =>
    some (id, pending.unbound)
  | .waiting (.walletReserve id pending _) | .ready (.walletReserve id pending _) _ =>
    some (id, pending.unbound)
  | .external (.balanceAndFinalize id pending) => some (id, pending.unbound)
  | _ => none

/-- The bytes that a part of a method takes over, and from where. -/
structure Carried {sha256 : JsString → JsString} (m : Memory) (f : Frame sha256)
    (observations : List (Observation ρ)) (next : Next sha256) : Prop where
  accepting : ∀ a existing, next.frame.accepting = some (a, existing) →
    f.accepting = some (a, existing) ∨ ∃ reply created, f = .ready (.acceptCreate a) reply ∧
      reply = .ok (existing, created) ∧ existing.requestHash = a.requestHash sha256
  unbound : ∀ id tx, next.frame.unbound = some (id, tx) → f.unbound = some (id, tx) ∨
    ∃ transient, m.transient id = some transient ∧ transient.unbound = tx
  transient : ∀ id transient, next.memory.transient id = some transient →
    m.transient id = some transient ∨ f.unbound = some (id, transient.unbound) ∨
      ∃ a existing, f.accepting = some (a, existing) ∧ existing.id = id ∧
        a.request.tx = transient.unbound
  balanced : ∀ id tx, .executor (.balanceAndFinalize id tx) ∈ observations →
    f.unbound = some (id, tx)

variable {sha256 : JsString → JsString} {m : Memory}

theorem Frame.quiet_carries {f : Frame sha256} (h : f.quiet) :
    f.accepting = none ∧ f.unbound = none := by
  unfold Frame.quiet at h
  split at h
  all_goals first
    | exact ⟨rfl, rfl⟩
    | cases h

theorem Next.Quiet.carried {next : Next sha256} (h : next.Quiet m) (f : Frame sha256) :
    Carried m f (next.calls.map (Observation.executor (ρ := ρ))) next where
  accepting a existing heq := by simp [(Frame.quiet_carries h.frame).1] at heq
  unbound id tx heq := by simp [(Frame.quiet_carries h.frame).2] at heq
  transient id transient heq := Or.inl (by rwa [h.transient] at heq)
  balanced id tx hmem := by simp [h.calls] at hmem

/-- A part of a method that ends, where the memory only loses bytes. -/
theorem carried_done {f : Frame sha256} {m' : Memory} {outcome : Outcome}
    (h : ∀ id transient, m'.transient id = some transient → m.transient id = some transient) :
    Carried m f ([] : List (Observation ρ)) ⟨m', .done outcome, []⟩ where
  accepting a existing heq := by cases heq
  unbound id tx heq := by cases heq
  transient id transient heq := Or.inl (h id transient heq)
  balanced id tx hmem := by cases hmem

theorem accepted_transient (m : Memory) (a : AcceptCall) (existing : Job) (created : Bool)
    {id : JsString} {transient : Transient}
    (h : (accepted m a existing created : Next sha256).memory.transient id = some transient) :
    m.transient id = some transient ∨ existing.id = id ∧ a.request.tx = transient.unbound := by
  have hstart : ∀ m' : Memory, (if existing.status = .authorized ∧ !m'.running existing.id then
      m'.run existing.id else if existing.reconcilable then m'.scheduleReconcile existing.id
      else m').transient = m'.transient := by
    intro m'
    split
    · rfl
    · split
      · rfl
      · rfl
  simp only [accepted, memory_finish, hstart] at h
  split at h
  · by_cases hid : existing.id = id
    · simp only [transient_setTransient, hid, Function.update_self, Option.some.injEq] at h
      exact Or.inr ⟨hid, by rw [← h]⟩
    · rw [transient_setTransient, Function.update_of_ne (Ne.symm hid)] at h
      exact Or.inl h
  · exact Or.inl h

theorem carried_accepted {f : Frame sha256} (m : Memory) (a : AcceptCall) (existing : Job)
    (created : Bool) (hf : f.accepting = some (a, existing)) :
    Carried m f ([] : List (Observation ρ)) (accepted m a existing created) where
  accepting _ _ heq := by cases heq
  unbound _ _ heq := by cases heq
  transient id transient heq := by
    rcases accepted_transient m a existing created heq with h | ⟨hid, htx⟩
    · exact Or.inl h
    · exact Or.inr (Or.inr ⟨a, existing, hf, hid, htx⟩)
  balanced _ _ hmem := by cases hmem

/-- A part of a method that awaits the store, with what the new frame carries. -/
theorem carried_await {f : Frame sha256} {m' : Memory} {c : StoreFrame}
    (haccepting : ∀ a existing, (Frame.waiting c : Frame sha256).accepting = some (a, existing) →
      f.accepting = some (a, existing) ∨ ∃ reply created, f = .ready (.acceptCreate a) reply ∧
        reply = .ok (existing, created) ∧ existing.requestHash = a.requestHash sha256)
    (hunbound : ∀ id tx, (Frame.waiting c : Frame sha256).unbound = some (id, tx) →
      f.unbound = some (id, tx) ∨ ∃ transient, m.transient id = some transient ∧ transient.unbound = tx)
    (htransient : ∀ id transient, m'.transient id = some transient →
      m.transient id = some transient ∨ f.unbound = some (id, transient.unbound)) :
    Carried m f ([] : List (Observation ρ)) ⟨m', .waiting c, []⟩ where
  accepting := haccepting
  unbound := hunbound
  transient id transient heq := (htransient id transient heq).imp_right Or.inl
  balanced _ _ hmem := by cases hmem

/-- Forgetting the bytes of a job. -/
theorem transient_of_forget {m : Memory} {id id' : JsString} {transient : Transient}
    (h : (m.setTransient id none).transient id' = some transient) :
    m.transient id' = some transient := by
  by_cases hid : id' = id
  · simp [transient_setTransient, hid] at h
  · rwa [transient_setTransient, Function.update_of_ne hid] at h

theorem carried_acceptCreate (m : Memory) (uuid : JsString) (a : AcceptCall)
    (reply : Except StoreError ((StoreFrame.acceptCreate a).call sha256).Answer) :
    Carried m (.ready (.acceptCreate a) reply)
      ((resume m uuid (.acceptCreate a) reply).calls.map (Observation.executor (ρ := ρ)))
      (resume m uuid (.acceptCreate a) reply) := by
  simp only [resume, acceptCreated]
  repeat' split
  · exact carried_done fun _ _ h ↦ h
  · exact carried_done fun _ _ h ↦ h
  · exact carried_done fun _ _ h ↦ h
  · next existing created hash =>
    refine carried_await (fun a' existing' h ↦ Or.inr ?_) (fun _ _ h ↦ by cases h)
      (fun _ _ h ↦ Or.inl h)
    cases h
    exact ⟨_, created, rfl, rfl, not_not.mp hash⟩

theorem carried_acceptByKey (m : Memory) (uuid : JsString) (a : AcceptCall) (existing : Job) (created : Bool)
    (reply : Except StoreError ((StoreFrame.acceptByKey a existing created).call sha256).Answer) :
    Carried m (.ready (.acceptByKey a existing created) reply)
      ((resume m uuid (.acceptByKey a existing created) reply).calls.map (Observation.executor (ρ := ρ)))
      (resume m uuid (.acceptByKey a existing created) reply) := by
  simp only [resume, acceptFoundByKey]
  repeat' split
  · exact carried_done fun _ _ h ↦ h
  · exact carried_done fun _ _ h ↦ h
  · exact carried_await (fun _ _ h ↦ Or.inl h) (fun _ _ h ↦ by cases h) (fun _ _ h ↦ Or.inl h)
  · exact carried_await (fun _ _ h ↦ Or.inl h) (fun _ _ h ↦ by cases h) (fun _ _ h ↦ Or.inl h)
  · exact carried_accepted m a existing false rfl

theorem carried_acceptConsume (m : Memory) (uuid : JsString) (a : AcceptCall) (existing : Job)
    (reply : Except StoreError ((StoreFrame.acceptConsume a existing).call sha256).Answer) :
    Carried m (.ready (.acceptConsume a existing) reply)
      ((resume m uuid (.acceptConsume a existing) reply).calls.map (Observation.executor (ρ := ρ)))
      (resume m uuid (.acceptConsume a existing) reply) := by
  simp only [resume, acceptConsumed]
  split
  · exact carried_done fun _ _ h ↦ h
  · exact carried_await (fun _ _ h ↦ by cases h) (fun _ _ h ↦ by cases h) (fun _ _ h ↦ Or.inl h)
  · exact carried_accepted m a existing true rfl

theorem carried_acceptReconsume (m : Memory) (uuid : JsString) (a : AcceptCall) (existing : Job)
    (reply : Except StoreError ((StoreFrame.acceptReconsume a existing).call sha256).Answer) :
    Carried m (.ready (.acceptReconsume a existing) reply)
      ((resume m uuid (.acceptReconsume a existing) reply).calls.map (Observation.executor (ρ := ρ)))
      (resume m uuid (.acceptReconsume a existing) reply) := by
  rcases reply with e | _
  · exact carried_done fun _ _ h ↦ h
  · exact carried_accepted m a existing false rfl

theorem carried_walletRead (m : Memory) (uuid : JsString) (id : JsString)
    (reply : Except StoreError ((StoreFrame.walletRead id).call sha256).Answer) :
    Carried m (.ready (.walletRead id) reply)
      ((resume m uuid (.walletRead id) reply).calls.map (Observation.executor (ρ := ρ)))
      (resume m uuid (.walletRead id) reply) := by
  simp only [resume, walletFound]
  split
  · exact carried_done fun _ _ h ↦ h
  · split
    · next pending hpending =>
      split
      · refine carried_await (fun _ _ h ↦ by cases h) (fun _ _ h ↦ Or.inr ?_) (fun _ _ h ↦ Or.inl h)
        cases h
        exact ⟨pending, hpending, rfl⟩
      · exact carried_done fun _ _ h ↦ h
    · exact carried_done fun _ _ h ↦ h

theorem carried_walletValidate (m : Memory) (uuid : JsString) (id : JsString) (pending : Transient)
    (reply : Except StoreError ((StoreFrame.walletValidate id pending).call sha256).Answer) :
    Carried m (.ready (.walletValidate id pending) reply)
      ((resume m uuid (.walletValidate id pending) reply).calls.map (Observation.executor (ρ := ρ)))
      (resume m uuid (.walletValidate id pending) reply) := by
  rcases reply with e | _ | job
  · exact carried_done fun _ _ h ↦ h
  · exact carried_done fun _ _ h ↦ h
  · exact carried_await (fun _ _ h ↦ by cases h) (fun _ _ h ↦ Or.inl h) (fun _ _ h ↦ Or.inl h)

theorem carried_walletReserve (m : Memory) (uuid : JsString) (id : JsString) (pending : Transient)
    (reservationId : JsString)
    (reply : Except StoreError ((StoreFrame.walletReserve id pending reservationId).call sha256).Answer) :
    Carried m (.ready (.walletReserve id pending reservationId) reply)
      ((resume m uuid (.walletReserve id pending reservationId) reply).calls.map (Observation.executor (ρ := ρ)))
      (resume m uuid (.walletReserve id pending reservationId) reply) := by
  rcases reply with e | _ | job
  · exact carried_done fun _ _ h ↦ h
  · exact carried_done fun _ _ h ↦ h
  · constructor
    · intro _ _ h
      cases h
    · exact fun _ _ h ↦ Or.inl h
    · exact fun _ _ h ↦ Or.inl h
    · intro id' tx hmem
      simp only [resume, walletReserved, List.map_cons, List.map_nil, List.mem_singleton,
        Observation.executor.injEq, ExecutorCall.balanceAndFinalize.injEq] at hmem
      rw [hmem.1, hmem.2]
      rfl

theorem carried_walletIntent (m : Memory) (uuid : JsString) (id finalized : JsString) (derivedId : Option JsString)
    (reply : Except StoreError ((StoreFrame.walletIntent id finalized derivedId).call sha256).Answer) :
    Carried m (.ready (.walletIntent id finalized derivedId) reply)
      ((resume m uuid (.walletIntent id finalized derivedId) reply).calls.map (Observation.executor (ρ := ρ)))
      (resume m uuid (.walletIntent id finalized derivedId) reply) := by
  rcases reply with e | _ | job
  · exact carried_done fun _ _ h ↦ h
  · exact carried_done fun _ _ h ↦ h
  · constructor
    · intro _ _ h
      cases h
    · intro _ _ h
      cases h
    · exact fun _ _ h ↦ Or.inl h
    · intro id' tx hmem
      simp [resume, walletIntended] at hmem

theorem resume_carried (m : Memory) (uuid : JsString) (c : StoreFrame)
    (reply : Except StoreError (c.call sha256).Answer) :
    Carried m (.ready c reply) ((resume m uuid c reply).calls.map (Observation.executor (ρ := ρ)))
      (resume m uuid c reply) := by
  cases hc : c.loud with
  | false => exact (resume_quiet m hc uuid reply).carried _
  | true =>
    cases c <;> try cases hc
    case true.acceptCreate a => exact carried_acceptCreate m uuid a reply
    case true.acceptByKey a existing created => exact carried_acceptByKey m uuid a existing created reply
    case true.acceptConsume a existing => exact carried_acceptConsume m uuid a existing reply
    case true.acceptReplayed a existing =>
      rcases reply with e | _
      · exact carried_done fun _ _ h ↦ h
      · exact carried_done fun _ _ h ↦ h
    case true.acceptReconsume a existing => exact carried_acceptReconsume m uuid a existing reply
    case true.walletRead id => exact carried_walletRead m uuid id reply
    case true.walletValidate id pending => exact carried_walletValidate m uuid id pending reply
    case true.walletReserve id pending reservationId =>
      exact carried_walletReserve m uuid id pending reservationId reply
    case true.walletFinalize id finalized derivedId =>
      rcases reply with e | _
      · exact carried_done fun _ _ h ↦ h
      · exact carried_await (fun _ _ h ↦ by cases h) (fun _ _ h ↦ by cases h) (fun _ _ h ↦ Or.inl h)
    case true.walletIntent id finalized derivedId => exact carried_walletIntent m uuid id finalized derivedId reply
    all_goals
      rcases reply with e | _
      · exact carried_done fun _ _ h ↦ h
      · exact carried_done fun _ _ h ↦ h

/-- The bytes along the parts of the methods. -/
theorem Part.carried {m : Memory} {f : Frame cfg.sha256} {i : Input ρ}
    {observations : List (Observation ρ)} {next : Next cfg.sha256}
    (h : Part cfg m f i observations next) : Carried m f observations next := by
  cases h with
  | resumed c reply uuid => exact resume_carried m uuid c reply
  | balanced id pending result =>
    rcases result with _ | ⟨finalized, derivedId⟩
    · exact carried_await (fun _ _ h ↦ by cases h) (fun _ _ h ↦ by cases h)
        (fun _ _ h ↦ Or.inl (transient_of_forget h))
    · refine carried_await (fun _ _ h ↦ by cases h) (fun _ _ h ↦ by cases h) fun id' transient h ↦ ?_
      by_cases hid : id' = id
      · subst hid
        simp only [transient_setTransient, Function.update_self, Option.some.injEq] at h
        rw [← h]
        exact Or.inr rfl
      · rw [transient_setTransient, Function.update_of_ne hid] at h
        exact Or.inl h
  | submitted id finalized derivedId result =>
    simp only [walletSubmitted]
    repeat' split
    all_goals
      refine carried_await ?_ ?_ fun _ _ h ↦ Or.inl (transient_of_forget h)
      · intro _ _ h
        cases h
      · intro _ _ h
        cases h
  | indexed reader id job raw =>
    have hcases : Resolved m reader id _ (reconcileResolved m reader id job _ : Next cfg.sha256) :=
      reconcileResolved_cases m reader id job (cfg.resolve job.query raw)
    generalize cfg.resolve job.query raw = answer at hcases ⊢
    generalize (reconcileResolved m reader id job answer : Next cfg.sha256) = next at hcases ⊢
    have hbalanced : ∀ id' tx, Observation.executor (.balanceAndFinalize id' tx) ∈
        [Observation.indexed id job.query raw] → (Frame.external (.resolve reader id job) :
          Frame cfg.sha256).unbound = some (id', tx) := by
      intro id' tx hmem
      simp at hmem
    cases hcases with
    | quiet hquiet =>
      have hcarried := hquiet.carried (ρ := ρ) (.external (.resolve reader id job))
      exact ⟨hcarried.accepting, hcarried.unbound, hcarried.transient, hbalanced⟩
    | confirm receipt =>
      refine ⟨?_, ?_, fun _ _ h ↦ Or.inl h, hbalanced⟩
      · intro _ _ h
        cases h
      · intro _ _ h
        cases h
    | reject code _ =>
      refine ⟨?_, ?_, fun _ _ h ↦ Or.inl h, hbalanced⟩
      · intro _ _ h
        cases h
      · intro _ _ h
        cases h

/-! ## The invariant of the bytes -/

/-- The bytes are a transaction with the request hash of a job. -/
def Carries (cfg : Config ρ) (s : MemoryStore) (id tx : JsString) : Prop :=
  ∃ job, s.get id = some job ∧ ∃ network contractAddress circuit action,
    v2RequestHash cfg.sha256 network contractAddress circuit action tx = job.requestHash

/-- The store has a job of the same id and request hash. -/
def Recorded (s : MemoryStore) (existing : Job) : Prop :=
  ∃ job, s.get existing.id = some job ∧ job.requestHash = existing.requestHash

theorem Carries.grows {s s' : MemoryStore} (hgrows : s.Grows s') {id tx : JsString}
    (h : Carries cfg s id tx) : Carries cfg s' id tx := by
  obtain ⟨job, hjob, network, contractAddress, circuit, action, hhash⟩ := h
  obtain ⟨next, hnext, hsame, _⟩ := hgrows.rank_le hjob
  exact ⟨next, hnext, network, contractAddress, circuit, action, hhash.trans hsame.requestHash.symm⟩

theorem Recorded.grows {s s' : MemoryStore} (hgrows : s.Grows s') {existing : Job}
    (h : Recorded s existing) : Recorded s' existing := by
  obtain ⟨job, hjob, hhash⟩ := h
  obtain ⟨next, hnext, hsame, _⟩ := hgrows.rank_le hjob
  exact ⟨next, hnext, hsame.requestHash.trans hhash⟩

/-- The bytes of a request belong to the job that has its request hash. -/
theorem Recorded.carries {s : MemoryStore} {existing : Job} (h : Recorded s existing) {a : AcceptCall}
    (hhash : existing.requestHash = a.requestHash cfg.sha256) :
    Carries cfg s existing.id a.request.tx := by
  obtain ⟨job, hjob, heq⟩ := h
  exact ⟨job, hjob, _, _, _, _, hhash.symm.trans heq.symm⟩

structure BytesOf (cfg : Config ρ) (s : MemoryStore) (f : Frame cfg.sha256) : Prop where
  accepting : ∀ a existing, f.accepting = some (a, existing) →
    existing.requestHash = a.requestHash cfg.sha256 ∧ Recorded s existing
  unbound : ∀ id tx, f.unbound = some (id, tx) → Carries cfg s id tx
  created : ∀ a reply existing created, f = .ready (.acceptCreate a) reply →
    reply = .ok (existing, created) → Recorded s existing

def bytes (cfg : Config ρ) : Invariant cfg where
  shared s := ∀ id tx, .executor (.balanceAndFinalize id tx) ∈ s.log → Carries cfg s.store id tx
  memory s m := ∀ id transient, m.transient id = some transient →
    Carries cfg s.store id transient.unbound
  task s f := BytesOf cfg s.store f
  apart _ _ := True

theorem BytesOf.grows {s s' : MemoryStore} (hgrows : s.Grows s') {f : Frame cfg.sha256}
    (h : BytesOf cfg s f) : BytesOf cfg s' f where
  accepting a existing heq := (h.accepting a existing heq).imp_right (Recorded.grows hgrows)
  unbound id tx heq := (h.unbound id tx heq).grows hgrows
  created a reply existing created hf hreply := (h.created a reply existing created hf hreply).grows hgrows

/-- A call keeps what its frame carries. -/
theorem BytesOf.serve {s : MemoryStore} {c : StoreFrame} (h : BytesOf cfg s (.waiting c))
    (now : JsString) (fault : Fault) :
    BytesOf cfg (serve cfg c now fault s).2 (.ready c (serve cfg c now fault s).1) where
  accepting a existing heq := by
    have hwaiting : (Frame.waiting c : Frame cfg.sha256).accepting = some (a, existing) := by
      rw [← heq]
      cases c <;> rfl
    exact (h.accepting a existing hwaiting).imp_right
      (Recorded.grows (MemoryStore.serve_grows cfg c now fault))
  unbound id tx heq := by
    have hwaiting : (Frame.waiting c : Frame cfg.sha256).unbound = some (id, tx) := by
      rw [← heq]
      cases c <;> rfl
    exact (h.unbound id tx hwaiting).grows (MemoryStore.serve_grows cfg c now fault)
  created a reply existing created hf hreply := by
    cases hf
    cases fault with
    | none => exact ⟨existing, MemoryStore.get_createOrGet hreply, rfl⟩
    | replyLost => cases hreply
    | refused => cases hreply

theorem bytes_keeps : Keeps cfg (fun _ _ ↦ True) (bytes cfg) where
  symm _ := trivial
  fresh _ id transient h := by cases h
  spawn {w p t i m f} hI _ hspawn := by
    have htransient : m.transient = (w.memory p).transient ∧ f.accepting = none ∧ f.unbound = none ∧
        ∃ c, f = .waiting c := by
      simp only [spawn] at hspawn
      repeat' split at hspawn
      all_goals cases hspawn
      all_goals exact ⟨rfl, rfl, rfl, _, rfl⟩
    obtain ⟨hm, haccepting, hunbound, c, rfl⟩ := htransient
    refine ⟨?_, ⟨?_, ?_, ?_⟩, fun _ ↦ trivial⟩
    · intro id transient h
      exact hI.memory p id transient (by rwa [← hm])
    · intro a existing h
      simp [haccepting] at h
    · intro id tx h
      simp [hunbound] at h
    · intro a reply existing created h
      cases h
  tick {w p i m} hI _ htick := by
    have hm : m.transient = (w.memory p).transient := by
      simp only [tick] at htick
      repeat' split at htick
      all_goals cases htick
      all_goals rfl
    intro id transient h
    exact hI.memory p id transient (by rwa [← hm])
  serve {w t p c now fault} hI _ htask := by
    have hgrows := MemoryStore.serve_grows (s := w.shared.store) cfg c now fault
    refine ⟨?_, (hI.task htask).serve now fault, ?_, fun _ hu ↦ ⟨(hI.task hu).grows hgrows, trivial⟩⟩
    · exact fun id tx hmem ↦ (hI.shared id tx hmem).grows hgrows
    · exact fun h id transient htransient ↦ (h id transient htransient).grows hgrows
  part {w t p f i observations next} hI _ htask hpart := by
    have hcarried := hpart.carried
    have hf : BytesOf cfg w.shared.store f := hI.task htask
    refine ⟨?_, ?_, ⟨?_, ?_, ?_⟩, fun h ↦ h, fun _ hu ↦ ⟨hI.task hu, trivial⟩⟩
    · intro id tx hmem
      rcases List.mem_append.mp hmem with hmem | hmem
      · exact hI.shared id tx hmem
      · exact hf.unbound id tx (hcarried.balanced id tx hmem)
    · intro id transient htransient
      rcases hcarried.transient id transient htransient with h | h | ⟨a, existing, h, rfl, htx⟩
      · exact hI.memory p id transient h
      · exact hf.unbound id _ h
      · obtain ⟨hhash, hrecorded⟩ := hf.accepting a existing h
        rw [← htx]
        exact hrecorded.carries hhash
    · intro a existing h
      rcases hcarried.accepting a existing h with h | ⟨reply, created, rfl, hreply, hhash⟩
      · exact hf.accepting a existing h
      · exact ⟨hhash, hf.created a reply existing created rfl hreply⟩
    · intro id tx h
      rcases hcarried.unbound id tx h with h | ⟨transient, htransient, rfl⟩
      · exact hf.unbound id tx h
      · exact hI.memory p id transient htransient
    · intro a reply existing created h
      have hreplied := hpart.replied
      simp [h, Frame.replied] at hreplied

theorem bytes_after (es : List (Event ρ)) : (bytes cfg).Holds (after cfg es) :=
  bytes_keeps.after (fun id tx h ↦ by cases h) es fun _ _ ↦ trivial

end MidnightReferendum.Relayer
