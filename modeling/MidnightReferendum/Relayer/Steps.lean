import MidnightReferendum.Relayer.Service

/-!
# The steps of the services

Every step of a service is a call that the store executes or a part of a method. What a call can do to
the store is said once, as a relation between the two jobs of an id, and the invariants follow from it.
-/

namespace MidnightReferendum.Relayer

open Js

/-! ## Jobs -/

theorem bind_eq_ok {ε α β : Type} {x : Except ε α} {f : α → Except ε β} {b : β} :
    x >>= f = .ok b ↔ ∃ a, x = .ok a ∧ f a = .ok b := by
  cases x <;> simp [bind, Except.bind]

/-- The job of an input that passes the checks. -/
def NewJob.job (input : NewJob) : Job where
  id := input.id
  idempotencyKey := input.idempotencyKey
  capabilityDigest := input.capabilityDigest
  requestHash := input.requestHash
  txDigest := input.txDigest
  network := input.network
  contractAddress := input.contractAddress
  circuit := input.circuit
  action := input.action
  status := .authorized
  transitions := [.authorized]
  dustReservationId := none
  transactionId := none
  receipt := none
  errorCode := none
  createdAt := input.now
  updatedAt := input.now

/-- `requireId` accepts the value. -/
def isId (value : JsString) : Prop := ¬isBlank value ∧ value.length ≤ 256

instance (value : JsString) : Decidable (isId value) := inferInstanceAs (Decidable (_ ∧ _))

/-- The checks of a new job. -/
structure NewJob.Valid (input : NewJob) : Prop where
  id : isId input.id
  idempotencyKey : isId input.idempotencyKey
  capabilityDigest : isDigest input.capabilityDigest
  requestHash : isDigest input.requestHash
  txDigest : isDigest input.txDigest
  network : isId input.network
  contractAddress : isId input.contractAddress
  circuit : isId input.circuit

theorem requireId_eq_ok {value v : JsString} {label : String} :
    requireId value label = .ok v ↔ isId value ∧ v = value := by
  unfold requireId isId
  split
  · next h =>
    simp only [reduceCtorEq, false_iff]
    rintro ⟨⟨hblank, hlength⟩, _⟩
    simp [hblank] at h
    omega
  · next h =>
    simp only [Except.ok.injEq]
    simp at h
    simp [h, eq_comm]

theorem requireDigest_eq_ok {value v : JsString} {label : String} :
    requireDigest value label = .ok v ↔ isDigest value ∧ v = value := by
  unfold requireDigest
  split
  · next h => simp at h; simp [h]
  · next h => simp at h; simp [h, eq_comm]

theorem newJob_eq_ok {input : NewJob} {job : Job} :
    newJob input = .ok job ↔ input.Valid ∧ job = input.job := by
  simp only [newJob, bind_eq_ok, requireId_eq_ok, requireDigest_eq_ok, pure, Except.pure,
    Except.ok.injEq]
  constructor
  · rintro ⟨_, ⟨h₁, rfl⟩, _, ⟨h₂, rfl⟩, _, ⟨h₃, rfl⟩, _, ⟨h₄, rfl⟩, _, ⟨h₅, rfl⟩, _, ⟨h₆, rfl⟩,
      _, ⟨h₇, rfl⟩, _, ⟨h₈, rfl⟩, rfl⟩
    exact ⟨⟨h₁, h₂, h₃, h₄, h₅, h₆, h₇, h₈⟩, rfl⟩
  · rintro ⟨⟨h₁, h₂, h₃, h₄, h₅, h₆, h₇, h₈⟩, rfl⟩
    exact ⟨_, ⟨h₁, rfl⟩, _, ⟨h₂, rfl⟩, _, ⟨h₃, rfl⟩, _, ⟨h₄, rfl⟩, _, ⟨h₅, rfl⟩, _, ⟨h₆, rfl⟩,
      _, ⟨h₇, rfl⟩, _, ⟨h₈, rfl⟩, rfl⟩

theorem sanitizeCanonicalReceipt_eq {receipt r : CanonicalReceipt}
    (h : sanitizeCanonicalReceipt receipt = .ok r) : r = receipt := by
  unfold sanitizeCanonicalReceipt at h
  split at h
  · cases h
  · exact (Except.ok.inj h).symm

/-- A transition applies the patch, and its receipt passes the check. -/
theorem Job.transition_eq_ok {job next : Job} {patch : Patch} {now : JsString}
    (h : job.transition patch now = .ok next) : next = job.patch patch now ∧
      ∀ r, next.receipt = some r → sanitizeCanonicalReceipt r = .ok r := by
  simp only [Job.transition] at h
  split at h
  · next hreceipt =>
    obtain rfl := Except.ok.inj h
    simp [hreceipt]
  · next receipt hreceipt =>
    obtain ⟨r, hr, heq⟩ := bind_eq_ok.mp h
    obtain rfl := sanitizeCanonicalReceipt_eq hr
    obtain rfl := Except.ok.inj heq
    constructor
    · rw [← hreceipt]
    · rintro _ ⟨⟩
      exact hr

/-! ## Calls -/

/-- What a call changes at one id of the store. -/
inductive JobChange (s : MemoryStore) (now : JsString) :
    StoreCall → JsString → Option Job → Option Job → Prop
  | same (call : StoreCall) (id : JsString) (job : Option Job) : JobChange s now call id job job
  | created {input : NewJob} (hnone : s.existing input = none) (hvalid : input.Valid) :
    JobChange s now (.createOrGet input) input.id none (some input.job)
  | moved {id : JsString} {expected : List Status} {patch : Patch} {job : Job}
      (hexpected : job.status ∈ expected) (hid : job.id = id)
      (hreceipt : ∀ r, (job.patch patch now).receipt = some r → sanitizeCanonicalReceipt r = .ok r) :
    JobChange s now (.transition id expected patch) id (some job) (some (job.patch patch now))
  | reserved {id reservationId : JsString} {job : Job} (hstatus : job.status = .validated)
      (hid : job.id = id) (hfree : s.leased id = false) :
    JobChange s now (.reserveDust id reservationId) id (some job)
      (some (job.reserve reservationId now))

namespace MemoryStore

variable {s : MemoryStore} {now : JsString}

theorem id_of_get {id : JsString} {job : Job} (h : s.get id = some job) : job.id = id :=
  KeyedList.key_of_get? h

theorem get_of_mem {job : Job} (h : job ∈ s.jobs.entries) : s.get job.id = some job :=
  KeyedList.get?_eq_some.mpr ⟨h, rfl⟩

theorem mem_of_get {id : JsString} {job : Job} (h : s.get id = some job) : job ∈ s.jobs.entries :=
  KeyedList.mem_of_get? h

/-- Setting a job changes its own id only. -/
theorem get_set (job : Job) (id : JsString) :
    get { s with jobs := s.jobs.set job } id = if job.id = id then some job else s.get id :=
  KeyedList.get?_set s.jobs job id

theorem existing_mem {input : NewJob} {job : Job} (h : s.existing input = some job) :
    job ∈ s.jobs.entries := by
  rcases Option.or_eq_some_iff.mp h with h | ⟨_, h⟩
  · exact mem_of_get h
  · exact List.mem_of_find?_eq_some h

/-- A created job is new, an existing one has the request hash of the input. -/
theorem createOrGet_reply {input : NewJob} {job : Job} {created : Bool}
    (h : (s.createOrGet input).1 = .ok (job, created)) :
    (created = false ∧ s.existing input = some job ∧ job.requestHash = input.requestHash ∧
      (s.createOrGet input).2 = s) ∨
    (created = true ∧ s.existing input = none ∧ input.Valid ∧ job = input.job ∧
      (s.createOrGet input).2 = { s with jobs := s.jobs.set job }) := by
  unfold createOrGet at h ⊢
  split at h
  · next job' hexisting =>
    split at h
    · cases h
    · next hhash =>
      cases h
      exact Or.inl ⟨rfl, hexisting, not_not.mp hhash, by simp [not_not.mp hhash]⟩
  · next hnone =>
    split at h
    · cases h
    · next job' hnew =>
      cases h
      obtain ⟨hvalid, hjob⟩ := newJob_eq_ok.mp hnew
      exact Or.inr ⟨rfl, hnone, hvalid, hjob, rfl⟩

/-- The job that `createOrGet` returns is in the store. -/
theorem get_createOrGet {input : NewJob} {job : Job} {created : Bool}
    (h : (s.createOrGet input).1 = .ok (job, created)) :
    (s.createOrGet input).2.get job.id = some job := by
  rcases createOrGet_reply h with ⟨_, hexisting, _, heq⟩ | ⟨_, _, _, _, heq⟩
  · rw [heq]
    exact get_of_mem (existing_mem hexisting)
  · rw [heq, get_set, if_pos rfl]

theorem transition_reply {id : JsString} {expected : List Status} {patch : Patch} {next : Job}
    (h : (s.transition id expected patch now).1 = .ok (some next)) :
    ∃ job, s.get id = some job ∧ job.status ∈ expected ∧ next = job.patch patch now ∧
      (s.transition id expected patch now).2 = { s with jobs := s.jobs.set next } := by
  unfold transition at h ⊢
  split at h
  · cases h
  · next job hget =>
    split at h
    · cases h
    · next hexpected =>
      split at h
      · cases h
      · next next' htransition =>
        cases h
        obtain ⟨rfl, _⟩ := Job.transition_eq_ok htransition
        exact ⟨job, hget, by simpa using hexpected, rfl, by simp [hexpected]⟩

theorem get_transition {id : JsString} {expected : List Status} {patch : Patch} {next : Job}
    (h : (s.transition id expected patch now).1 = .ok (some next)) :
    (s.transition id expected patch now).2.get id = some next := by
  obtain ⟨job, hjob, _, hnext, heq⟩ := transition_reply h
  have hid : next.id = id := by
    rw [hnext, ← id_of_get hjob]
    rfl
  rw [heq, get_set, if_pos hid]

/-- A transition that returns `null` changes nothing, its job has another status. -/
theorem transition_null {id : JsString} {expected : List Status} {patch : Patch} {job : Job}
    (h : (s.transition id expected patch now).1 = .ok none) (hjob : s.get id = some job) :
    (s.transition id expected patch now).2 = s ∧ job.status ∉ expected := by
  simp only [transition, hjob] at h ⊢
  split at h
  · next hexpected => exact ⟨by rw [if_pos hexpected], hexpected⟩
  · split at h <;> cases h

theorem reserveDust_reply {id reservationId : JsString} {next : Job}
    (h : (s.reserveDust id reservationId now).1 = some next) :
    ∃ job, s.get id = some job ∧ job.status = .validated ∧ s.leased id = false ∧
      next = job.reserve reservationId now ∧
      (s.reserveDust id reservationId now).2 = { s with jobs := s.jobs.set next } := by
  unfold reserveDust at h ⊢
  split at h
  · cases h
  · next job hget =>
    split at h
    · cases h
    · next hfree =>
      cases h
      simp at hfree
      exact ⟨job, hget, hfree.1, hfree.2, rfl, by simp [hfree]⟩

/-- A reservation that returns `null` changes nothing. -/
theorem reserveDust_null {id reservationId : JsString}
    (h : (s.reserveDust id reservationId now).1 = none) : (s.reserveDust id reservationId now).2 = s := by
  unfold reserveDust at h ⊢
  split at h
  · rfl
  · split at h
    · next hfree => simp only [hfree, if_true]
    · cases h

theorem get_reserveDust {id reservationId : JsString} {next : Job}
    (h : (s.reserveDust id reservationId now).1 = some next) :
    (s.reserveDust id reservationId now).2.get id = some next := by
  obtain ⟨job, hjob, _, _, hnext, heq⟩ := reserveDust_reply h
  have hid : next.id = id := by
    rw [hnext, ← id_of_get hjob]
    rfl
  rw [heq, get_set, if_pos hid]

/-- Every call changes at most the job of one id. -/
theorem exec_change (s : MemoryStore) (now : JsString) (call : StoreCall) (id : JsString) :
    JobChange s now call id (s.get id) ((s.exec now call).2.get id) := by
  cases call with
  | createOrGet input =>
    simp only [exec, createOrGet]
    split
    · split
      · exact .same _ _ _
      · exact .same _ _ _
    · next hnone =>
      split
      · exact .same _ _ _
      · next job hnew =>
        obtain ⟨hvalid, rfl⟩ := newJob_eq_ok.mp hnew
        rw [get_set]
        split
        · next hid =>
          have hget : s.get id = none := by
            rw [← hid]
            exact (Option.or_eq_none_iff.mp hnone).1
          rw [hget, ← hid]
          exact .created hnone hvalid
        · exact .same _ _ _
  | get _ => exact .same _ _ _
  | getByIdempotencyKey _ => exact .same _ _ _
  | consumeCapability reservation =>
    simp only [exec, consumeCapability]
    split
    · exact .same _ _ _
    · exact .same _ _ _
  | transition target expected patch =>
    simp only [exec, transition]
    split
    · exact .same _ _ _
    · next job hget =>
      split
      · exact .same _ _ _
      · next hexpected =>
        split
        · exact .same _ _ _
        · next next htransition =>
          obtain ⟨rfl, hreceipt⟩ := Job.transition_eq_ok htransition
          rw [get_set]
          split
          · next hid =>
            have htarget := id_of_get hget
            have heq : id = target := by rw [← hid]; exact htarget
            rw [heq, hget]
            exact .moved (by simpa using hexpected) htarget hreceipt
          · exact .same _ _ _
  | reserveDust target reservationId =>
    simp only [exec, reserveDust]
    split
    · exact .same _ _ _
    · next job hget =>
      split
      · exact .same _ _ _
      · next hfree =>
        simp at hfree
        rw [get_set]
        split
        · next hid =>
          have htarget := id_of_get hget
          have heq : id = target := by rw [← hid]; exact htarget
          rw [heq, hget]
          exact .reserved hfree.1 htarget hfree.2
        · exact .same _ _ _
  | listRecoverable => exact .same _ _ _

/-- The capabilities change only when one is consumed for the first time. -/
theorem exec_capabilities (s : MemoryStore) (now : JsString) (call : StoreCall) :
    (s.exec now call).2.capabilities = s.capabilities ∨
      ∃ reservation, call = .consumeCapability reservation ∧
        s.capabilities.get? reservation.digest = none ∧
        (s.exec now call).2.capabilities = s.capabilities.set reservation := by
  cases call with
  | createOrGet input =>
    simp only [exec, createOrGet]
    split
    · split
      · exact Or.inl rfl
      · exact Or.inl rfl
    · split
      · exact Or.inl rfl
      · exact Or.inl rfl
  | get _ => exact Or.inl rfl
  | getByIdempotencyKey _ => exact Or.inl rfl
  | consumeCapability reservation =>
    simp only [exec, consumeCapability]
    split
    · exact Or.inl rfl
    · next hnone => exact Or.inr ⟨reservation, rfl, hnone, rfl⟩
  | transition target expected patch =>
    simp only [exec, transition]
    split
    · exact Or.inl rfl
    · split
      · exact Or.inl rfl
      · split
        · exact Or.inl rfl
        · exact Or.inl rfl
  | reserveDust target reservationId =>
    simp only [exec, reserveDust]
    split
    · exact Or.inl rfl
    · split
      · exact Or.inl rfl
      · exact Or.inl rfl
  | listRecoverable => exact Or.inl rfl

/-! ### Distinct jobs -/

/-- Distinct jobs have distinct idempotency keys and request hashes. -/
structure Keyed (s : MemoryStore) : Prop where
  idempotencyKey : (s.jobs.entries.map Job.idempotencyKey).Nodup
  requestHash : (s.jobs.entries.map Job.requestHash).Nodup

theorem Keyed.empty : MemoryStore.empty.Keyed := ⟨List.nodup_nil, List.nodup_nil⟩

theorem existing_none_iff {input : NewJob} : s.existing input = none ↔ ∀ job ∈ s.jobs.entries,
    job.id ≠ input.id ∧ job.idempotencyKey ≠ input.idempotencyKey ∧
      job.requestHash ≠ input.requestHash := by
  rw [existing, Option.or_eq_none_iff, get, KeyedList.get?_eq_none, List.find?_eq_none]
  simp only [List.mem_map, not_exists, not_and, decide_eq_true_eq, not_or]
  exact ⟨fun h job hjob ↦ ⟨h.1 job hjob, h.2 job hjob⟩,
    fun h ↦ ⟨fun job hjob ↦ (h job hjob).1, fun job hjob ↦ (h job hjob).2⟩⟩

theorem existing_shares {input : NewJob} {job : Job} (h : s.existing input = some job) :
    job ∈ s.jobs.entries ∧ (job.id = input.id ∨ job.idempotencyKey = input.idempotencyKey ∨
      job.requestHash = input.requestHash) := by
  obtain hget | ⟨_, hfind⟩ := Option.or_eq_some_iff.mp h
  · exact ⟨mem_of_get hget, .inl (id_of_get hget)⟩
  · exact ⟨List.mem_of_find?_eq_some hfind, .inr (by simpa using List.find?_some hfind)⟩

theorem Keyed.created (h : s.Keyed) {input : NewJob} (hnone : s.existing input = none) :
    Keyed { s with jobs := s.jobs.set input.job } := by
  have hnew := existing_none_iff.mp hnone
  have hold : s.jobs.get? input.job.id = none := (Option.or_eq_none_iff.mp hnone).1
  refine ⟨KeyedList.nodup_map_set h.idempotencyKey (fun _ hmem ↦ ?_) (by simp [hold]),
    KeyedList.nodup_map_set h.requestHash (fun _ hmem ↦ ?_) (by simp [hold])⟩
  · obtain ⟨job, hjob, heq⟩ := List.mem_map.mp hmem
    exact (hnew job hjob).2.1 heq
  · obtain ⟨job, hjob, heq⟩ := List.mem_map.mp hmem
    exact (hnew job hjob).2.2 heq

theorem Keyed.replaced (h : s.Keyed) {job next : Job} (hjob : s.get next.id = some job)
    (hkey : next.idempotencyKey = job.idempotencyKey) (hhash : next.requestHash = job.requestHash) :
    Keyed { s with jobs := s.jobs.set next } := by
  refine ⟨KeyedList.nodup_map_set h.idempotencyKey (fun hnone ↦ ?_) fun old hold ↦ ?_,
    KeyedList.nodup_map_set h.requestHash (fun hnone ↦ ?_) fun old hold ↦ ?_⟩
  · exact absurd (hnone.symm.trans hjob) (by simp)
  · rw [Option.some.inj (hold.symm.trans hjob), hkey]
  · exact absurd (hnone.symm.trans hjob) (by simp)
  · rw [Option.some.inj (hold.symm.trans hjob), hhash]

theorem Keyed.exec (h : s.Keyed) (now : JsString) (call : StoreCall) : (s.exec now call).2.Keyed := by
  cases call with
  | createOrGet input =>
    simp only [MemoryStore.exec, createOrGet]
    split
    · split
      · exact h
      · exact h
    · next hnone =>
      split
      · exact h
      · next job hnew =>
        obtain ⟨_, rfl⟩ := newJob_eq_ok.mp hnew
        exact h.created hnone
  | get _ => exact h
  | getByIdempotencyKey _ => exact h
  | consumeCapability reservation =>
    simp only [MemoryStore.exec, consumeCapability]
    split
    · exact h
    · exact ⟨h.idempotencyKey, h.requestHash⟩
  | transition id expected patch =>
    simp only [MemoryStore.exec, transition]
    split
    · exact h
    · next job hget =>
      split
      · exact h
      · split
        · exact h
        · next next htransition =>
          obtain ⟨rfl, _⟩ := Job.transition_eq_ok htransition
          exact h.replaced ((congrArg s.get (id_of_get hget)).trans hget) rfl rfl
  | reserveDust id reservationId =>
    simp only [MemoryStore.exec, reserveDust]
    split
    · exact h
    · next job hget =>
      split
      · exact h
      · exact h.replaced ((congrArg s.get (id_of_get hget)).trans hget) rfl rfl
  | listRecoverable => exact h

end MemoryStore

/-! ## Steps of a service -/

section Service

variable {ρ : Type} (cfg : Config ρ)

/-- The shared state after a call of the store. -/
abbrev served (s : Shared ρ) (c : StoreFrame) (now : JsString) (fault : Fault) : Shared ρ :=
  { s with store := (serve cfg c now fault s.store).2 }

theorem serve_change (s : MemoryStore) (c : StoreFrame) (now : JsString) (fault : Fault)
    (id : JsString) :
    JobChange s now (c.call cfg.sha256) id (s.get id) ((serve cfg c now fault s).2.get id) := by
  cases fault with
  | none => exact s.exec_change now _ id
  | replyLost => exact s.exec_change now _ id
  | refused => exact .same _ _ _

variable {cfg} in
/-- Only a call without a fault has a reply. -/
theorem fault_of_ok {s : MemoryStore} {c : StoreFrame} {now : JsString} {fault : Fault}
    {r : (c.call cfg.sha256).Answer} (h : (serve cfg c now fault s).1 = .ok r) : fault = .none := by
  cases fault with
  | none => rfl
  | replyLost => cases h
  | refused => cases h

theorem serve_capabilities (s : MemoryStore) (c : StoreFrame) (now : JsString) (fault : Fault) :
    (serve cfg c now fault s).2.capabilities = s.capabilities ∨
      ∃ reservation, c.call cfg.sha256 = .consumeCapability reservation ∧
        s.capabilities.get? reservation.digest = none ∧
        (serve cfg c now fault s).2.capabilities = s.capabilities.set reservation := by
  cases fault with
  | none => exact s.exec_capabilities now _
  | replyLost => exact s.exec_capabilities now _
  | refused => exact Or.inl rfl

/-- The parts of methods, with what they observe. -/
inductive Part (m : Memory) :
    Frame cfg.sha256 → Input ρ → List (Observation ρ) → Next cfg.sha256 → Prop
  | resumed (c : StoreFrame) (reply : Except StoreError (c.call cfg.sha256).Answer) (uuid : JsString) :
    Part m (.ready c reply) (.resume uuid) ((resume m uuid c reply).calls.map .executor)
      (resume m uuid c reply)
  | balanced (id : JsString) (pending : Transient) (result : Except Unit (JsString × Option JsString)) :
    Part m (.external (.balanceAndFinalize id pending)) (.balanced result) []
      (walletBalanced m id pending result)
  | submitted (id finalized : JsString) (derivedId : Option JsString)
      (result : Except Unit JsString) :
    Part m (.external (.submit id finalized derivedId)) (.submitted result) []
      (walletSubmitted m id derivedId result)
  | indexed (reader : Option Reader) (id : JsString) (job : Job) (raw : ρ) :
    Part m (.external (.resolve reader id job)) (.indexed raw) [.indexed id job.query raw]
      (reconcileResolved m reader id job (cfg.resolve job.query raw))

theorem advance_cases {f f' : Frame cfg.sha256} {i : Input ρ} {s s' : Shared ρ} {m m' : Memory}
    (h : advance cfg f i s m = some (s', m', f')) :
    (∃ c now fault, f = .waiting c ∧ i = .serve now fault ∧ m' = m ∧
      f' = .ready c (serve cfg c now fault s.store).1 ∧ s' = served cfg s c now fault) ∨
    (∃ observations next, Part cfg m f i observations next ∧ s' = s.record observations ∧
      m' = next.memory ∧ f' = next.frame) := by
  cases f with
  | waiting c =>
    cases i <;> simp only [advance, reduceCtorEq] at h
    cases h
    exact Or.inl ⟨_, _, _, rfl, rfl, rfl, rfl, rfl⟩
  | ready c reply =>
    cases i <;> simp only [advance, reduceCtorEq] at h
    cases h
    exact Or.inr ⟨_, _, .resumed c reply _, rfl, rfl, rfl⟩
  | external x =>
    cases x <;> cases i <;> simp only [advance, answered, Option.map_none, Option.map_some,
      reduceCtorEq] at h
    all_goals cases h
    · exact Or.inr ⟨_, _, .balanced _ _ _, rfl, rfl, rfl⟩
    · exact Or.inr ⟨_, _, .submitted _ _ _ _, rfl, rfl, rfl⟩
    · exact Or.inr ⟨_, _, .indexed _ _ _ _, rfl, rfl, rfl⟩
  | done outcome => cases i <;> simp only [advance, reduceCtorEq] at h

/-- A step changes the store only when the store executes a call. -/
theorem step_store {w w' : World cfg} {e : Tasks.Event (Input ρ)}
    (h : Tasks.step (service cfg) w e = .ok w') : w'.shared.store = w.shared.store ∨
      ∃ t p c now fault, e = .advance t (.serve now fault) ∧ w.tasks t = some (p, .waiting c) ∧
        w'.shared.store = (serve cfg c now fault w.shared.store).2 := by
  cases e with
  | spawn p t i =>
    obtain ⟨m, f, _, _, rfl⟩ := Tasks.step_spawn h
    exact Or.inl rfl
  | tick p i =>
    obtain ⟨m, _, rfl⟩ := Tasks.step_tick h
    exact Or.inl rfl
  | advance t i =>
    obtain ⟨p, f, s, m, f', htask, hadvance, rfl⟩ := Tasks.step_advance h
    obtain ⟨c, now, fault, rfl, rfl, rfl, rfl, rfl⟩ | ⟨observations, next, _, rfl, rfl, rfl⟩ :=
      advance_cases cfg hadvance
    · exact Or.inr ⟨t, p, c, now, fault, rfl, htask, rfl⟩
    · exact Or.inl rfl
  | crash p =>
    obtain rfl := Except.ok.inj h
    exact Or.inl rfl

/-- The observations of a step are added to the log. -/
theorem step_log {w w' : World cfg} {e : Tasks.Event (Input ρ)}
    (h : Tasks.step (service cfg) w e = .ok w') : w.shared.log <+: w'.shared.log := by
  cases e with
  | spawn p t i =>
    obtain ⟨m, f, _, _, rfl⟩ := Tasks.step_spawn h
    exact List.prefix_rfl
  | tick p i =>
    obtain ⟨m, _, rfl⟩ := Tasks.step_tick h
    exact List.prefix_rfl
  | advance t i =>
    obtain ⟨p, f, s, m, f', _, hadvance, rfl⟩ := Tasks.step_advance h
    obtain ⟨c, now, fault, rfl, rfl, rfl, rfl, rfl⟩ | ⟨observations, next, _, rfl, rfl, rfl⟩ :=
      advance_cases cfg hadvance
    · exact List.prefix_rfl
    · exact List.prefix_append _ _
  | crash p =>
    obtain rfl := Except.ok.inj h
    exact List.prefix_rfl

theorem after_log (pre post : List (Tasks.Event (Input ρ))) :
    (after cfg pre).shared.log <+: (after cfg (pre ++ post)).shared.log := by
  rw [after, after, Tasks.runEvents, Tasks.runEvents, Execution.run_append]
  exact Execution.run_relation (R := fun w w' : World cfg ↦ w.shared.log <+: w'.shared.log)
    (fun _ ↦ List.prefix_rfl) List.IsPrefix.trans (fun _ _ _ h ↦ step_log cfg h) _ post

/-! ## Invariants of the services -/

abbrev Event (ρ : Type) := Tasks.Event (Input ρ)

abbrev Invariant := Tasks.Invariant (Shared ρ) Memory (Frame cfg.sha256)

/-- What the steps of the services have to keep. -/
structure Keeps (P : World cfg → Event ρ → Prop) (I : Invariant cfg) : Prop where
  symm : ∀ {f g}, I.apart f g → I.apart g f
  fresh : ∀ {s}, I.shared s → I.memory s .fresh
  spawn : ∀ {w p t i m f}, I.Holds w → P w (.spawn p t i) →
    spawn cfg i (w.memory p) = some (m, f) → I.memory w.shared m ∧ I.task w.shared f ∧
      ∀ {u q g}, w.tasks u = some (q, g) → I.apart f g
  tick : ∀ {w p i m}, I.Holds w → P w (.tick p i) → tick i (w.memory p) = some m →
    I.memory w.shared m
  serve : ∀ {w t p c now fault}, I.Holds w → P w (.advance t (.serve now fault)) →
    w.tasks t = some (p, .waiting c) →
    I.shared (served cfg w.shared c now fault) ∧
      I.task (served cfg w.shared c now fault) (.ready c (serve cfg c now fault w.shared.store).1) ∧
      (∀ {m}, I.memory w.shared m → I.memory (served cfg w.shared c now fault) m) ∧
      ∀ {u q g}, u ≠ t → w.tasks u = some (q, g) → I.task (served cfg w.shared c now fault) g ∧
        I.apart (.ready c (serve cfg c now fault w.shared.store).1) g
  part : ∀ {w t p f i observations next}, I.Holds w → P w (.advance t i) →
    w.tasks t = some (p, f) → Part cfg (w.memory p) f i observations next →
    I.shared (w.shared.record observations) ∧
      I.memory (w.shared.record observations) next.memory ∧
      I.task (w.shared.record observations) next.frame ∧
      (∀ {m}, I.memory w.shared m → I.memory (w.shared.record observations) m) ∧
      ∀ {u q g}, u ≠ t → w.tasks u = some (q, g) → I.task (w.shared.record observations) g ∧
        I.apart next.frame g

variable {cfg}

theorem Keeps.kept {P : World cfg → Event ρ → Prop} {I : Invariant cfg} (h : Keeps cfg P I) :
    I.Kept (service cfg) P where
  symm := h.symm
  fresh := h.fresh
  spawn := h.spawn
  tick := h.tick
  advance := by
    intro w t i p f s m f' hI hP htask hadvance
    obtain ⟨c, now, fault, rfl, rfl, rfl, rfl, rfl⟩ | ⟨observations, next, hpart, rfl, rfl, rfl⟩ :=
      advance_cases cfg hadvance
    · obtain ⟨hshared, hframe, hmemory, hothers⟩ := h.serve hI hP htask
      exact ⟨hshared, hmemory (hI.memory p), hframe, hmemory, hothers⟩
    · exact h.part hI hP htask hpart

/-- **The rule for runs of the services.** -/
theorem Keeps.after {P : World cfg → Event ρ → Prop} {I : Invariant cfg} (h : Keeps cfg P I)
    (hinit : I.shared ⟨.empty, []⟩) (es : List (Event ρ))
    (hP : ∀ e ∈ Execution.accepted (Tasks.step (service cfg)) (init cfg) es, P e.1 e.2) :
    I.Holds (Relayer.after cfg es) :=
  h.kept.run (h.kept.start hinit) es hP

end Service

end MidnightReferendum.Relayer
