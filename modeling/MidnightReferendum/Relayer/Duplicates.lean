import MidnightReferendum.Relayer.Capabilities

/-!
# Exact retries

Concurrent calls of `accept` with the same body under the same capability. The first of them creates the
job and consumes the capability in two steps, and between them a retry may consume it.
-/

namespace MidnightReferendum.Relayer

open Js

variable {ρ : Type} {cfg : Config ρ}

/-- What a store compares of a request or of a job. -/
structure Identity where
  id : JsString
  idempotencyKey : JsString
  requestHash : JsString
  capabilityDigest : JsString
  deriving DecidableEq

def Job.identity (job : Job) : Identity :=
  ⟨job.id, job.idempotencyKey, job.requestHash, job.capabilityDigest⟩

def AcceptCall.identity (sha256 : JsString → JsString) (a : AcceptCall) : Identity :=
  ⟨a.request.actionId, a.request.idempotencyKey, a.requestHash sha256, a.capabilityDigest⟩

/-- Two identities have nothing in common. -/
structure Identity.Disjoint (i j : Identity) : Prop where
  id : i.id ≠ j.id
  idempotencyKey : i.idempotencyKey ≠ j.idempotencyKey
  requestHash : i.requestHash ≠ j.requestHash
  capabilityDigest : i.capabilityDigest ≠ j.capabilityDigest

theorem Identity.Disjoint.ne {i j : Identity} (h : i.Disjoint j) : i ≠ j :=
  fun heq ↦ h.id (congrArg Identity.id heq)

/-- The same as the retried identity, or disjoint from it. -/
def Identity.Separates (r i : Identity) : Prop := i = r ∨ i.Disjoint r

/-- A call and the job it works with are on the same side of the retried identity. -/
def Agrees (sha256 : JsString → JsString) (r : Identity) (a : AcceptCall) (existing : Job) : Prop :=
  (a.identity sha256 = r ∧ existing.identity = r) ∨
    ((a.identity sha256).Disjoint r ∧ existing.identity.Disjoint r)

theorem Job.SameRequest.identity {job next : Job} (h : job.SameRequest next) :
    next.identity = job.identity := by
  simp [Job.identity, h.id, h.idempotencyKey, h.requestHash, h.capabilityDigest]

/-- A call and a job that share part of their identity are on the same side. -/
theorem Identity.Separates.agrees {sha256 : JsString → JsString} {r : Identity} {a : AcceptCall}
    {existing : Job} (ha : r.Separates (a.identity sha256)) (hjob : r.Separates existing.identity)
    (h : ¬existing.identity.Disjoint (a.identity sha256)) : Agrees sha256 r a existing := by
  rcases ha with ha | ha
  · refine Or.inl ⟨ha, hjob.resolve_right ?_⟩
    rwa [← ha]
  · refine Or.inr ⟨ha, hjob.resolve_left fun heq ↦ h ?_⟩
    rw [heq]
    exact ⟨ha.id.symm, ha.idempotencyKey.symm, ha.requestHash.symm, ha.capabilityDigest.symm⟩

section Frames

variable {sha256 : JsString → JsString} (r : Identity)

/-- What the calls of `accept` know about the job they have found, and that no retry is rejected. -/
def Frame.Trusted : Frame sha256 → Prop
  | .waiting (.acceptCreate a) => r.Separates (a.identity sha256)
  | .ready (.acceptCreate a) (.ok (existing, _)) => Agrees sha256 r a existing
  | .ready (.acceptCreate a) (.error (.conflict _)) => (a.identity sha256).Disjoint r
  | .waiting (.acceptByKey a existing _) => Agrees sha256 r a existing
  | .ready (.acceptByKey a existing _) (.ok byKey) => Agrees sha256 r a existing ∧
    (a.identity sha256 = r → ∀ job, byKey = some job → job.identity = r)
  | .waiting (.acceptConsume a existing) => Agrees sha256 r a existing
  | .ready (.acceptConsume a existing) (.ok consumed) => Agrees sha256 r a existing ∧
    (a.identity sha256 = r → consumed = true)
  | .waiting (.acceptReconsume a existing) => Agrees sha256 r a existing
  | .waiting (.acceptReplayed a existing) =>
    (a.identity sha256).Disjoint r ∧ existing.identity.Disjoint r
  | .ready (.acceptReplayed a _) _ => (a.identity sha256).Disjoint r
  | .done (.rejected a _) => (a.identity sha256).Disjoint r
  | .waiting (.reconcileReject _ _ code) => code ≠ .capabilityReplayed
  | _ => True

/-- A call that has created its job and has still to consume its capability. -/
def Frame.creating : Frame sha256 → Option AcceptCall
  | .ready (.acceptCreate a) (.ok (_, true)) => some a
  | .waiting (.acceptByKey a _ true) | .ready (.acceptByKey a _ true) (.ok _) => some a
  | .waiting (.acceptConsume a _) => some a
  | _ => none

variable {r}

theorem Frame.quiet_trusted {f : Frame sha256} (h : f.quiet) (r : Identity) :
    f.Trusted r ∧ f.creating = none := by
  unfold Frame.quiet at h
  split at h
  all_goals first
    | exact ⟨trivial, rfl⟩
    | cases h
  next outcome hne =>
    cases outcome with
    | rejected a e => exact absurd rfl (hne a e)
    | _ => exact ⟨trivial, rfl⟩

theorem not_identity_of_conflict {a : AcceptCall} {byKey : Option Job}
    (h : (byKey.any fun job ↦ job.requestHash ≠ a.requestHash sha256 ||
      job.capabilityDigest ≠ a.capabilityDigest) = true) :
    ∃ job, byKey = some job ∧ job.identity ≠ a.identity sha256 := by
  cases byKey with
  | none => cases h
  | some job =>
    refine ⟨job, rfl, fun heq ↦ ?_⟩
    have hhash : job.requestHash = a.requestHash sha256 := congrArg Identity.requestHash heq
    have hdigest : job.capabilityDigest = a.capabilityDigest := congrArg Identity.capabilityDigest heq
    simp [hhash, hdigest] at h

theorem resume_trusted (m : Memory) (uuid : JsString) (c : StoreFrame)
    (reply : Except StoreError (c.call sha256).Answer) (h : (Frame.ready c reply).Trusted r) :
    (resume m uuid c reply).frame.Trusted r := by
  cases hc : c.loud with
  | false => exact (Frame.quiet_trusted (resume_quiet m hc uuid reply).frame r).1
  | true =>
    cases c <;> try cases hc
    case true.acceptCreate a =>
      rcases reply with e | ⟨existing, created⟩
      · cases e with
        | conflict message => exact h
        | _ => trivial
      · have hagrees : Agrees sha256 r a existing := h
        simp only [resume, acceptCreated]
        split
        · next hne =>
          rcases hagrees with ⟨ha, hexisting⟩ | ⟨ha, _⟩
          · have heq : existing.identity = a.identity sha256 := hexisting.trans ha.symm
            exact absurd (congrArg Identity.requestHash heq) hne
          · exact ha
        · exact hagrees
    case true.acceptByKey a existing created =>
      rcases reply with e | byKey
      · trivial
      · obtain ⟨hagrees, hbyKey⟩ : Agrees sha256 r a existing ∧
          (a.identity sha256 = r → ∀ job, byKey = some job → job.identity = r) := h
        simp only [resume, acceptFoundByKey]
        split
        · next hconflict =>
          obtain ⟨job, hjob, hne⟩ := not_identity_of_conflict hconflict
          rcases hagrees with ⟨ha, _⟩ | ⟨ha, _⟩
          · exact absurd ((hbyKey ha job hjob).trans ha.symm) hne
          · exact ha
        · split
          · exact hagrees
          · split
            · exact hagrees
            · trivial
    case true.acceptConsume a existing =>
      rcases reply with e | consumed
      · trivial
      · obtain ⟨hagrees, hconsumed⟩ : Agrees sha256 r a existing ∧
          (a.identity sha256 = r → consumed = true) := h
        cases consumed with
        | true => trivial
        | false =>
          rcases hagrees with ⟨ha, _⟩ | ⟨ha, hexisting⟩
          · cases hconsumed ha
          · exact ⟨ha, hexisting⟩
    case true.acceptReplayed a existing =>
      rcases reply with e | _
      · trivial
      · exact h
    case true.acceptReconsume a existing =>
      rcases reply with e | _
      · trivial
      · trivial
    all_goals
      simp only [resume, walletFound, walletValidated, walletReserved, walletClosed, walletFinalized,
        walletIntended, walletAwaitsIndexer]
      repeat' split
      all_goals trivial

theorem resume_creating (m : Memory) (uuid : JsString) (c : StoreFrame)
    (reply : Except StoreError (c.call sha256).Answer) {a : AcceptCall}
    (h : (resume m uuid c reply).frame.creating = some a) : (Frame.ready c reply).creating = some a := by
  cases hc : c.loud with
  | false => simp [(Frame.quiet_trusted (resume_quiet m hc uuid reply).frame (a.identity sha256)).2] at h
  | true =>
    cases c <;> try cases hc
    case true.acceptCreate a' =>
      rcases reply with e | ⟨existing, created⟩
      · cases e <;> cases h
      · simp only [resume, acceptCreated] at h
        split at h
        · cases h
        · cases created with
          | true => exact h
          | false => cases h
    case true.acceptByKey a' existing created =>
      rcases reply with e | byKey
      · cases h
      · simp only [resume, acceptFoundByKey] at h
        split at h
        · cases h
        · split at h
          · next hcreated =>
            subst hcreated
            exact h
          · split at h <;> cases h
    all_goals
      simp only [resume, acceptConsumed, acceptReconsumed, acceptFailed, accepted, walletFound,
        walletValidated, walletReserved, walletClosed, walletFinalized, walletIntended,
        walletAwaitsIndexer] at h
      repeat' split at h
      all_goals cases h

/-- The parts of the methods keep what their calls know. -/
theorem Part.trusted {m : Memory} {f : Frame cfg.sha256} {i : Input ρ}
    {observations : List (Observation ρ)} {next : Next cfg.sha256}
    (h : Part cfg m f i observations next) {r : Identity} (hf : f.Trusted r) :
    next.frame.Trusted r := by
  cases h with
  | resumed c reply uuid => exact resume_trusted m uuid c reply hf
  | balanced id pending result =>
    rcases result with _ | ⟨finalized, derivedId⟩
    · trivial
    · trivial
  | submitted id finalized derivedId result =>
    simp only [walletSubmitted]
    repeat' split
    all_goals trivial
  | indexed reader id job raw =>
    simp only [reconcileResolved]
    split
    · trivial
    · trivial
    · simp [Memory.await, Frame.Trusted]
    · simp [Memory.await, Frame.Trusted]
    · trivial

theorem Part.creating {m : Memory} {f : Frame cfg.sha256} {i : Input ρ}
    {observations : List (Observation ρ)} {next : Next cfg.sha256}
    (h : Part cfg m f i observations next) {a : AcceptCall} (ha : next.frame.creating = some a) :
    f.creating = some a := by
  cases h with
  | resumed c reply uuid => exact resume_creating m uuid c reply ha
  | balanced id pending result => rcases result with _ | ⟨finalized, derivedId⟩ <;> cases ha
  | submitted id finalized derivedId result =>
    simp only [walletSubmitted] at ha
    repeat' split at ha
    all_goals cases ha
  | indexed reader id job raw =>
    simp only [reconcileResolved] at ha
    split at ha
    all_goals cases ha

end Frames

/-! ## Calls of the store -/

/-- The jobs of the store on one side or the other of a retried identity. -/
structure Retried (r : Identity) (s : MemoryStore) : Prop where
  separates : ∀ {id job}, s.get id = some job → r.Separates job.identity
  consumed : ∀ {reservation}, s.capabilities.get? r.capabilityDigest = some reservation →
    ∃ job, s.get r.id = some job
  unfailed : ∀ {job}, s.get r.id = some job → job.errorCode ≠ some .capabilityReplayed

/-- The job exists, and its capability has still to be consumed. -/
structure Unconsumed (r : Identity) (s : MemoryStore) : Prop where
  capability : s.capabilities.get? r.capabilityDigest = none
  created : ∃ job, s.get r.id = some job

/-- The job that `createOrGet` finds shares a part of its identity with the request. -/
theorem not_disjoint_of_existing {s : MemoryStore} {sha256 : JsString → JsString} {a : AcceptCall}
    {job : Job} (h : s.existing (a.jobInput sha256) = some job) :
    ¬job.identity.Disjoint (a.identity sha256) := by
  intro hdisjoint
  rcases Option.or_eq_some_iff.mp h with h | ⟨_, h⟩
  · exact hdisjoint.id (MemoryStore.id_of_get h)
  · have hfound := List.find?_some h
    simp only [decide_eq_true_eq] at hfound
    exact hfound.elim hdisjoint.idempotencyKey hdisjoint.requestHash

theorem bind_eq_error {ε α β : Type} {x : Except ε α} {f : α → Except ε β} {e : ε} :
    x >>= f = .error e ↔ x = .error e ∨ ∃ a, x = .ok a ∧ f a = .error e := by
  cases x <;> simp [bind, Except.bind]

theorem requireId_error {value : JsString} {label : String} {e : StoreError}
    (h : requireId value label = .error e) : ∃ message, e = .invalid message := by
  unfold requireId at h
  split at h <;> cases h
  exact ⟨_, rfl⟩

theorem requireDigest_error {value : JsString} {label : String} {e : StoreError}
    (h : requireDigest value label = .error e) : ∃ message, e = .invalid message := by
  unfold requireDigest at h
  split at h <;> cases h
  exact ⟨_, rfl⟩

theorem newJob_error {input : NewJob} {e : StoreError} (h : newJob input = .error e) :
    ∃ message, e = .invalid message := by
  simp only [newJob, bind_eq_error] at h
  obtain h | ⟨_, _, h | ⟨_, _, h | ⟨_, _, h | ⟨_, _, h | ⟨_, _, h | ⟨_, _, h | ⟨_, _, h | ⟨_, _, h⟩⟩⟩⟩⟩⟩⟩⟩ :=
    h
  · exact requireId_error h
  · exact requireId_error h
  · exact requireDigest_error h
  · exact requireDigest_error h
  · exact requireDigest_error h
  · exact requireId_error h
  · exact requireId_error h
  · exact requireId_error h
  · cases h

theorem createOrGet_conflict {s : MemoryStore} {input : NewJob} {message : String}
    (h : (s.createOrGet input).1 = .error (.conflict message)) :
    ∃ job, s.existing input = some job ∧ job.requestHash ≠ input.requestHash := by
  unfold MemoryStore.createOrGet at h
  split at h
  · next job hexisting =>
    split at h
    · next hne => exact ⟨job, hexisting, hne⟩
    · cases h
  · split at h
    · next e hnew =>
      obtain ⟨message, rfl⟩ := newJob_error hnew
      cases h
    · cases h

theorem consumeCapability_of_none {s : MemoryStore} {reservation : Reservation}
    (h : s.capabilities.get? reservation.digest = none) : (s.consumeCapability reservation).1 = true := by
  simp only [MemoryStore.consumeCapability, h]

section Serve

variable {r : Identity} {s : MemoryStore} {c : StoreFrame} (now : JsString) (fault : Fault)

theorem serve_trusted (hs : Retried r s) (hc : (Frame.waiting c : Frame cfg.sha256).Trusted r)
    (hopen : ∀ a, (Frame.waiting c : Frame cfg.sha256).creating = some a → a.identity cfg.sha256 = r →
      Unconsumed r s) : (Frame.ready c (serve cfg c now fault s).1 : Frame cfg.sha256).Trusted r := by
  generalize hreply : (serve cfg c now fault s).1 = reply
  cases c
  case acceptCreate a =>
    have ha : r.Separates (a.identity cfg.sha256) := hc
    rcases reply with e | ⟨existing, created⟩
    · cases e with
      | conflict message =>
        cases fault with
        | none =>
          obtain ⟨job, hexisting, hne⟩ := createOrGet_conflict hreply
          rcases ha.agrees (hs.separates (MemoryStore.get_of_mem (MemoryStore.existing_mem hexisting)))
            (not_disjoint_of_existing hexisting) with ⟨ha, hjob⟩ | ⟨ha, _⟩
          · exact absurd (congrArg Identity.requestHash (hjob.trans ha.symm)) hne
          · exact ha
        | replyLost => cases hreply
        | refused => cases hreply
      | _ => trivial
    · obtain rfl := fault_of_ok hreply
      rcases MemoryStore.createOrGet_reply hreply with ⟨_, hexisting, _⟩ | ⟨_, _, _, rfl, _⟩
      · exact ha.agrees (hs.separates (MemoryStore.get_of_mem (MemoryStore.existing_mem hexisting)))
          (not_disjoint_of_existing hexisting)
      · exact ha.imp (fun h ↦ ⟨h, h⟩) (fun h ↦ ⟨h, h⟩)
  case acceptByKey a existing created =>
    rcases reply with e | byKey
    · trivial
    · obtain rfl := fault_of_ok hreply
      refine ⟨hc, fun ha job hjob ↦ ?_⟩
      have hfind : s.jobs.entries.find? (fun job ↦ job.idempotencyKey = a.request.idempotencyKey) =
          some job := (Except.ok.inj hreply).trans hjob
      have hkey : job.idempotencyKey = a.request.idempotencyKey := by simpa using List.find?_some hfind
      refine (hs.separates (MemoryStore.get_of_mem (List.mem_of_find?_eq_some hfind))).resolve_right ?_
      intro hdisjoint
      exact hdisjoint.idempotencyKey (hkey.trans (congrArg Identity.idempotencyKey ha))
  case acceptConsume a existing =>
    rcases reply with e | consumed
    · trivial
    · obtain rfl := fault_of_ok hreply
      refine ⟨hc, fun ha ↦ ?_⟩
      have hnone := (hopen a rfl ha).capability
      rw [← ha] at hnone
      have hconsume : (s.consumeCapability (a.capabilityReservation cfg.sha256)).1 = consumed :=
        Except.ok.inj hreply
      rw [← hconsume]
      exact consumeCapability_of_none hnone
  case acceptReplayed a existing => exact hc.1
  all_goals trivial

theorem Frame.Trusted.agrees (hc : (Frame.waiting c : Frame cfg.sha256).Trusted r) {a : AcceptCall}
    {existing : Job} (h : (Frame.waiting c : Frame cfg.sha256).accepting = some (a, existing)) :
    Agrees cfg.sha256 r a existing := by
  cases c <;> cases h
  all_goals exact hc

/-- Only the replay of another request fails a job for its capability. -/
theorem serve_unfailed (hs : Retried r s) (hc : (Frame.waiting c : Frame cfg.sha256).Trusted r)
    {job : Job} (hjob : (serve cfg c now fault s).2.get r.id = some job) :
    job.errorCode ≠ some .capabilityReplayed := by
  have hchange := serve_change cfg s c now fault r.id
  have hunfailed : ∀ {old}, s.get r.id = some old → old.errorCode ≠ some .capabilityReplayed :=
    hs.unfailed
  rw [hjob] at hchange
  generalize hrid : r.id = id at hchange hunfailed
  generalize hold : s.get id = old at hchange
  generalize hcall : c.call cfg.sha256 = call at hchange
  cases hchange with
  | same => exact hunfailed hold
  | created => simp [NewJob.job]
  | moved =>
    have hunfailed := hunfailed hold
    cases c <;> simp only [StoreFrame.call, reduceCtorEq, StoreCall.transition.injEq] at hcall
    all_goals obtain ⟨hid, rfl, rfl⟩ := hcall
    case acceptReplayed a existing => exact absurd (hid.trans hrid.symm) hc.2.id
    case reconcileReject => simpa [Job.patch, Frame.Trusted] using hc
    all_goals first
      | exact hunfailed
      | simp [Job.patch]
  | reserved =>
    have hunfailed := hunfailed hold
    exact hunfailed

theorem Retried.serve (hs : Retried r s) (hc : (Frame.waiting c : Frame cfg.sha256).Trusted r)
    (hrecorded : ∀ a existing, (Frame.waiting c : Frame cfg.sha256).accepting = some (a, existing) →
      Recorded s existing) : Retried r (serve cfg c now fault s).2 where
  separates {id next} hnext := by
    have hstep := serve_step cfg s c now fault id
    rw [hnext] at hstep
    generalize hold : s.get id = old at hstep
    cases hstep with
    | same => exact hs.separates hold
    | created hcall =>
      subst hcall
      exact hc
    | moved _ hmoves _ =>
      rw [hmoves.same.identity]
      exact hs.separates hold
  consumed {reservation} hget := by
    have hgrows := MemoryStore.serve_grows (s := s) cfg c now fault
    have hkept : (∃ job, s.get r.id = some job) →
        ∃ job, (Relayer.serve cfg c now fault s).2.get r.id = some job := by
      rintro ⟨job, hjob⟩
      obtain ⟨next, hnext, _⟩ := hgrows.rank_le hjob
      exact ⟨next, hnext⟩
    rcases serve_capabilities cfg s c now fault with heq | ⟨new, hcall, _, heq⟩
    · rw [heq] at hget
      exact hkept (hs.consumed hget)
    · rw [heq, KeyedList.get?_set] at hget
      split at hget
      · next hdigest =>
        obtain ⟨a, existing, rfl, haccepting⟩ := call_consumeCapability hcall
        rcases hc.agrees haccepting with ⟨_, hexisting⟩ | ⟨ha, _⟩
        · obtain ⟨job, hjob, _⟩ := hrecorded a existing haccepting
          have hid : existing.id = r.id := congrArg Identity.id hexisting
          exact hkept ⟨job, by rwa [← hid]⟩
        · exact absurd hdigest ha.capabilityDigest
      · exact hkept (hs.consumed hget)
  unfailed hjob := serve_unfailed now fault hs hc hjob

/-- A capability stays unconsumed while neither its creator nor a retry consumes it. -/
theorem Unconsumed.serve (h : Unconsumed r s) (hc : (Frame.waiting c : Frame cfg.sha256).Trusted r)
    (hcreator : ∀ a existing, c = .acceptConsume a existing → a.identity cfg.sha256 ≠ r)
    (hretry : fault ≠ .refused → ∀ a existing, c = .acceptReconsume a existing →
      a.identity cfg.sha256 ≠ r) : Unconsumed r (serve cfg c now fault s).2 := by
  by_cases hrefused : fault = .refused
  · subst hrefused
    exact h
  obtain ⟨job, hjob⟩ := h.created
  obtain ⟨next, hnext, _⟩ := (MemoryStore.serve_grows cfg c now fault).rank_le hjob
  refine ⟨?_, next, hnext⟩
  rcases serve_capabilities cfg s c now fault with heq | ⟨new, hcall, _, heq⟩
  · rw [heq]
    exact h.capability
  · rw [heq, KeyedList.get?_set]
    split
    · next hdigest =>
      obtain ⟨a, existing, rfl, haccepting⟩ := call_consumeCapability hcall
      have ha : a.identity cfg.sha256 = r := by
        rcases hc.agrees haccepting with ⟨ha, _⟩ | ⟨ha, _⟩
        · exact ha
        · exact absurd hdigest ha.capabilityDigest
      cases c <;> simp only [StoreFrame.call, reduceCtorEq] at hcall
      all_goals cases haccepting
      · exact absurd ha (hcreator a existing rfl)
      · exact absurd ha (hretry hrefused a existing rfl)
    · exact h.capability

/-- A call becomes a creator when it finds no job. -/
theorem serve_creating (hs : Retried r s) {a : AcceptCall}
    (h : (Frame.ready c (serve cfg c now fault s).1 : Frame cfg.sha256).creating = some a)
    (ha : a.identity cfg.sha256 = r) :
    ((Frame.waiting c : Frame cfg.sha256).creating = some a ∧ (serve cfg c now fault s).2 = s) ∨
      (s.get r.id = none ∧ Unconsumed r (serve cfg c now fault s).2) := by
  generalize hreply : (serve cfg c now fault s).1 = reply at h
  cases c <;> try cases h
  case acceptCreate a' =>
    rcases reply with e | ⟨existing, created⟩
    · cases h
    · cases created <;> cases h
      obtain rfl := fault_of_ok hreply
      obtain ⟨hcreated, _⟩ | ⟨_, hnone, _, rfl, heq⟩ := MemoryStore.createOrGet_reply hreply
      · cases hcreated
      · have hid : s.get r.id = none := by
          rw [← ha]
          exact (Option.or_eq_none_iff.mp hnone).1
        have hcapability : s.capabilities.get? r.capabilityDigest = none := by
          by_contra hsome
          obtain ⟨reservation, hget⟩ := Option.ne_none_iff_exists'.mp hsome
          obtain ⟨job, hjob⟩ := hs.consumed hget
          rw [hid] at hjob
          cases hjob
        refine Or.inr ⟨hid, ?_⟩
        have hstore : (serve cfg (.acceptCreate a) now .none s).2 =
            { s with jobs := s.jobs.set (a.jobInput cfg.sha256).job } := heq
        rw [hstore]
        refine ⟨hcapability, (a.jobInput cfg.sha256).job, ?_⟩
        rw [MemoryStore.get_set, if_pos]
        exact congrArg Identity.id ha
  case acceptByKey a' existing created =>
    cases created <;> rcases reply with e | byKey <;> cases h
    obtain rfl := fault_of_ok hreply
    exact Or.inl ⟨rfl, rfl⟩

end Serve

/-! ## The invariant of the retries -/

/-- A step in which no retry consumes the capability of a job whose creator has still to consume it. -/
def RetryStep (r : Identity) (w : World cfg) (e : Event ρ) : Prop :=
  ∀ t p a existing now fault, e = .advance t (.serve now fault) →
    w.tasks t = some (p, .waiting (.acceptReconsume a existing)) → fault ≠ .refused →
    a.identity cfg.sha256 = r → ∀ u q g b, w.tasks u = some (q, g) → g.creating = some b →
      b.identity cfg.sha256 ≠ r

structure RetriedTask (r : Identity) (s : MemoryStore) (f : Frame cfg.sha256) : Prop where
  trusted : f.Trusted r
  creating : ∀ a, f.creating = some a → a.identity cfg.sha256 = r → Unconsumed r s

def retries (cfg : Config ρ) (r : Identity) : Invariant cfg where
  shared s := Retried r s.store
  memory _ _ := True
  task s f := RetriedTask r s.store f
  apart f g := ∀ a b, f.creating = some a → g.creating = some b → a.identity cfg.sha256 = r →
    b.identity cfg.sha256 ≠ r

theorem spawn_frame {i : Input ρ} {m m' : Memory} {f : Frame cfg.sha256}
    (h : spawn cfg i m = some (m', f)) : (∃ a, i = .accept a ∧ f = .waiting (.acceptCreate a)) ∨
      f.quiet ∨ ∃ id, f = .waiting (.walletRead id) := by
  simp only [spawn] at h
  repeat' split at h
  all_goals cases h
  · exact Or.inl ⟨_, rfl, rfl⟩
  all_goals first
    | exact Or.inr (Or.inl rfl)
    | exact Or.inr (Or.inr ⟨_, rfl⟩)

theorem retries_keeps (r : Identity) : Keeps cfg (fun w e ↦ (bytes cfg).Holds w ∧
    (∀ p t a, e = .spawn p t (.accept a) → r.Separates (a.identity cfg.sha256)) ∧ RetryStep r w e)
    (retries cfg r) where
  symm h a b ha hb hra hrb := h b a hb ha hrb hra
  fresh _ := trivial
  spawn {w p t i m f} _ hP hspawn := by
    have hf : f.Trusted r ∧ f.creating = none := by
      rcases spawn_frame hspawn with ⟨a, rfl, rfl⟩ | hquiet | ⟨id, rfl⟩
      · exact ⟨hP.2.1 p t a rfl, rfl⟩
      · exact Frame.quiet_trusted hquiet r
      · exact ⟨trivial, rfl⟩
    refine ⟨trivial, ⟨hf.1, fun a h ↦ ?_⟩, fun _ a b h ↦ ?_⟩
    · simp [hf.2] at h
    · simp [hf.2] at h
  tick _ _ _ := trivial
  serve {w t p c now fault} hI hP htask := by
    have hc : RetriedTask r w.shared.store (.waiting c : Frame cfg.sha256) := hI.task htask
    have hs : Retried r w.shared.store := hI.shared
    have hrecorded : ∀ a existing, (Frame.waiting c : Frame cfg.sha256).accepting = some (a, existing) →
        Recorded w.shared.store existing :=
      fun a existing h ↦ (BytesOf.accepting (hP.1.task htask) a existing h).2
    refine ⟨hs.serve now fault hc.trusted hrecorded,
      ⟨serve_trusted now fault hs hc.trusted hc.creating, fun a h ha ↦ ?_⟩, fun _ ↦ trivial,
      fun hut hu ↦ ⟨⟨(hI.task hu).trusted, fun b hb hrb ↦ ?_⟩, fun a b ha hb hra hrb ↦ ?_⟩⟩
    · rcases serve_creating now fault hs h ha with ⟨hwaiting, heq⟩ | ⟨_, hunconsumed⟩
      · have hunconsumed := hc.creating a hwaiting ha
        rwa [← heq] at hunconsumed
      · exact hunconsumed
    · refine ((hI.task hu).creating b hb hrb).serve now fault hc.trusted ?_ ?_
      · rintro a existing rfl ha
        exact hI.apart (Ne.symm hut) htask hu a b rfl hb ha hrb
      · rintro hrefused a existing rfl ha
        exact hP.2.2 t p a existing now fault rfl htask hrefused ha _ _ _ b hu hb hrb
    · rcases serve_creating now fault hs ha hra with ⟨hwaiting, _⟩ | ⟨hnone, _⟩
      · exact hI.apart (Ne.symm hut) htask hu a b hwaiting hb hra hrb
      · obtain ⟨job, hjob⟩ := ((hI.task hu).creating b hb hrb).created
        rw [hnone] at hjob
        cases hjob
  part {w t p f i observations next} hI _ htask hpart := by
    have hf : RetriedTask r w.shared.store f := hI.task htask
    refine ⟨hI.shared, trivial, ⟨hpart.trusted hf.trusted, fun a h ↦ hf.creating a (hpart.creating h)⟩,
      fun _ ↦ trivial, fun hut hu ↦ ⟨hI.task hu, fun a b ha hb ↦ ?_⟩⟩
    exact hI.apart (Ne.symm hut) htask hu a b (hpart.creating ha) hb

theorem retries_after {r : Identity} {es : List (Event ρ)}
    (hcalls : ∀ p t a, .spawn p t (.accept a) ∈ es → r.Separates (a.identity cfg.sha256))
    (h : ∀ e ∈ Execution.accepted (Tasks.step (service cfg)) (init cfg) es, RetryStep r e.1 e.2) :
    (retries cfg r).Holds (after cfg es) := by
  have hinit : Retried r MemoryStore.empty := by
    constructor
    · intro id job hjob
      cases hjob
    · intro reservation hget
      cases hget
    · intro job hjob
      cases hjob
  refine (retries_keeps r).after hinit es fun e he ↦ ⟨?_, ?_, h e he⟩
  · obtain ⟨pre, _, _, _, hstate, _⟩ := Execution.mem_accepted he
    rw [hstate]
    exact bytes_after pre
  · obtain ⟨pre, post, _, hsplit, _, _⟩ := Execution.mem_accepted he
    intro p t a heq
    exact hcalls p t a (by simp [hsplit, heq])

/-- The calls with an identity share one job, none of them is rejected, and the job has not failed for
its capability. -/
structure Idempotent (r : Identity) (w : World cfg) : Prop where
  unique : ∀ a ∈ w.shared.store.jobs.entries, ∀ b ∈ w.shared.store.jobs.entries,
    ¬a.identity.Disjoint r → ¬b.identity.Disjoint r → a = b
  answered : ∀ t p a error, w.tasks t = some (p, .done (.rejected a error)) →
    a.identity cfg.sha256 ≠ r
  unfailed : ∀ job ∈ w.shared.store.jobs.entries, job.identity = r →
    job.errorCode ≠ some .capabilityReplayed

theorem idempotent_of_retries {r : Identity} {w : World cfg} (h : (retries cfg r).Holds w) :
    Idempotent r w where
  unique a ha b hb hnota hnotb := by
    have hs : Retried r w.shared.store := h.shared
    have hra := (hs.separates (MemoryStore.get_of_mem ha)).resolve_right hnota
    have hrb := (hs.separates (MemoryStore.get_of_mem hb)).resolve_right hnotb
    exact KeyedList.eq_of_mem ha hb (congrArg Identity.id (hra.trans hrb.symm))
  answered t p a error htask ha := by
    have hdisjoint : (a.identity cfg.sha256).Disjoint r := RetriedTask.trusted (h.task htask)
    exact hdisjoint.ne ha
  unfailed job hjob hr := by
    have hs : Retried r w.shared.store := h.shared
    have hid : job.id = r.id := congrArg Identity.id hr
    exact hs.unfailed (by rw [← hid]; exact MemoryStore.get_of_mem hjob)

/-- A valid request that the store executes has a job. -/
theorem serve_created {s : MemoryStore} {r : Identity} (hs : Retried r s) {a : AcceptCall}
    (ha : a.identity cfg.sha256 = r) (hvalid : (a.jobInput cfg.sha256).Valid) {now : JsString}
    {fault : Fault} (hfault : fault ≠ .refused) :
    ∃ job, (serve cfg (.acceptCreate a) now fault s).2.get r.id = some job := by
  have hstore : (serve cfg (.acceptCreate a) now fault s).2 = (s.createOrGet (a.jobInput cfg.sha256)).2 := by
    cases fault with
    | none => rfl
    | replyLost => rfl
    | refused => exact absurd rfl hfault
  rw [hstore]
  cases hexisting : s.existing (a.jobInput cfg.sha256) with
  | some job =>
    have hmem := MemoryStore.existing_mem hexisting
    have hagrees : Agrees cfg.sha256 r a job := Identity.Separates.agrees (Or.inl ha)
      (hs.separates (MemoryStore.get_of_mem hmem)) (not_disjoint_of_existing hexisting)
    have hjob : job.identity = r := by
      rcases hagrees with ⟨_, hjob⟩ | ⟨hdisjoint, _⟩
      · exact hjob
      · exact absurd ha hdisjoint.ne
    have hsame : (s.createOrGet (a.jobInput cfg.sha256)).2 = s := by
      simp only [MemoryStore.createOrGet, hexisting]
      split <;> rfl
    have hid : job.id = r.id := congrArg Identity.id hjob
    rw [hsame, ← hid]
    exact ⟨job, MemoryStore.get_of_mem hmem⟩
  | none =>
    have hnew : newJob (a.jobInput cfg.sha256) = .ok (a.jobInput cfg.sha256).job :=
      newJob_eq_ok.mpr ⟨hvalid, rfl⟩
    simp only [MemoryStore.createOrGet, hexisting, hnew]
    refine ⟨(a.jobInput cfg.sha256).job, ?_⟩
    rw [MemoryStore.get_set, if_pos]
    exact congrArg Identity.id ha

/-- **Exact retries.** When no retry consumes the capability before the creator of the job, any number
of concurrent calls with the same body under the same capability are idempotent, and they create exactly
one job. -/
theorem exact_retry (cfg : Config ρ) (r : AcceptCall) (es : List (Event ρ))
    (hcalls : ∀ p t a, .spawn p t (.accept a) ∈ es →
      (r.identity cfg.sha256).Separates (a.identity cfg.sha256))
    (h : ∀ e ∈ Execution.accepted (Tasks.step (service cfg)) (init cfg) es,
      RetryStep (r.identity cfg.sha256) e.1 e.2) :
    Idempotent (r.identity cfg.sha256) (after cfg es) ∧
    ∀ e ∈ Execution.accepted (Tasks.step (service cfg)) (init cfg) es, ∀ t p a now fault,
      e.2 = .advance t (.serve now fault) → e.1.tasks t = some (p, .waiting (.acceptCreate a)) →
      a.identity cfg.sha256 = r.identity cfg.sha256 → (a.jobInput cfg.sha256).Valid →
      fault ≠ .refused → ∃! job, job ∈ (after cfg es).shared.store.jobs.entries ∧
        job.identity = r.identity cfg.sha256 := by
  have hidempotent := idempotent_of_retries (retries_after hcalls h)
  refine ⟨hidempotent, ?_⟩
  intro e he t p a now fault hevent htask ha hvalid hfault
  obtain ⟨pre, post, w', hsplit, hstate, hok⟩ := Execution.mem_accepted he
  have hpre : (retries cfg (r.identity cfg.sha256)).Holds (after cfg pre) := by
    refine retries_after (fun p t a hmem ↦ hcalls p t a ?_) fun e he ↦ h e ?_
    · rw [hsplit]
      exact List.mem_append_left _ hmem
    · rw [hsplit, Execution.accepted_append]
      exact List.mem_append_left _ he
  have hw' : after cfg (pre ++ [e.2]) = w' := by
    rw [after, Tasks.runEvents, Execution.run_concat, Execution.apply_of_ok]
    rwa [← hstate]
  have hcreated : ∃ job, w'.shared.store.get (r.identity cfg.sha256).id = some job := by
    rw [hevent] at hok
    obtain ⟨p', f, s, m, f', htask', hadvance, rfl⟩ := Tasks.step_advance hok
    rw [htask] at htask'
    cases htask'
    cases hadvance
    rw [hstate]
    exact serve_created hpre.shared ha hvalid hfault
  obtain ⟨job, hjob⟩ := hcreated
  have hgrows := after_grows cfg (pre ++ [e.2]) post
  rw [hw', List.append_assoc, List.singleton_append, ← hsplit] at hgrows
  obtain ⟨next, hnext, _⟩ := hgrows.rank_le hjob
  have hs : Retried (r.identity cfg.sha256) (after cfg es).shared.store := (retries_after hcalls h).shared
  have hidentity := (hs.separates hnext).resolve_right fun hdisjoint ↦
    hdisjoint.id (MemoryStore.id_of_get hnext)
  refine ⟨next, ⟨MemoryStore.mem_of_get hnext, hidentity⟩, ?_⟩
  rintro other ⟨hother, hrother⟩
  refine hidempotent.unique other hother next (MemoryStore.mem_of_get hnext) ?_ ?_
  · exact fun hdisjoint ↦ hdisjoint.ne hrother
  · exact fun hdisjoint ↦ hdisjoint.ne hidentity

/-! ## Sample runs -/

/-- No retry consumes a capability while one of the first `n` operations has still to consume it. -/
def retryWaits (r : Identity) (n : ℕ) (w : World cfg) : Event ρ → Bool
  | .advance t (.serve _ _) =>
    match w.tasks t with
    | some (_, .waiting (.acceptReconsume _ _)) => (List.range n).all fun u ↦
      !(w.tasks u).any fun task ↦ task.2.creating.any fun b ↦ b.identity cfg.sha256 = r
    | _ => true
  | _ => true

theorem RetryStep.of_retryWaits {r : Identity} {n : ℕ} {w : World cfg} {e : Event ρ}
    (h : retryWaits r n w e = true) (hnone : ∀ u, n ≤ u → w.tasks u = none) : RetryStep r w e := by
  intro t p a existing now fault he htask _ _ u q g b hu hb hrb
  subst he
  have hlt : u < n := by
    by_contra hge
    rw [hnone u (Nat.le_of_not_lt hge)] at hu
    cases hu
  have hcheck := List.all_eq_true.mp (by simpa only [retryWaits, htask] using h) u (List.mem_range.mpr hlt)
  simp [hu, hb, hrb] at hcheck

/-- A retry finds the job of the first call, which consumes its capability before the retry. -/
def retriedOnceRun : List SampleEvent :=
  .spawn 0 0 (.accept (sampleAccept "aaaa")) :: sampleCalls 0 1 ++
    .spawn 1 1 (.accept (sampleAccept "aaaa")) :: sampleCalls 1 2 ++ sampleCalls 0 2 ++ sampleCalls 1 1

/-- The retry consumes the capability first. -/
def retryFirstRun : List SampleEvent :=
  .spawn 0 0 (.accept (sampleAccept "aaaa")) :: sampleCalls 0 1 ++
    .spawn 1 1 (.accept (sampleAccept "aaaa")) :: sampleCalls 1 3 ++ sampleCalls 0 3

theorem exact_retry_sample : Idempotent ((sampleAccept "aaaa").identity sampleConfig.sha256)
    (after sampleConfig retriedOnceRun) := by
  have hcheck : (Execution.accepted (Tasks.step (service sampleConfig)) (init sampleConfig)
      retriedOnceRun).all (fun e ↦
        retryWaits ((sampleAccept "aaaa").identity sampleConfig.sha256) 2 e.1 e.2) = true := by
    decide +kernel
  have hspawns : ∀ p t i, .spawn p t i ∈ retriedOnceRun → t < 2 ∧ i = .accept (sampleAccept "aaaa") := by
    intro p t i hmem
    simp [retriedOnceRun, sampleCalls, List.replicate] at hmem
    rcases hmem with ⟨_, rfl, rfl⟩ | ⟨_, rfl, rfl⟩
    · exact ⟨by decide, rfl⟩
    · exact ⟨by decide, rfl⟩
  generalize retriedOnceRun = es at hcheck hspawns ⊢
  refine (exact_retry sampleConfig (sampleAccept "aaaa") es (fun p t a hmem ↦ ?_) fun e he ↦ ?_).1
  · obtain ⟨⟩ := (hspawns p t _ hmem).2
    exact Or.inl rfl
  · refine RetryStep.of_retryWaits (List.all_eq_true.mp hcheck e he) fun u hu ↦ ?_
    obtain ⟨pre, post, _, hsplit, hstate, _⟩ := Execution.mem_accepted he
    rw [hstate]
    refine Tasks.tasks_of_not_spawned fun p i hmem ↦ ?_
    have hlt := (hspawns p u i (by rw [hsplit]; exact List.mem_append_left _ hmem)).1
    omega

/-- The first call is answered with `capability_replayed`, and its job has failed. -/
theorem retry_consumes_first :
    ((after sampleConfig retryFirstRun).tasks 0).map (fun task ↦ task.2.outcome) =
        some (some (.rejected (sampleAccept "aaaa") wasConsumed)) ∧
      (after sampleConfig retryFirstRun).shared.store.jobs.entries.map
        (fun job ↦ (job.status, job.errorCode)) = [(.failed, some .capabilityReplayed)] ∧
      ¬Idempotent ((sampleAccept "aaaa").identity sampleConfig.sha256)
        (after sampleConfig retryFirstRun) := by
  have hanswer : ((after sampleConfig retryFirstRun).tasks 0).map (fun task ↦ task.2.outcome) =
      some (some (.rejected (sampleAccept "aaaa") wasConsumed)) := by
    decide +kernel
  have hjobs : (after sampleConfig retryFirstRun).shared.store.jobs.entries.map
      (fun job ↦ (job.status, job.errorCode)) = [(.failed, some .capabilityReplayed)] := by
    decide +kernel
  generalize after sampleConfig retryFirstRun = w at hanswer hjobs ⊢
  refine ⟨hanswer, hjobs, fun h ↦ ?_⟩
  obtain ⟨task, htask, houtcome⟩ := Option.map_eq_some_iff.mp hanswer
  obtain ⟨p, f⟩ := task
  cases f <;> cases houtcome
  exact h.answered 0 p _ _ htask rfl

end MidnightReferendum.Relayer
