import MidnightReferendum.Relayer.Steps

/-!
# The jobs of the store

What one call of a service does to a job, and the invariant of the jobs that follows from it: distinct
jobs have distinct request hashes and idempotency keys, and at most one job holds the DUST lease.
-/

namespace MidnightReferendum.Relayer

open Js

/-- The order in which a job goes through its statuses. -/
def Status.rank : Status → ℕ
  | .authorized => 0
  | .validated => 1
  | .dustReserved => 2
  | .finalized => 3
  | .submitted => 4
  | .indexerPending => 5
  | .confirmed | .failed | .recoveryRequired => 6

def Status.terminal : Status → Bool
  | .confirmed | .failed | .recoveryRequired => true
  | _ => false

theorem Status.rank_le (status : Status) : status.rank ≤ 6 := by
  cases status <;> simp [rank]

theorem Status.rank_of_terminal {status : Status} (h : status.terminal) : status.rank = 6 := by
  cases status <;> simp_all [rank, terminal]

/-- The fields of a job that no call changes. -/
structure Job.SameRequest (job next : Job) : Prop where
  id : next.id = job.id
  idempotencyKey : next.idempotencyKey = job.idempotencyKey
  capabilityDigest : next.capabilityDigest = job.capabilityDigest
  requestHash : next.requestHash = job.requestHash
  txDigest : next.txDigest = job.txDigest
  network : next.network = job.network
  contractAddress : next.contractAddress = job.contractAddress
  circuit : next.circuit = job.circuit
  action : next.action = job.action

theorem Job.SameRequest.refl (job : Job) : job.SameRequest job :=
  ⟨rfl, rfl, rfl, rfl, rfl, rfl, rfl, rfl, rfl⟩

theorem Job.SameRequest.trans {a b c : Job} (hab : a.SameRequest b) (hbc : b.SameRequest c) :
    a.SameRequest c where
  id := hbc.id.trans hab.id
  idempotencyKey := hbc.idempotencyKey.trans hab.idempotencyKey
  capabilityDigest := hbc.capabilityDigest.trans hab.capabilityDigest
  requestHash := hbc.requestHash.trans hab.requestHash
  txDigest := hbc.txDigest.trans hab.txDigest
  network := hbc.network.trans hab.network
  contractAddress := hbc.contractAddress.trans hab.contractAddress
  circuit := hbc.circuit.trans hab.circuit
  action := hbc.action.trans hab.action

/-- What a change of the status does to a job. -/
structure Job.Moves (job next : Job) : Prop where
  same : job.SameRequest next
  rank : job.status.rank < next.status.rank
  transitions : next.transitions = job.transitions ++ [next.status]
  transactionId : next.status ≠ .finalized → next.status ≠ .indexerPending →
    next.transactionId = job.transactionId
  receipt : next.status ≠ .confirmed → next.receipt = job.receipt
  confirmed : next.status = .confirmed → ∃ r, next.receipt = some r

/-- A patch that moves a job forward, from every expected status. -/
structure Patch.Advances (patch : Patch) (expected : List Status) (target : Status) : Prop where
  status : patch.status = some target
  rank : ∀ e ∈ expected, e.rank < target.rank
  active : target.active → ∀ e ∈ expected, e.active
  transactionId : target ≠ .finalized → target ≠ .indexerPending → patch.transactionId = none
  receipt : target ≠ .confirmed → patch.receipt = none
  confirmed : target = .confirmed → ∃ r, patch.receipt = some r

/-- The transitions that the services ask for. -/
theorem call_advances {sha256 : JsString → JsString} {c : StoreFrame} {id : JsString}
    {expected : List Status} {patch : Patch} (h : c.call sha256 = .transition id expected patch) :
    ∃ target, patch.Advances expected target := by
  cases c <;> simp only [StoreFrame.call, reduceCtorEq, StoreCall.transition.injEq] at h
  all_goals
    obtain ⟨-, rfl, rfl⟩ := h
    exact ⟨_, rfl, by decide, by decide, by simp, by simp, by simp⟩

theorem Patch.Advances.moves {patch : Patch} {expected : List Status} {target : Status}
    (h : patch.Advances expected target) {job : Job} (hexpected : job.status ∈ expected)
    (now : JsString) : job.Moves (job.patch patch now) := by
  have hrank := h.rank _ hexpected
  have hstatus : (job.patch patch now).status = target := by simp [Job.patch, h.status]
  constructor
  · exact ⟨rfl, rfl, rfl, rfl, rfl, rfl, rfl, rfl, rfl⟩
  · rw [hstatus]
    exact hrank
  · have hne : target ≠ job.status := fun heq ↦ by simp [heq] at hrank
    rw [hstatus]
    simp [Job.patch, h.status, hne]
  · rw [hstatus]
    intro hfinalized hpending
    simp [Job.patch, h.transactionId hfinalized hpending]
  · rw [hstatus]
    intro hconfirmed
    simp [Job.patch, h.receipt hconfirmed]
  · rw [hstatus]
    intro hconfirmed
    obtain ⟨r, hr⟩ := h.confirmed hconfirmed
    exact ⟨r, by simp [Job.patch, hr]⟩

theorem Job.reserve_moves {job : Job} (hstatus : job.status = .validated)
    (reservationId now : JsString) : job.Moves (job.reserve reservationId now) where
  same := ⟨rfl, rfl, rfl, rfl, rfl, rfl, rfl, rfl, rfl⟩
  rank := by simp [reserve, hstatus, Status.rank]
  transitions := rfl
  transactionId _ _ := rfl
  receipt _ := rfl
  confirmed h := by simp [reserve] at h

/-! ## One call -/

/-- What a call of a service changes at one id. -/
inductive JobStep (sha256 : JsString → JsString) (s : MemoryStore) (c : StoreFrame) (id : JsString) :
    Option Job → Option Job → Prop
  | same (job : Option Job) : JobStep sha256 s c id job job
  | created {a : AcceptCall} (hcall : c = .acceptCreate a) (hid : id = a.request.actionId)
      (hnone : s.existing (a.jobInput sha256) = none) (hvalid : (a.jobInput sha256).Valid) :
    JobStep sha256 s c id none (some (a.jobInput sha256).job)
  | moved {job next : Job} (hid : job.id = id) (hmoves : job.Moves next)
      (hlease : next.status.active → job.status.active ∨ s.leased id = false) :
    JobStep sha256 s c id (some job) (some next)

section Serve

variable {ρ : Type} (cfg : Config ρ) (s : MemoryStore) (c : StoreFrame) (now : JsString) (fault : Fault)

theorem call_createOrGet {input : NewJob} (h : c.call cfg.sha256 = .createOrGet input) :
    ∃ a, c = .acceptCreate a ∧ input = a.jobInput cfg.sha256 := by
  cases c <;> simp only [StoreFrame.call, reduceCtorEq, StoreCall.createOrGet.injEq] at h
  exact ⟨_, rfl, h.symm⟩

theorem serve_step (id : JsString) :
    JobStep cfg.sha256 s c id (s.get id) ((serve cfg c now fault s).2.get id) := by
  have hchange := serve_change cfg s c now fault id
  generalize (serve cfg c now fault s).2.get id = next at hchange ⊢
  generalize s.get id = job at hchange ⊢
  generalize hcall : c.call cfg.sha256 = call at hchange
  cases hchange with
  | same => exact .same _
  | created hnone hvalid =>
    obtain ⟨a, rfl, rfl⟩ := call_createOrGet cfg c hcall
    exact .created rfl rfl hnone hvalid
  | moved hexpected hid _ =>
    obtain ⟨target, hadvances⟩ := call_advances hcall
    have hmoves := hadvances.moves hexpected now
    refine .moved hid hmoves fun hactive ↦ Or.inl (hadvances.active ?_ _ hexpected)
    simpa [Job.patch, hadvances.status] using hactive
  | reserved hstatus hid hfree =>
    exact .moved hid (Job.reserve_moves hstatus _ _) fun _ ↦ Or.inr hfree

/-- A call changes the jobs of no two ids. -/
theorem serve_one {id id' : JsString} (hne : id ≠ id') :
    (serve cfg c now fault s).2.get id = s.get id ∨ (serve cfg c now fault s).2.get id' = s.get id' := by
  have h := serve_change cfg s c now fault id
  have h' := serve_change cfg s c now fault id'
  generalize (serve cfg c now fault s).2.get id = next at h ⊢
  generalize (serve cfg c now fault s).2.get id' = next' at h' ⊢
  generalize s.get id = job at h ⊢
  generalize s.get id' = job' at h' ⊢
  generalize c.call cfg.sha256 = call at h h'
  cases h with
  | same => exact Or.inl rfl
  | created hnone hvalid =>
    cases h' with
    | same => exact Or.inr rfl
    | created => exact absurd rfl hne
  | moved hexpected hid _ =>
    cases h' with
    | same => exact Or.inr rfl
    | moved => exact absurd rfl hne
  | reserved hstatus hid hfree =>
    cases h' with
    | same => exact Or.inr rfl
    | reserved => exact absurd rfl hne

end Serve

/-! ## The invariant of the jobs -/

namespace MemoryStore

/-- What holds of every two jobs of the store. -/
structure Distinct (s : MemoryStore) : Prop where
  requestHash : ∀ {id id' a b}, s.get id = some a → s.get id' = some b →
    a.requestHash = b.requestHash → id = id'
  idempotencyKey : ∀ {id id' a b}, s.get id = some a → s.get id' = some b →
    a.idempotencyKey = b.idempotencyKey → id = id'
  active : ∀ {id id' a b}, s.get id = some a → s.get id' = some b →
    a.status.active → b.status.active → id = id'

theorem Distinct.empty : MemoryStore.empty.Distinct := by
  constructor <;> intro id id' a b h <;> cases h

variable {s : MemoryStore}

theorem existing_eq_none {input : NewJob} (h : s.existing input = none) {id : JsString} {job : Job}
    (hjob : s.get id = some job) :
    job.idempotencyKey ≠ input.idempotencyKey ∧ job.requestHash ≠ input.requestHash := by
  have hfind := List.find?_eq_none.mp (Option.or_eq_none_iff.mp h).2 job (mem_of_get hjob)
  simpa using hfind

theorem leased_eq_false {id id' : JsString} {job : Job} (h : s.leased id = false)
    (hjob : s.get id' = some job) (hne : id' ≠ id) : ¬job.status.active := by
  have hall := List.any_eq_false.mp h job (mem_of_get hjob)
  rw [id_of_get hjob] at hall
  simpa [hne] using hall

variable {ρ : Type} (cfg : Config ρ) (c : StoreFrame) (now : JsString) (fault : Fault)

/-- A relation between two jobs that a call keeps, whichever of the two it changes. -/
theorem pair_serve {R : Job → Job → Prop} (hsymm : ∀ {a b}, R a b → R b a)
    (hold : ∀ {id id' a b}, s.get id = some a → s.get id' = some b → R a b → id = id')
    (hcreated : ∀ {a : AcceptCall} {id b}, s.existing (a.jobInput cfg.sha256) = none →
      s.get id = some b → ¬R (a.jobInput cfg.sha256).job b)
    (hmoved : ∀ {id id' job next b}, id ≠ id' → s.get id' = some b → job.Moves next →
      (next.status.active → job.status.active ∨ s.leased id = false) → R next b → R job b)
    {id id' : JsString} {a b : Job} (ha : (serve cfg c now fault s).2.get id = some a)
    (hb : (serve cfg c now fault s).2.get id' = some b) (hR : R a b) : id = id' := by
  have hleft : ∀ {id id' a b}, (serve cfg c now fault s).2.get id = some a → s.get id' = some b →
      id ≠ id' → ¬R a b := by
    intro id id' a b ha hb hne hR
    have hstep := serve_step cfg s c now fault id
    rw [ha] at hstep
    generalize hg : s.get id = job at hstep
    cases hstep with
    | same => exact hne (hold hg hb hR)
    | created _ _ hnone _ => exact hcreated hnone hb hR
    | moved _ hmoves hlease => exact hne (hold hg hb (hmoved hne hb hmoves hlease hR))
  by_contra hne
  rcases serve_one cfg s c now fault hne with h | h
  · rw [h] at ha
    exact hleft hb ha (Ne.symm hne) (hsymm hR)
  · rw [h] at hb
    exact hleft ha hb hne hR

theorem Distinct.serve (h : s.Distinct) : (serve cfg c now fault s).2.Distinct where
  requestHash := pair_serve cfg c now fault (R := fun a b ↦ a.requestHash = b.requestHash) Eq.symm
    h.requestHash (fun hnone hb heq ↦ (existing_eq_none hnone hb).2 heq.symm)
    (fun _ _ hmoves _ heq ↦ hmoves.same.requestHash.symm.trans heq)
  idempotencyKey := pair_serve cfg c now fault (R := fun a b ↦ a.idempotencyKey = b.idempotencyKey)
    Eq.symm h.idempotencyKey (fun hnone hb heq ↦ (existing_eq_none hnone hb).1 heq.symm)
    (fun _ _ hmoves _ heq ↦ hmoves.same.idempotencyKey.symm.trans heq)
  active ha hb hactive hactive' := pair_serve cfg c now fault
    (R := fun a b ↦ a.status.active ∧ b.status.active) And.symm
    (fun ha hb hR ↦ h.active ha hb hR.1 hR.2)
    (fun _ _ hR ↦ by simp [NewJob.job, Status.active] at hR)
    (fun hne hb _ hlease hR ↦ by
      refine ⟨(hlease hR.1).resolve_right fun hfree ↦ ?_, hR.2⟩
      exact leased_eq_false hfree hb (Ne.symm hne) hR.2)
    ha hb ⟨hactive, hactive'⟩

/-! ## What calls only add to -/

/-- No transaction id is known before a transaction is finalized. -/
def Unsent (s : MemoryStore) : Prop :=
  ∀ id job, s.get id = some job → job.status.rank ≤ 2 → job.transactionId = none

theorem Unsent.serve (h : s.Unsent) : (serve cfg c now fault s).2.Unsent := by
  intro id next hnext hrank
  have hstep := serve_step cfg s c now fault id
  rw [hnext] at hstep
  generalize hjob : s.get id = job at hstep
  cases hstep with
  | same => exact h id _ hjob hrank
  | created => rfl
  | moved _ hmoves _ =>
    have hfinalized : next.status ≠ .finalized := fun heq ↦ by simp [heq, Status.rank] at hrank
    have hpending : next.status ≠ .indexerPending := fun heq ↦ by simp [heq, Status.rank] at hrank
    rw [hmoves.transactionId hfinalized hpending]
    exact h id _ hjob (hmoves.rank.le.trans hrank)

/-- A later store: jobs keep their request and go forward, capabilities stay consumed. -/
structure Grows (s s' : MemoryStore) : Prop where
  jobs : ∀ {id job}, s.get id = some job → ∃ next, s'.get id = some next ∧ job.SameRequest next ∧
    (next = job ∨ job.status.rank < next.status.rank)
  capabilities : ∀ {digest reservation}, s.capabilities.get? digest = some reservation →
    s'.capabilities.get? digest = some reservation

theorem serve_grows : s.Grows (Relayer.serve cfg c now fault s).2 where
  jobs {id job} hjob := by
    have hstep := serve_step cfg s c now fault id
    rw [hjob] at hstep
    generalize (Relayer.serve cfg c now fault s).2.get id = next at hstep ⊢
    cases hstep with
    | same => exact ⟨job, rfl, .refl job, Or.inl rfl⟩
    | moved _ hmoves _ => exact ⟨_, rfl, hmoves.same, Or.inr hmoves.rank⟩
  capabilities {digest reservation} h := by
    rcases serve_capabilities cfg s c now fault with heq | ⟨r, _, hnone, heq⟩
    · rw [heq]
      exact h
    · have hne : r.digest ≠ digest := fun hd ↦ by simp [hd, h] at hnone
      rw [heq, KeyedList.get?_set_of_ne hne]
      exact h

/-- A job does not go back to an earlier status. -/
theorem Grows.rank_le {s' : MemoryStore} (h : s.Grows s') {id : JsString} {job : Job}
    (hjob : s.get id = some job) :
    ∃ next, s'.get id = some next ∧ job.SameRequest next ∧ job.status.rank ≤ next.status.rank := by
  obtain ⟨next, hnext, hsame, rfl | hrank⟩ := h.jobs hjob
  · exact ⟨next, hnext, hsame, le_rfl⟩
  · exact ⟨next, hnext, hsame, hrank.le⟩

theorem Grows.refl : s.Grows s where
  jobs {_ job} hjob := ⟨job, hjob, .refl job, Or.inl rfl⟩
  capabilities h := h

theorem Grows.trans {s' s'' : MemoryStore} (h : s.Grows s') (h' : s'.Grows s'') : s.Grows s'' where
  jobs {_ job} hjob := by
    obtain ⟨next, hnext, hsame, hrank⟩ := h.jobs hjob
    obtain ⟨last, hlast, hsame', hrank'⟩ := h'.jobs hnext
    refine ⟨last, hlast, hsame.trans hsame', ?_⟩
    rcases hrank with rfl | hrank
    · exact hrank'
    · rcases hrank' with rfl | hrank'
      · exact Or.inr hrank
      · exact Or.inr (hrank.trans hrank')
  capabilities hget := h'.capabilities (h.capabilities hget)

end MemoryStore

/-! ## Runs -/

section Runs

variable {ρ : Type} (cfg : Config ρ)

theorem step_grows {w w' : World cfg} {e : Event ρ} (h : Tasks.step (service cfg) w e = .ok w') :
    w.shared.store.Grows w'.shared.store := by
  rcases step_store cfg h with heq | ⟨t, p, c, now, fault, _, _, heq⟩
  · rw [heq]
    exact .refl
  · rw [heq]
    exact MemoryStore.serve_grows cfg c now fault

/-- Jobs and capabilities stay in the store. -/
theorem after_grows (pre post : List (Event ρ)) :
    (after cfg pre).shared.store.Grows (after cfg (pre ++ post)).shared.store := by
  rw [after, after, Tasks.runEvents, Tasks.runEvents, Execution.run_append]
  exact Execution.run_relation (R := fun w w' : World cfg ↦ w.shared.store.Grows w'.shared.store)
    (fun _ ↦ .refl) MemoryStore.Grows.trans (fun _ _ _ h ↦ step_grows cfg h) _ post

end Runs

end MidnightReferendum.Relayer
