import MidnightReferendum.Relayer.Postgres
import MidnightReferendum.Relayer.Steps
import MidnightReferendum.Systems.Simulation

/-!
# PostgreSQL in place of the store in memory

Under which conditions `PostgresV2ActionStore` answers every sequence of calls as
`InMemoryV2ActionStore` does, up to timestamps.
-/

namespace MidnightReferendum.Relayer

open Js

/-! ## Calls to both stores -/

/-- A job without its timestamps. -/
def Job.timeless (job : Job) : Job := { job with createdAt := [], updatedAt := [] }

theorem Job.requestHash_timeless (job : Job) : job.timeless.requestHash = job.requestHash := rfl

/-- An answer without timestamps. -/
def StoreCall.timeless : (call : StoreCall) → call.Answer → call.Answer
  | .createOrGet _, (job, created) => (job.timeless, created)
  | .get _, job => Option.map Job.timeless job
  | .getByIdempotencyKey _, job => Option.map Job.timeless job
  | .consumeCapability _, consumed => consumed
  | .transition _ _ _, job => Option.map Job.timeless job
  | .reserveDust _ _, job => Option.map Job.timeless job
  | .listRecoverable, jobs => List.map Job.timeless jobs

/-- A call, the clocks of the two stores and the order in which the rows of a query come. -/
structure StoreStep where
  call : StoreCall
  now : JsString
  instant : ℤ
  order : RowOrder

/-- Both stores return the same up to timestamps, or throw the same error. -/
def StoreStep.same (step : StoreStep) :
    Except StoreError step.call.Answer → Except PostgresError step.call.Answer → Prop
  | .ok a, .ok b => step.call.timeless a = step.call.timeless b
  | .error e, .error e' => e' = .thrown e
  | _, _ => False

theorem StoreStep.isOk_eq {step : StoreStep} {a : Except StoreError step.call.Answer}
    {b : Except PostgresError step.call.Answer} (h : step.same a b) : a.isOk = b.isOk := by
  cases a with
  | ok _ =>
    cases b with
    | ok _ => rfl
    | error _ => exact h.elim
  | error _ =>
    cases b with
    | ok _ => exact h.elim
    | error _ => rfl

def MemoryStore.answer (s : MemoryStore) (step : StoreStep) :
    Except StoreError step.call.Answer × MemoryStore :=
  s.exec step.now step.call

def PostgresStore.answer (instantOf : JsString → Option ℤ) (s : PostgresStore) (step : StoreStep) :
    Except PostgresError step.call.Answer × PostgresStore :=
  PostgresStore.exec instantOf step.order step.instant s step.call

/-- The texts of a receipt. -/
def CanonicalReceipt.texts (receipt : CanonicalReceipt) : List JsString :=
  [receipt.transactionId, receipt.transactionHash, receipt.contractAddress, receipt.circuit,
    receipt.blockHash, receipt.blockTimestamp] ++ receipt.explorerUrl.toList

/-- The texts that a call sends to the database. -/
def StoreCall.texts : StoreCall → List JsString
  | .createOrGet input =>
    [input.id, input.idempotencyKey, input.network, input.contractAddress, input.circuit]
  | .get id => [id]
  | .getByIdempotencyKey key => [key]
  | .consumeCapability reservation =>
    [reservation.actionId, reservation.idempotencyKey, reservation.network,
      reservation.contractAddress, reservation.circuit]
  | .transition id _ patch =>
    id :: patch.dustReservationId.toList ++ patch.transactionId.toList ++
      patch.receipt.toList.flatMap CanonicalReceipt.texts
  | .reserveDust id reservationId => [id, reservationId]
  | .listRecoverable => []

/-- The microseconds of the range of `Date`. -/
def isInstant (instant : ℤ) : Prop := |instant| ≤ 8640000000000000000

/-- The arguments of a call pass the checks that its types stand for. -/
def StoreCall.Checked (instantOf : JsString → Option ℤ) : StoreCall → Prop
  | .createOrGet input => input.Valid ∧ ∃ instant ∈ instantOf input.now, isInstant instant
  | .consumeCapability reservation =>
    isDigest reservation.digest ∧ isDigest reservation.requestHash ∧
      isInstant (reservation.expiresAt * 1000000)
  | .transition _ _ patch => ∀ receipt ∈ patch.receipt, sanitizeCanonicalReceipt receipt = .ok receipt
  | _ => True

/-- A call with well-formed arguments. -/
structure StoreStep.WellFormed (instantOf : JsString → Option ℤ) (step : StoreStep) : Prop where
  checked : step.call.Checked instantOf
  texts : ∀ text ∈ step.call.texts, isText text
  instant : isInstant step.instant

instance (input : NewJob) : Decidable input.Valid :=
  decidable_of_iff (isId input.id ∧ isId input.idempotencyKey ∧ isDigest input.capabilityDigest ∧
      isDigest input.requestHash ∧ isDigest input.txDigest ∧ isId input.network ∧
      isId input.contractAddress ∧ isId input.circuit)
    ⟨fun ⟨h₁, h₂, h₃, h₄, h₅, h₆, h₇, h₈⟩ ↦ ⟨h₁, h₂, h₃, h₄, h₅, h₆, h₇, h₈⟩,
      fun ⟨h₁, h₂, h₃, h₄, h₅, h₆, h₇, h₈⟩ ↦ ⟨h₁, h₂, h₃, h₄, h₅, h₆, h₇, h₈⟩⟩

instance (instant : ℤ) : Decidable (isInstant instant) := inferInstanceAs (Decidable (_ ≤ _))

instance (instantOf : JsString → Option ℤ) : (call : StoreCall) → Decidable (call.Checked instantOf)
  | .createOrGet input => inferInstanceAs (Decidable
    (input.Valid ∧ ∃ instant ∈ instantOf input.now, isInstant instant))
  | .consumeCapability _ => inferInstanceAs (Decidable (_ ∧ _ ∧ _))
  | .transition _ _ patch => inferInstanceAs (Decidable
    (∀ receipt ∈ patch.receipt, sanitizeCanonicalReceipt receipt = .ok receipt))
  | .get _ | .getByIdempotencyKey _ | .reserveDust _ _ | .listRecoverable => isTrue trivial

instance (instantOf : JsString → Option ℤ) (step : StoreStep) : Decidable (step.WellFormed instantOf) :=
  decidable_of_iff (step.call.Checked instantOf ∧ (∀ text ∈ step.call.texts, isText text) ∧
      isInstant step.instant)
    ⟨fun ⟨h₁, h₂, h₃⟩ ↦ ⟨h₁, h₂, h₃⟩, fun ⟨h₁, h₂, h₃⟩ ↦ ⟨h₁, h₂, h₃⟩⟩

/-! ## Where the stores agree -/

/-- A job has a value of an input that is unique in the database. -/
def Job.shares (job : Job) (input : NewJob) : Bool :=
  job.id = input.id || job.idempotencyKey = input.idempotencyKey ||
    job.requestHash = input.requestHash || job.capabilityDigest = input.capabilityDigest

namespace MemoryStore

variable (s : MemoryStore)

/-- PostgreSQL can choose a job for an input: the job shares a unique value with it, and it has its
idempotency key if any job does. -/
def Chosen (input : NewJob) (job : Job) : Prop :=
  job.shares input ∧ ((∃ other ∈ s.jobs.entries, other.idempotencyKey = input.idempotencyKey) →
    job.idempotencyKey = input.idempotencyKey)

/-- Both stores create a job, or both find the job of the request, or both find another one. -/
def SameChoice (input : NewJob) : Prop :=
  match s.existing input with
  | none => ∀ job ∈ s.jobs.entries, job.capabilityDigest ≠ input.capabilityDigest
  | some job => ∀ chosen ∈ s.jobs.entries, s.Chosen input chosen →
    (chosen.requestHash = input.requestHash ↔ job.requestHash = input.requestHash)

/-- A DUST reservation that is a text and that no other job has. -/
def Unreserved (id reservationId : JsString) : Prop :=
  reservationId ≠ [] ∧
    ∀ job ∈ s.jobs.entries, job.id ≠ id → job.dustReservationId ≠ some reservationId

/-- The condition under which a call is answered alike. -/
def Agreeable (instantOf : JsString → Option ℤ) : StoreCall → Prop
  | .createOrGet input => s.SameChoice input
  | .transition id expected patch => ∀ job ∈ s.get id, job.status ∈ expected →
    patch.status ≠ some job.status ∧ patch.transactionId ≠ some [] ∧
      ∀ reservationId ∈ patch.dustReservationId, s.Unreserved id reservationId
  | .reserveDust id reservationId => ∀ job ∈ s.get id, job.status = .validated →
    s.leased id = false → s.Unreserved id reservationId
  | .listRecoverable => s.listRecoverable.Pairwise fun a b ↦
    ∀ instant ∈ instantOf a.createdAt, ∀ instant' ∈ instantOf b.createdAt, instant < instant'
  | _ => True

instance (input : NewJob) (job : Job) : Decidable (s.Chosen input job) :=
  inferInstanceAs (Decidable (_ ∧ _))

instance (input : NewJob) : Decidable (s.SameChoice input) :=
  match h : s.existing input with
  | none => decidable_of_iff
    (∀ job ∈ s.jobs.entries, job.capabilityDigest ≠ input.capabilityDigest) (by simp [SameChoice, h])
  | some job => decidable_of_iff (∀ chosen ∈ s.jobs.entries, s.Chosen input chosen →
      (chosen.requestHash = input.requestHash ↔ job.requestHash = input.requestHash))
    (by simp [SameChoice, h])

instance (id reservationId : JsString) : Decidable (s.Unreserved id reservationId) :=
  inferInstanceAs (Decidable (_ ∧ _))

instance (instantOf : JsString → Option ℤ) : (call : StoreCall) → Decidable (s.Agreeable instantOf call)
  | .createOrGet input => inferInstanceAs (Decidable (s.SameChoice input))
  | .get _ | .getByIdempotencyKey _ | .consumeCapability _ => isTrue trivial
  | .transition id expected patch => inferInstanceAs (Decidable (∀ job ∈ s.get id,
    job.status ∈ expected → patch.status ≠ some job.status ∧ patch.transactionId ≠ some [] ∧
      ∀ reservationId ∈ patch.dustReservationId, s.Unreserved id reservationId))
  | .reserveDust id reservationId => inferInstanceAs (Decidable (∀ job ∈ s.get id,
    job.status = .validated → s.leased id = false → s.Unreserved id reservationId))
  | .listRecoverable => inferInstanceAs (Decidable (s.listRecoverable.Pairwise fun a b ↦
    ∀ instant ∈ instantOf a.createdAt, ∀ instant' ∈ instantOf b.createdAt, instant < instant'))

end MemoryStore

/-- A row reads back as a job, up to timestamps. -/
def Row.Reads (row : Row) (job : Job) : Prop :=
  ∃ read, rowToJob row = .ok read ∧ read.timeless = job.timeless

/-- The two stores hold the same jobs up to timestamps, in the same order, and the same capabilities. -/
structure Corresponds (s : MemoryStore) (t : PostgresStore) : Prop where
  jobs : List.Forall₂ (fun job row ↦ Row.Reads row job) s.jobs.entries t.jobs.entries
  capabilities : s.capabilities = t.capabilities

/-! ## Rows -/

/-- The row of a job. -/
def Job.row (job : Job) (createdAt updatedAt : ℤ) : Row where
  id := job.id
  idempotencyKey := job.idempotencyKey
  requestHash := job.requestHash
  capabilityDigest := job.capabilityDigest
  txDigest := job.txDigest
  network := job.network
  contractAddress := job.contractAddress
  circuit := job.circuit
  action := job.action
  status := job.status
  transitions := job.transitions
  dustReservationId := job.dustReservationId
  transactionId := job.transactionId
  receipt := job.receipt
  errorCode := job.errorCode
  createdAt := createdAt
  updatedAt := updatedAt

@[simp]
theorem Job.row_status (job : Job) (createdAt updatedAt : ℤ) :
    (job.row createdAt updatedAt).status = job.status := rfl

/-- A patch that changes the status, for the job and for its row. -/
theorem Job.row_patch {job : Job} {patch : Patch} (hstatus : patch.status ≠ some job.status)
    (createdAt updatedAt instant : ℤ) (now : JsString) :
    (job.row createdAt updatedAt).patch patch instant = (job.patch patch now).row createdAt instant := by
  have htransitions : (job.patch patch now).transitions = job.transitions ++ patch.status.toList := by
    cases hpatch : patch.status with
    | none => simp [Job.patch, hpatch]
    | some status =>
      have hne : status ≠ job.status := fun heq ↦ hstatus (hpatch.trans (congrArg some heq))
      simp [Job.patch, hpatch, hne]
  simp only [Row.patch, Job.row, htransitions]
  rfl

/-- A job that a row holds as it is. -/
structure Job.Storable (job : Job) : Prop where
  transitions : job.transitions ≠ []
  dustReservationId : job.dustReservationId ≠ some []
  transactionId : job.transactionId ≠ some []
  receipt : ∀ receipt ∈ job.receipt, sanitizeCanonicalReceipt receipt = .ok receipt

theorem Job.Storable.patch {job : Job} (h : job.Storable) {patch : Patch}
    (hdust : patch.dustReservationId ≠ some []) (htransaction : patch.transactionId ≠ some [])
    (hreceipt : ∀ receipt ∈ patch.receipt, sanitizeCanonicalReceipt receipt = .ok receipt)
    (now : JsString) : (job.patch patch now).Storable := by
  refine ⟨?_, ?_, ?_, ?_⟩
  · cases hstatus : patch.status with
    | none => simpa [Job.patch, hstatus] using h.transitions
    | some status =>
      simp only [Job.patch, hstatus]
      split
      · exact h.transitions
      · simp
  · cases hpatch : patch.dustReservationId with
    | none => simpa [Job.patch, hpatch] using h.dustReservationId
    | some reservationId => simpa [Job.patch, hpatch] using hdust
  · cases hpatch : patch.transactionId with
    | none => simpa [Job.patch, hpatch] using h.transactionId
    | some transactionId => simpa [Job.patch, hpatch] using htransaction
  · cases hpatch : patch.receipt with
    | none => simpa [Job.patch, hpatch] using h.receipt
    | some receipt => simpa [Job.patch, hpatch] using hreceipt

/-- A transition to a job with a canonical receipt. -/
theorem Job.Storable.transition {job : Job} {patch : Patch} {now : JsString}
    (h : (job.patch patch now).Storable) : job.transition patch now = .ok (job.patch patch now) := by
  simp only [Job.transition]
  split
  · rfl
  · next receipt hreceipt =>
    rw [h.receipt receipt hreceipt]
    change Except.ok { job.patch patch now with receipt := some receipt } = _
    rw [← hreceipt]

theorem Job.Storable.rowToJob {job : Job} (h : job.Storable) (createdAt updatedAt : ℤ) :
    rowToJob (job.row createdAt updatedAt) =
      .ok { job with createdAt := toIso createdAt, updatedAt := toIso updatedAt } := by
  have hjob : (job.row createdAt updatedAt).job =
      { job with createdAt := toIso createdAt, updatedAt := toIso updatedAt } := by
    have htransitions : parseTransitions job.transitions job.status = job.transitions := by
      simp [parseTransitions, h.transitions]
    simp only [Row.job, Job.row, htransitions, present_of_ne h.dustReservationId,
      present_of_ne h.transactionId]
  rw [Relayer.rowToJob, hjob]
  cases hreceipt : job.receipt with
  | none => simp [Job.row, hreceipt]
  | some receipt => simp [Job.row, hreceipt, h.receipt receipt hreceipt]

section Rows

variable (instantOf : JsString → Option ℤ)

/-- A row holds a job. -/
def Stores (job : Job) (row : Row) : Prop :=
  job.Storable ∧ ∃ createdAt ∈ instantOf job.createdAt, ∃ updatedAt, row = job.row createdAt updatedAt

variable {instantOf} {job : Job} {row : Row}

theorem Stores.reads (h : Stores instantOf job row) : row.Reads job := by
  obtain ⟨hstorable, createdAt, _, updatedAt, rfl⟩ := h
  exact ⟨_, hstorable.rowToJob createdAt updatedAt, rfl⟩

theorem Stores.id (h : Stores instantOf job row) : job.id = row.id := by
  obtain ⟨_, _, _, _, rfl⟩ := h
  rfl

theorem Stores.status (h : Stores instantOf job row) : job.status = row.status := by
  obtain ⟨_, _, _, _, rfl⟩ := h
  rfl

theorem Stores.idempotencyKey (h : Stores instantOf job row) :
    job.idempotencyKey = row.idempotencyKey := by
  obtain ⟨_, _, _, _, rfl⟩ := h
  rfl

end Rows

/-! ## Queries -/

namespace PostgresStore

variable {t : PostgresStore} {order : RowOrder}

theorem mem_select {condition : Row → Bool} {row : Row} :
    row ∈ t.select order condition ↔ row ∈ t.jobs.entries ∧ condition row := by
  rw [select, (order.perm _).mem_iff, List.mem_filter]

/-- A query for a unique value finds at most one row. -/
theorem select_eq {g : Row → JsString} (h : (t.jobs.entries.map g).Nodup) (value : JsString) :
    t.select order (fun row ↦ g row = value) =
      (t.jobs.entries.find? fun row ↦ g row = value).toList := by
  have hperm := order.perm (t.jobs.entries.filter fun row ↦ g row = value)
  rw [KeyedList.filter_eq_find? h] at hperm
  rw [select, KeyedList.filter_eq_find? h]
  cases hfind : t.jobs.entries.find? fun row ↦ g row = value with
  | none => simpa [hfind] using hperm
  | some row => simpa [hfind] using hperm

theorem first_toList (row : Option Row) :
    first row.toList = row.elim (.ok none) fun row ↦ (rowToJob row).map some := by
  cases row <;> rfl

theorem selectExisting_eq_none {input : NewJob} (h : t.selectExisting order input = none) :
    ∀ row ∈ t.jobs.entries, matching input row = false := by
  intro row hrow
  by_contra hmatching
  have hmem : row ∈ t.select order (matching input) :=
    mem_select.mpr ⟨hrow, eq_true_of_ne_false hmatching⟩
  rw [selectExisting, List.head?_eq_none_iff] at h
  rw [← List.mem_insertionSort fun a b : Row ↦
    b.idempotencyKey = input.idempotencyKey → a.idempotencyKey = input.idempotencyKey, h] at hmem
  simp at hmem

theorem selectExisting_eq_some {input : NewJob} {row : Row}
    (h : t.selectExisting order input = some row) :
    row ∈ t.jobs.entries ∧ matching input row ∧
      ((∃ other ∈ t.jobs.entries, other.idempotencyKey = input.idempotencyKey) →
        row.idempotencyKey = input.idempotencyKey) := by
  let r : Row → Row → Prop := fun a b ↦
    b.idempotencyKey = input.idempotencyKey → a.idempotencyKey = input.idempotencyKey
  have : Std.Total r := ⟨fun a b ↦ by simp only [r]; tauto⟩
  have : IsTrans Row r := ⟨fun a b c hab hbc hc ↦ hab (hbc hc)⟩
  obtain ⟨rest, hsorted⟩ := List.head?_eq_some_iff.mp h
  have hmem : ∀ other, other ∈ row :: rest ↔ other ∈ t.jobs.entries ∧ matching input other := by
    intro other
    rw [← hsorted, List.mem_insertionSort, mem_select]
  have hfirst := hsorted ▸ List.pairwise_insertionSort r (t.select order (matching input))
  obtain ⟨hrow, hmatching⟩ := (hmem row).mp List.mem_cons_self
  refine ⟨hrow, hmatching, ?_⟩
  rintro ⟨other, hother, hkey⟩
  obtain rfl | hrest := List.mem_cons.mp ((hmem other).mpr ⟨hother, by simp [matching, hkey]⟩)
  · exact hkey
  · exact (List.pairwise_cons.mp hfirst).1 other hrest hkey

end PostgresStore

/-! ## The simulation -/

section Simulation

variable (instantOf : JsString → Option ℤ)

/-- The rows hold the jobs, in the same order, and no two jobs have one DUST reservation. -/
structure Mirrors (s : MemoryStore) (t : PostgresStore) : Prop where
  jobs : List.Forall₂ (Stores instantOf) s.jobs.entries t.jobs.entries
  capabilities : s.capabilities = t.capabilities
  keyed : s.Keyed
  reservations : ∀ a ∈ s.jobs.entries, ∀ b ∈ s.jobs.entries, ∀ reservationId,
    a.dustReservationId = some reservationId → b.dustReservationId = some reservationId → a.id = b.id

variable {instantOf} {s : MemoryStore} {t : PostgresStore}

theorem Mirrors.empty : Mirrors instantOf MemoryStore.empty PostgresStore.empty :=
  ⟨.nil, rfl, .empty, by simp [MemoryStore.empty]⟩

theorem Mirrors.corresponds (h : Mirrors instantOf s t) : Corresponds s t :=
  ⟨h.jobs.imp fun _ _ hrow ↦ hrow.reads, h.capabilities⟩

theorem Mirrors.get (h : Mirrors instantOf s t) (id : JsString) :
    Option.Rel (Stores instantOf) (s.get id) (t.jobs.get? id) :=
  KeyedList.rel_get? h.jobs (fun hrow ↦ hrow.id) id

theorem Mirrors.set (h : Mirrors instantOf s t) {job : Job} {row : Row} (hrow : Stores instantOf job row)
    (hkeyed : MemoryStore.Keyed { s with jobs := s.jobs.set job })
    (hfree : ∀ reservationId ∈ job.dustReservationId, ∀ other ∈ s.jobs.entries, other.id ≠ job.id →
      other.dustReservationId ≠ some reservationId) :
    Mirrors instantOf { s with jobs := s.jobs.set job } { t with jobs := t.jobs.set row } := by
  refine ⟨KeyedList.rel_set h.jobs (fun hrow ↦ hrow.id) hrow, h.capabilities, hkeyed, ?_⟩
  intro a ha b hb reservationId hra hrb
  obtain rfl | ⟨hold, hne⟩ := KeyedList.mem_set.mp ha
  · obtain rfl | ⟨hold, hne⟩ := KeyedList.mem_set.mp hb
    · rfl
    · exact absurd hrb (hfree reservationId hra b hold hne)
  · obtain rfl | ⟨hold', _⟩ := KeyedList.mem_set.mp hb
    · exact absurd hra (hfree reservationId hrb a hold hne)
    · exact h.reservations a hold b hold' reservationId hra hrb

/-- The update of one row whose DUST reservation no other job has. -/
theorem Mirrors.update (h : Mirrors instantOf s t) {job next : Job} {row : Row}
    (hjob : s.get next.id = some job) (hkey : next.idempotencyKey = job.idempotencyKey)
    (hhash : next.requestHash = job.requestHash) (hrow : Stores instantOf next row)
    (hfree : ∀ reservationId ∈ next.dustReservationId, ∀ other ∈ s.jobs.entries, other.id ≠ next.id →
      other.dustReservationId ≠ some reservationId) :
    (∃ read, (t.update row).1 = .ok (some read) ∧ read.timeless = next.timeless) ∧
      Mirrors instantOf { s with jobs := s.jobs.set next } (t.update row).2 := by
  have hreserved : t.reserved row = false := by
    rw [PostgresStore.reserved, List.any_eq_false]
    intro other hother
    obtain ⟨job', hjob', hother⟩ := KeyedList.rel_mem h.jobs hother
    obtain ⟨_, _, _, _, rfl⟩ := hrow
    obtain ⟨_, _, _, _, rfl⟩ := hother
    cases hreservation : next.dustReservationId with
    | none => simp [Job.row, hreservation]
    | some reservationId =>
      have hne := hfree reservationId hreservation job' hjob'
      simpa [Job.row, hreservation] using hne
  obtain ⟨read, hread, htimeless⟩ := hrow.reads
  rw [PostgresStore.update, hreserved, hread]
  exact ⟨⟨read, rfl, htimeless⟩, h.set hrow (h.keyed.replaced hjob hkey hhash) hfree⟩

/-- A query for the row of a unique value. -/
theorem Mirrors.query (h : Mirrors instantOf s t) {f : Job → JsString} {g : Row → JsString}
    (hfg : ∀ {job row}, Stores instantOf job row → f job = g row)
    (hunique : (s.jobs.entries.map f).Nodup) (order : RowOrder) (value : JsString) :
    ∃ read, PostgresStore.first (t.select order fun row ↦ g row = value) = .ok read ∧
      read.map Job.timeless = (s.jobs.entries.find? fun job ↦ f job = value).map Job.timeless := by
  rw [KeyedList.rel_map_eq h.jobs hfg] at hunique
  rw [PostgresStore.select_eq hunique, PostgresStore.first_toList]
  have hrel : Option.Rel (Stores instantOf) (s.jobs.entries.find? fun job ↦ f job = value)
      (t.jobs.entries.find? fun row ↦ g row = value) :=
    KeyedList.rel_find? h.jobs fun hrow ↦ by rw [hfg hrow]
  generalize s.jobs.entries.find? (fun job ↦ f job = value) = job at hrel ⊢
  generalize t.jobs.entries.find? (fun row ↦ g row = value) = row at hrel ⊢
  cases hrel with
  | none => exact ⟨none, rfl, rfl⟩
  | some hrow =>
    obtain ⟨read, hread, htimeless⟩ := hrow.reads
    refine ⟨some read, ?_, congrArg some htimeless⟩
    rw [Option.elim_some, hread]
    rfl

theorem Mirrors.createOrGet (h : Mirrors instantOf s t) {input : NewJob} {order : RowOrder}
    {now : JsString} {instant : ℤ} (hvalid : input.Valid)
    (hnow : ∃ created ∈ instantOf input.now, isInstant created) (hsame : s.SameChoice input) :
    StoreStep.same ⟨.createOrGet input, now, instant, order⟩ (s.createOrGet input).1
      (t.createOrGet order instantOf input).1 ∧
      Mirrors instantOf (s.createOrGet input).2 (t.createOrGet order instantOf input).2 := by
  obtain ⟨created, hcreated, _⟩ := hnow
  have hcreated : instantOf input.now = some created := hcreated
  have hany : t.jobs.entries.any (PostgresStore.matching input) =
      s.jobs.entries.any fun job ↦ job.shares input := by
    refine (KeyedList.rel_any h.jobs fun hrow ↦ ?_).symm
    obtain ⟨_, _, _, _, rfl⟩ := hrow
    rfl
  simp only [MemoryStore.createOrGet, PostgresStore.createOrGet, hcreated, hany]
  unfold MemoryStore.SameChoice at hsame
  cases hexisting : s.existing input with
  | none =>
    rw [hexisting] at hsame
    have hnone : (s.jobs.entries.any fun job ↦ job.shares input) = false := by
      rw [List.any_eq_false]
      intro job hjob
      have hother := MemoryStore.existing_none_iff.mp hexisting job hjob
      simp [Job.shares, hother.1, hother.2.1, hother.2.2, hsame job hjob]
    have hrow : Stores instantOf input.job (input.row created) :=
      ⟨⟨by simp [NewJob.job], by simp [NewJob.job], by simp [NewJob.job], by simp [NewJob.job]⟩,
        created, hcreated, created, rfl⟩
    obtain ⟨read, hread, htimeless⟩ := hrow.reads
    rw [newJob_eq_ok.mpr ⟨hvalid, rfl⟩, hnone, hread]
    exact ⟨congrArg (fun job ↦ (job, true)) htimeless.symm,
      h.set hrow (h.keyed.created hexisting) (by simp [NewJob.job])⟩
  | some job =>
    rw [hexisting] at hsame
    obtain ⟨hjob, hshares⟩ := MemoryStore.existing_shares hexisting
    have hsome : (s.jobs.entries.any fun job ↦ job.shares input) = true := by
      refine List.any_eq_true.mpr ⟨job, hjob, ?_⟩
      simp only [Job.shares, Bool.or_eq_true, decide_eq_true_eq]
      tauto
    cases hselect : t.selectExisting order input with
    | none =>
      obtain ⟨row, hrow, hmatching⟩ := List.any_eq_true.mp (hany.trans hsome)
      simp [PostgresStore.selectExisting_eq_none hselect row hrow] at hmatching
    | some row =>
      obtain ⟨hrow, hmatching, hkey⟩ := PostgresStore.selectExisting_eq_some hselect
      obtain ⟨chosen, hchosen, hstores⟩ := KeyedList.rel_mem h.jobs hrow
      have hshares : chosen.shares input := by
        obtain ⟨_, _, _, _, rfl⟩ := hstores
        exact hmatching
      have hfirst : (∃ other ∈ s.jobs.entries, other.idempotencyKey = input.idempotencyKey) →
          chosen.idempotencyKey = input.idempotencyKey := by
        rintro ⟨other, hother, hother'⟩
        obtain ⟨row', hrow', hstores'⟩ := KeyedList.rel_mem h.jobs.flip hother
        rw [hstores.idempotencyKey]
        exact hkey ⟨row', hrow', (Stores.idempotencyKey hstores').symm.trans hother'⟩
      have hsame : chosen.requestHash = input.requestHash ↔ job.requestHash = input.requestHash :=
        hsame chosen hchosen ⟨hshares, hfirst⟩
      obtain ⟨read, hread, htimeless⟩ := hstores.reads
      have hhash : read.requestHash = chosen.requestHash := by
        rw [← read.requestHash_timeless, htimeless, chosen.requestHash_timeless]
      simp only [hsome, if_true, hread, hhash]
      by_cases hrequest : job.requestHash = input.requestHash
      · have hchosen : chosen = job :=
          List.inj_on_of_nodup_map h.keyed.requestHash hchosen hjob
            ((hsame.mpr hrequest).trans hrequest.symm)
        rw [if_neg (not_not.mpr hrequest), if_neg (not_not.mpr (hsame.mpr hrequest))]
        exact ⟨congrArg (fun job ↦ (job, false)) (hchosen ▸ htimeless.symm), h⟩
      · rw [if_pos hrequest, if_pos fun heq ↦ hrequest (hsame.mp heq)]
        exact ⟨rfl, h⟩

theorem Mirrors.transition (h : Mirrors instantOf s t) {id : JsString} {expected : List Status}
    {patch : Patch} {now : JsString} {instant : ℤ} {order : RowOrder}
    (hreceipt : ∀ receipt ∈ patch.receipt, sanitizeCanonicalReceipt receipt = .ok receipt)
    (hagree : s.Agreeable instantOf (.transition id expected patch)) :
    StoreStep.same ⟨.transition id expected patch, now, instant, order⟩
      (s.transition id expected patch now).1 (t.transition id expected patch instant).1 ∧
      Mirrors instantOf (s.transition id expected patch now).2
        (t.transition id expected patch instant).2 := by
  have hsanitized : (patch.receipt.elim (.ok none) fun receipt ↦
      (sanitizeCanonicalReceipt receipt).map some) = .ok patch.receipt := by
    cases hpatch : patch.receipt with
    | none => rfl
    | some receipt =>
      rw [Option.elim_some, hreceipt receipt hpatch]
      rfl
  have hrel := h.get id
  simp only [MemoryStore.transition, PostgresStore.transition, hsanitized]
  generalize t.jobs.get? id = row at hrel ⊢
  cases hjob : s.get id with
  | none =>
    rw [hjob] at hrel
    cases hrel
    exact ⟨rfl, h⟩
  | some job =>
    rw [hjob] at hrel
    cases hrel with | some hstores =>
    obtain ⟨hstorable, created, hcreated, updated, rfl⟩ := hstores
    by_cases hexpected : job.status ∈ expected
    · obtain ⟨hstatus, htransaction, hdust⟩ := hagree job hjob hexpected
      have hnext := hstorable.patch (fun heq ↦ (hdust [] heq).1 rfl) htransaction hreceipt now
      have hrow : Stores instantOf (job.patch patch now)
          ((job.row created updated).patch patch instant) :=
        ⟨hnext, created, hcreated, instant, Job.row_patch hstatus created updated instant now⟩
      have hid : job.id = id := MemoryStore.id_of_get hjob
      have hfree : ∀ reservationId ∈ (job.patch patch now).dustReservationId, ∀ other ∈ s.jobs.entries,
          other.id ≠ (job.patch patch now).id → other.dustReservationId ≠ some reservationId := by
        intro reservationId hreservation other hother hne
        obtain hpatch | ⟨_, hjobs⟩ := Option.or_eq_some_iff.mp hreservation
        · exact (hdust reservationId hpatch).2 other hother (hid ▸ hne)
        · exact fun hsome ↦ hne (h.reservations other hother job (MemoryStore.mem_of_get hjob)
            reservationId hsome hjobs)
      have hget : s.get (job.patch patch now).id = some job := (congrArg s.get hid).trans hjob
      obtain ⟨⟨read, hread, htimeless⟩, hmirrors⟩ := h.update hget rfl rfl hrow hfree
      simp only [Job.row_status, hexpected, not_true_eq_false, if_false, hnext.transition, hread]
      exact ⟨congrArg some htimeless.symm, hmirrors⟩
    · simp only [Job.row_status, hexpected, not_false_eq_true, if_true]
      exact ⟨rfl, h⟩

/-- The DUST lease of the other jobs, for a job that does not hold it. -/
theorem Mirrors.leased (h : Mirrors instantOf s t) {id : JsString} {job : Job}
    (hjob : s.get id = some job) (hidle : job.status.active = false) : t.leased = s.leased id := by
  have hrows : t.leased = s.jobs.entries.any fun candidate ↦ candidate.status.active :=
    (KeyedList.rel_any h.jobs fun hrow ↦ by rw [hrow.status]).symm
  rw [hrows, MemoryStore.leased, Bool.eq_iff_iff, List.any_eq_true, List.any_eq_true]
  constructor
  · rintro ⟨candidate, hmem, hactive⟩
    refine ⟨candidate, hmem, ?_⟩
    have hne : candidate.id ≠ id := by
      intro heq
      have hsame : candidate = job := KeyedList.eq_of_mem hmem (MemoryStore.mem_of_get hjob)
        (heq.trans (MemoryStore.id_of_get hjob).symm)
      rw [hsame, hidle] at hactive
      cases hactive
    simp [hne, hactive]
  · rintro ⟨candidate, hmem, hactive⟩
    exact ⟨candidate, hmem, (Bool.and_eq_true_iff.mp hactive).2⟩

theorem Mirrors.reserveDust (h : Mirrors instantOf s t) {id reservationId now : JsString} {instant : ℤ}
    {order : RowOrder} (hagree : s.Agreeable instantOf (.reserveDust id reservationId)) :
    StoreStep.same ⟨.reserveDust id reservationId, now, instant, order⟩
      (.ok (s.reserveDust id reservationId now).1) (t.reserveDust id reservationId instant).1 ∧
      Mirrors instantOf (s.reserveDust id reservationId now).2
        (t.reserveDust id reservationId instant).2 := by
  have hrel := h.get id
  simp only [MemoryStore.reserveDust, PostgresStore.reserveDust]
  generalize t.jobs.get? id = row at hrel ⊢
  cases hjob : s.get id with
  | none =>
    rw [hjob] at hrel
    cases hrel
    exact ⟨rfl, h⟩
  | some job =>
    rw [hjob] at hrel
    cases hrel with | some hstores =>
    obtain ⟨hstorable, created, hcreated, updated, rfl⟩ := hstores
    by_cases hstatus : job.status = .validated
    · have hid : job.id = id := MemoryStore.id_of_get hjob
      have hleased : t.leased = s.leased id := h.leased hjob (by rw [hstatus]; rfl)
      cases hfree : s.leased id with
      | true =>
        simp only [hleased, hfree, Bool.or_true, if_true]
        exact ⟨rfl, h⟩
      | false =>
        obtain ⟨hne, hunreserved⟩ := hagree job hjob hstatus hfree
        have hrow : Stores instantOf (job.reserve reservationId now)
            ((job.row created updated).reserve reservationId instant) :=
          ⟨⟨by simp [Job.reserve], by simpa [Job.reserve] using hne, hstorable.transactionId,
            hstorable.receipt⟩, created, hcreated, instant, rfl⟩
        have hget : s.get (job.reserve reservationId now).id = some job :=
          (congrArg s.get hid).trans hjob
        have hother : ∀ r ∈ (job.reserve reservationId now).dustReservationId,
            ∀ other ∈ s.jobs.entries, other.id ≠ (job.reserve reservationId now).id →
              other.dustReservationId ≠ some r := by
          rintro _ ⟨⟩ other hother hne
          exact hunreserved other hother (hid ▸ hne)
        obtain ⟨⟨read, hread, htimeless⟩, hmirrors⟩ := h.update hget rfl rfl hrow hother
        simp only [Job.row_status, hstatus, hleased, hfree, ne_eq, not_true_eq_false, decide_false,
          Bool.or_false, Bool.false_eq_true, if_false, hread]
        exact ⟨congrArg some htimeless.symm, hmirrors⟩
    · simp only [Job.row_status, ne_eq, hstatus, not_false_eq_true, decide_true, Bool.true_or, if_true]
      exact ⟨rfl, h⟩

theorem mapM_rowToJob {jobs : List Job} {rows : List Row}
    (h : List.Forall₂ (Stores instantOf) jobs rows) :
    ∃ reads, rows.mapM rowToJob = .ok reads ∧ reads.map Job.timeless = jobs.map Job.timeless := by
  induction h with
  | nil => exact ⟨[], rfl, rfl⟩
  | cons hrow _ ih =>
    obtain ⟨reads, hreads, htimeless⟩ := ih
    obtain ⟨read, hread, hhead⟩ := hrow.reads
    refine ⟨read :: reads, ?_, by rw [List.map_cons, List.map_cons, hhead, htimeless]⟩
    rw [List.mapM_cons, hread, hreads]
    rfl

theorem Mirrors.listRecoverable (h : Mirrors instantOf s t) (order : RowOrder)
    (hagree : s.Agreeable instantOf .listRecoverable) :
    ∃ reads, t.listRecoverable order = .ok reads ∧
      reads.map Job.timeless = s.listRecoverable.map Job.timeless := by
  let recoverable : List Row := t.jobs.entries.filter fun row ↦ row.status.recoverable
  have hrows : List.Forall₂ (Stores instantOf) s.listRecoverable recoverable :=
    List.rel_filter (fun _ _ hrow ↦ by simp [hrow.status]) h.jobs
  have hstrict : recoverable.Pairwise fun a b ↦ a.createdAt < b.createdAt := by
    refine KeyedList.rel_pairwise hrows ?_ hagree
    rintro job job' _ _ ⟨_, instant, hinstant, _, rfl⟩ ⟨_, instant', hinstant', _, rfl⟩ hlt
    exact hlt instant hinstant instant' hinstant'
  have hdistinct : (recoverable.map Row.createdAt).Nodup :=
    (List.pairwise_map.mpr hstrict).imp ne_of_lt
  have hperm : (t.select order fun row ↦ row.status.recoverable).Perm recoverable := order.perm _
  have hsorted : (t.select order fun row ↦ row.status.recoverable).insertionSort
      (fun a b ↦ a.createdAt ≤ b.createdAt) = recoverable := by
    have : Std.Total fun a b : Row ↦ a.createdAt ≤ b.createdAt := ⟨fun a b ↦ le_total _ _⟩
    have : IsTrans Row fun a b ↦ a.createdAt ≤ b.createdAt := ⟨fun _ _ _ ↦ le_trans⟩
    have hsort := (List.perm_insertionSort (fun a b : Row ↦ a.createdAt ≤ b.createdAt) _).trans hperm
    refine List.Perm.eq_of_pairwise (fun a b ha hb hab hba ↦ ?_)
      (List.pairwise_insertionSort _ _) (hstrict.imp le_of_lt) hsort
    exact List.inj_on_of_nodup_map hdistinct (hsort.mem_iff.mp ha) hb (le_antisymm hab hba)
  rw [PostgresStore.listRecoverable, hsorted]
  exact mapM_rowToJob hrows

/-- Every well-formed call in such a state is answered alike and keeps the stores alike. -/
theorem Mirrors.answer (h : Mirrors instantOf s t) {step : StoreStep}
    (hwell : step.WellFormed instantOf) (hagree : s.Agreeable instantOf step.call) :
    step.same (s.answer step).1 (t.answer instantOf step).1 ∧
      Mirrors instantOf (s.answer step).2 (t.answer instantOf step).2 := by
  obtain ⟨call, now, instant, order⟩ := step
  have hchecked := hwell.checked
  cases call with
  | createOrGet input => exact h.createOrGet hchecked.1 hchecked.2 hagree
  | get id =>
    obtain ⟨read, hread, htimeless⟩ := h.query (fun hrow ↦ hrow.id) s.jobs.nodup order id
    simp only [PostgresStore.answer, PostgresStore.exec, PostgresStore.get, hread]
    exact ⟨htimeless.symm, h⟩
  | getByIdempotencyKey key =>
    obtain ⟨read, hread, htimeless⟩ :=
      h.query (fun hrow ↦ hrow.idempotencyKey) h.keyed.idempotencyKey order key
    simp only [PostgresStore.answer, PostgresStore.exec, PostgresStore.getByIdempotencyKey, hread]
    exact ⟨htimeless.symm, h⟩
  | consumeCapability reservation =>
    simp only [MemoryStore.answer, PostgresStore.answer, MemoryStore.exec, PostgresStore.exec,
      MemoryStore.consumeCapability, PostgresStore.consumeCapability, ← h.capabilities]
    cases s.capabilities.get? reservation.digest with
    | some _ => exact ⟨rfl, h⟩
    | none => exact ⟨rfl, h.jobs, rfl, ⟨h.keyed.idempotencyKey, h.keyed.requestHash⟩, h.reservations⟩
  | transition id expected patch => exact h.transition hchecked hagree
  | reserveDust id reservationId => exact h.reserveDust hagree
  | listRecoverable =>
    obtain ⟨reads, hreads, htimeless⟩ := h.listRecoverable order hagree
    simp only [PostgresStore.answer, PostgresStore.exec, hreads]
    exact ⟨htimeless.symm, h⟩

end Simulation

/-- **PostgreSQL in place of the store in memory.** In every run of well-formed calls that are each agreeable
in the state in which they arrive, both stores give the same answers and end in corresponding states. -/
theorem postgres_replaces_memory (instantOf : JsString → Option ℤ) (steps : List StoreStep)
    (hwell : ∀ step ∈ steps, step.WellFormed instantOf)
    (hagree : Simulation.Meets (fun s step ↦ s.Agreeable instantOf step.call) MemoryStore.answer
      MemoryStore.empty steps) :
    Simulation.Alike StoreStep.same MemoryStore.answer (PostgresStore.answer instantOf)
        MemoryStore.empty PostgresStore.empty steps ∧
      Corresponds (Simulation.finalState MemoryStore.answer MemoryStore.empty steps)
        (Simulation.finalState (PostgresStore.answer instantOf) PostgresStore.empty steps) := by
  have hstep : ∀ s t (step : StoreStep), Mirrors instantOf s t →
      step.WellFormed instantOf ∧ s.Agreeable instantOf step.call →
      step.same (s.answer step).1 (t.answer instantOf step).1 ∧
        Mirrors instantOf (s.answer step).2 (t.answer instantOf step).2 :=
    fun _ _ _ hmirrors hstep ↦ hmirrors.answer hstep.1 hstep.2
  have hrun := Simulation.simulation hstep Mirrors.empty steps fun pre step post hsplit ↦
    ⟨hwell step (by simp [hsplit]), hagree pre step post hsplit⟩
  exact ⟨hrun.1, hrun.2.corresponds⟩

/-! ## Sample runs -/

/-- The instants of two timestamps. -/
def sampleInstant (text : JsString) : Option ℤ :=
  if text = js "2026-01-01T00:00:00.000Z" then some 1767225600000000
  else if text = js "2026-01-01T00:00:01.000Z" then some 1767225601000000
  else none

/-- An input with the given id, idempotency key, request hash and capability digest. -/
def sampleInput (id key : String) (hash capability : Char) (now : String) : NewJob where
  id := js id
  idempotencyKey := js key
  capabilityDigest := List.replicate 64 capability.toNat.toUInt16
  requestHash := List.replicate 64 hash.toNat.toUInt16
  txDigest := List.replicate 64 hash.toNat.toUInt16
  network := js "preview"
  contractAddress := js "contract"
  circuit := js "castVote"
  action := .vote
  now := js now

def sampleStep (call : StoreCall) : StoreStep :=
  ⟨call, js "2026-01-01T00:00:02.000Z", 1767225602000000, ⟨id, fun rows ↦ .refl rows⟩⟩

/-- Two requests, of which one is repeated and then reaches its DUST reservation. -/
def sampleSteps : List StoreStep := [
  .createOrGet (sampleInput "1" "key 1" 'a' 'c' "2026-01-01T00:00:00.000Z"),
  .createOrGet (sampleInput "2" "key 2" 'b' 'd' "2026-01-01T00:00:01.000Z"),
  .createOrGet (sampleInput "1" "key 1" 'a' 'e' "2026-01-01T00:00:01.000Z"),
  .transition (js "1") [.authorized] { status := some .validated },
  .reserveDust (js "1") (js "lease"),
  .get (js "1"),
  .listRecoverable].map sampleStep

theorem postgres_replaces_memory_sample :
    Simulation.Alike StoreStep.same MemoryStore.answer (PostgresStore.answer sampleInstant)
        MemoryStore.empty PostgresStore.empty sampleSteps ∧
      Corresponds (Simulation.finalState MemoryStore.answer MemoryStore.empty sampleSteps)
        (Simulation.finalState (PostgresStore.answer sampleInstant) PostgresStore.empty sampleSteps) := by
  refine postgres_replaces_memory sampleInstant sampleSteps ?_ ?_
  · decide +kernel
  · simp only [sampleSteps, List.map_cons, List.map_nil, Simulation.meets_cons, Simulation.meets_nil,
      and_true]
    decide +kernel

/-- An input with the id and the request hash of one job and the idempotency key of another. -/
def divergentSteps : List StoreStep := [
  .createOrGet (sampleInput "1" "key 1" 'a' 'c' "2026-01-01T00:00:00.000Z"),
  .createOrGet (sampleInput "2" "key 2" 'b' 'd' "2026-01-01T00:00:01.000Z"),
  .createOrGet (sampleInput "1" "key 2" 'a' 'e' "2026-01-01T00:00:01.000Z")].map sampleStep

/-- The store in memory finds the first job by its id and returns it, PostgreSQL finds the second one by its
idempotency key and throws. -/
theorem postgres_prefers_the_key :
    (∀ step ∈ divergentSteps, step.WellFormed sampleInstant) ∧
      ¬Simulation.Alike StoreStep.same MemoryStore.answer (PostgresStore.answer sampleInstant)
        MemoryStore.empty PostgresStore.empty divergentSteps := by
  refine ⟨by decide +kernel, fun halike ↦ ?_⟩
  have hlast := StoreStep.isOk_eq
    (halike (divergentSteps.take 2) (sampleStep (.createOrGet
      (sampleInput "1" "key 2" 'a' 'e' "2026-01-01T00:00:01.000Z"))) [] rfl)
  revert hlast
  decide +kernel

end MidnightReferendum.Relayer
