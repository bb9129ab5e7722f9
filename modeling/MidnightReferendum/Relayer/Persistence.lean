import MidnightReferendum.Relayer.FileStore
import MidnightReferendum.Relayer.Steps
import MidnightReferendum.Systems.Simulation

/-!
# A file in place of the store in memory

Every state that the store writes is read back as it was, and under which conditions
`FileV2ActionStore` answers every sequence of calls as `InMemoryV2ActionStore` does.
-/

namespace MidnightReferendum.Relayer

open Js

/-! ## Fields -/

theorem record?_record (fields : List (JsString × Option Json)) :
    (record fields).record? = some (defined fields) := rfl

section Fields

variable {fields : List (JsString × Option Json)}

/-- A field is read as it was written, also one that is `undefined`. -/
theorem field?_defined (hnodup : (fields.map Prod.fst).Nodup) {name : JsString} {value : Option Json}
    (h : (name, value) ∈ fields) : field? (defined fields) name = value := by
  have hother : ∀ fields : List (JsString × Option Json), name ∉ fields.map Prod.fst →
      field? (defined fields) name = none := by
    intro fields hname
    refine List.lookup_eq_none_iff.mpr fun field hfield ↦ ?_
    obtain ⟨written, hwritten, hsome⟩ := List.mem_filterMap.mp hfield
    obtain ⟨_, _, rfl⟩ := Option.map_eq_some_iff.mp hsome
    have hne : name ≠ written.1 := fun heq ↦ hname (heq ▸ List.mem_map_of_mem hwritten)
    simpa using hne
  induction fields with
  | nil => cases h
  | cons field fields ih =>
    obtain ⟨hnew, hdistinct⟩ := List.nodup_cons.mp hnodup
    obtain rfl | hmem := List.mem_cons.mp h
    · cases value with
      | none => exact hother fields hnew
      | some value => simp [field?, defined]
    · have hne : name ≠ field.1 := fun heq ↦ hnew (heq ▸ List.mem_map_of_mem hmem)
      obtain ⟨other, _ | value'⟩ := field
      · exact ih hdistinct hmem
      · have hrest := ih hdistinct hmem
        simp only [field?, defined, List.filterMap_cons, Option.map_some, List.lookup_cons,
          beq_eq_false_iff_ne.mpr hne] at hrest ⊢
        exact hrest

theorem optionalField_eq {fields : List (JsString × Json)} {name : String} {text : Option JsString}
    (h : field? fields (js name) = text.map .string) : optionalField fields name = some text := by
  rw [optionalField, h]
  cases text <;> rfl

theorem safeInteger?_integer {n : ℤ} (h : |n| ≤ maxSafeInteger) : (integer n).safeInteger? = some n := by
  simp [integer, Json.safeInteger?, h]

end Fields

/-! ## Values -/

theorem CanonicalReceipt.fields_nodup (receipt : CanonicalReceipt) :
    (receipt.fields.map Prod.fst).Nodup := by
  simp only [CanonicalReceipt.fields, List.map_cons, List.map_nil]
  decide +kernel

theorem Job.fields_nodup (job : Job) : (job.fields.map Prod.fst).Nodup := by
  simp only [Job.fields, List.map_cons, List.map_nil]
  decide +kernel

theorem Reservation.fields_nodup (reservation : Reservation) :
    (reservation.fields.map Prod.fst).Nodup := by
  simp only [Reservation.fields, List.map_cons, List.map_nil]
  decide +kernel

theorem FileState.fields_nodup (state : FileState) : (state.fields.map Prod.fst).Nodup := by
  simp only [FileState.fields, List.map_cons, List.map_nil]
  decide +kernel

theorem parseReceipt_record {receipt : CanonicalReceipt}
    (h : sanitizeCanonicalReceipt receipt = .ok receipt) :
    parseReceipt (record receipt.fields) = .ok receipt := by
  have hsafe : |receipt.blockHeight| ≤ maxSafeInteger := by
    unfold sanitizeCanonicalReceipt at h
    split at h
    · cases h
    · next hchecks =>
      simp only [Bool.or_eq_true, decide_eq_true_eq, not_or, not_lt] at hchecks
      rw [abs_of_nonneg (by tauto)]
      tauto
  have hread : ∀ field ∈ receipt.fields, field? (defined receipt.fields) field.1 = field.2 :=
    fun _ hmem ↦ field?_defined receipt.fields_nodup hmem
  simp only [parseReceipt, record?_record]
  generalize defined receipt.fields = fields at hread ⊢
  simp only [CanonicalReceipt.fields, List.forall_mem_cons, List.not_mem_nil, false_imp_iff,
    implies_true, and_true] at hread
  have hexplorer : optionalField fields "explorerUrl" = some receipt.explorerUrl :=
    optionalField_eq (by simp only [hread])
  simp only [textField, actionField, hread, hexplorer, Option.bind_some, Json.string?_string,
    CivicActionKind.ofText?_text, safeInteger?_integer hsafe, Option.bind_eq_bind, Option.filter_some,
    decide_true, if_true, Option.pure_def]
  exact h

/-- A job that is read back as it is written. -/
structure Job.Readable (job : Job) : Prop where
  requestHash : isDigest job.requestHash
  capabilityDigest : isDigest job.capabilityDigest
  txDigest : isDigest job.txDigest
  dustReservationId : job.dustReservationId ≠ some []
  transactionId : job.transactionId ≠ some []
  receipt : ∀ receipt ∈ job.receipt, sanitizeCanonicalReceipt receipt = .ok receipt

theorem Job.Readable.patch {job : Job} (h : job.Readable) {patch : Patch} {now : JsString}
    (hdust : patch.dustReservationId ≠ some []) (htransaction : patch.transactionId ≠ some [])
    (hreceipt : ∀ receipt, (job.patch patch now).receipt = some receipt →
      sanitizeCanonicalReceipt receipt = .ok receipt) : (job.patch patch now).Readable := by
  refine ⟨h.requestHash, h.capabilityDigest, h.txDigest, ?_, ?_, hreceipt⟩
  · cases hpatch : patch.dustReservationId with
    | none => simpa [Job.patch, hpatch] using h.dustReservationId
    | some reservationId => simpa [Job.patch, hpatch] using hdust
  · cases hpatch : patch.transactionId with
    | none => simpa [Job.patch, hpatch] using h.transactionId
    | some transactionId => simpa [Job.patch, hpatch] using htransaction

theorem mapM_ofText? (transitions : List Status) :
    (transitions.map fun status ↦ Json.string status.text).mapM
      (fun item ↦ item.string?.bind Status.ofText?) = some transitions := by
  induction transitions with
  | nil => rfl
  | cons status transitions ih =>
    rw [List.map_cons, List.mapM_cons, ih, Json.string?_string, Option.bind_some, Status.ofText?_text]
    rfl

theorem Job.Readable.parseJobFields {job : Job} (h : job.Readable) :
    parseJobFields (defined job.fields) = some { job with receipt := none } := by
  have hread : ∀ field ∈ job.fields, field? (defined job.fields) field.1 = field.2 :=
    fun _ hmem ↦ field?_defined job.fields_nodup hmem
  generalize defined job.fields = fields at hread ⊢
  simp only [Job.fields, List.forall_mem_cons, List.not_mem_nil, false_imp_iff, implies_true,
    and_true] at hread
  have hdust : optionalField fields "dustReservationId" = some job.dustReservationId :=
    optionalField_eq (by simp only [hread])
  have htransaction : optionalField fields "transactionId" = some job.transactionId :=
    optionalField_eq (by simp only [hread])
  have herror : optionalField fields "errorCode" = some (job.errorCode.map ErrorCode.text) :=
    optionalField_eq (by simp only [hread, Option.map_map]; rfl)
  have hcode : (job.errorCode.map ErrorCode.text).bind ErrorCode.ofText? = job.errorCode := by
    cases job.errorCode with
    | none => rfl
    | some code => exact code.ofText?_text
  simp only [Relayer.parseJobFields, textField, digestField, actionField, hread, hdust, htransaction,
    herror, Option.bind_some, Json.string?_string, CivicActionKind.ofText?_text, Status.ofText?_text,
    Option.bind_eq_bind, Option.filter_some, h.requestHash, h.capabilityDigest, h.txDigest, if_true,
    Option.elim_some, Json.array?_array, mapM_ofText?, Option.pure_def, present_of_ne h.dustReservationId,
    present_of_ne h.transactionId, hcode]

theorem Job.Readable.parseJob {job : Job} (h : job.Readable) :
    parseJob (record job.fields) = .ok job := by
  have hreceipt : field? (defined job.fields) (js "receipt") =
      job.receipt.map fun receipt ↦ record receipt.fields :=
    field?_defined job.fields_nodup (by simp only [Job.fields, List.mem_cons, true_or, or_true])
  simp only [Relayer.parseJob, record?_record, h.parseJobFields, hreceipt]
  cases hjob : job.receipt with
  | none =>
    change Except.ok { job with receipt := none } = .ok job
    rw [← hjob]
  | some receipt =>
    have hparse := parseReceipt_record (h.receipt receipt hjob)
    have htruthy : (record receipt.fields).truthy = true := rfl
    simp only [Option.map_some, Option.filter_some, htruthy, if_true, hparse]
    change Except.ok { job with receipt := some receipt } = .ok job
    rw [← hjob]

/-- A reservation that is read back as it is written. -/
structure Reservation.Readable (reservation : Reservation) : Prop where
  digest : isDigest reservation.digest
  requestHash : isDigest reservation.requestHash
  expiresAt : |reservation.expiresAt| ≤ maxSafeInteger

theorem Reservation.Readable.parseCapability {reservation : Reservation} (h : reservation.Readable) :
    parseCapability (record reservation.fields) = .ok reservation := by
  have hread : ∀ field ∈ reservation.fields, field? (defined reservation.fields) field.1 = field.2 :=
    fun _ hmem ↦ field?_defined reservation.fields_nodup hmem
  simp only [Relayer.parseCapability, record?_record, Option.bind_eq_bind, Option.bind_some]
  generalize defined reservation.fields = fields at hread ⊢
  simp only [Reservation.fields, List.forall_mem_cons, List.not_mem_nil, false_imp_iff, implies_true,
    and_true] at hread
  simp only [textField, digestField, actionField, hread, Option.bind_some, Json.string?_string,
    CivicActionKind.ofText?_text, safeInteger?_integer h.expiresAt, Option.filter_some, h.digest,
    h.requestHash, if_true, Option.pure_def]

/-! ## States -/

section Entries

variable {α : Type} {key : α → JsString} {parse : Json → Except StoreError α} {write : α → Json}

theorem parseEntry_write (mismatch : String) (object : PlainObject key) {a : α}
    (h : parse (write a) = .ok a) :
    parseEntry key parse mismatch object (key a, write a) = .ok (object.assign a) := by
  rw [parseEntry, h]
  exact if_pos rfl

/-- The entries of an object are read back in the order in which they are written. -/
theorem parseEntries_map (mismatch : String) (object : PlainObject key)
    (hparse : ∀ a ∈ object.entries, parse (write a) = .ok a)
    (hname : ∀ a ∈ object.entries, key a ∉ prototypeNames) :
    parseEntries key parse mismatch (object.entries.map fun a ↦ (key a, write a)) = .ok object := by
  have horder : propertyOrder Prod.fst (object.entries.map fun a ↦ (key a, write a)) =
      object.entries.map fun a ↦ (key a, write a) := by
    rw [propertyOrder_map key (f := fun a ↦ (key a, write a)) (fun _ ↦ rfl),
      propertyOrder_eq_self key object.ordered]
  rw [parseEntries, horder]
  exact PlainObject.foldlM_assign (fun a ha acc ↦ parseEntry_write mismatch acc (hparse a ha)) hname

end Entries

theorem not_prototype_of_isDigest {text : JsString} (h : isDigest text) : text ∉ prototypeNames := by
  have hlength : ∀ name ∈ prototypeNames, name.length ≠ 64 := by decide +kernel
  intro hmem
  refine hlength text hmem ?_
  simp only [isDigest, Bool.and_eq_true, beq_iff_eq] at h
  exact h.1

/-- A state whose entries are read back as they are written, under names of their own. -/
structure FileState.Readable (state : FileState) : Prop where
  jobs : ∀ job ∈ state.jobs.entries, job.Readable
  names : ∀ job ∈ state.jobs.entries, job.id ∉ prototypeNames
  capabilities : ∀ reservation ∈ state.capabilities.entries, reservation.Readable

theorem FileState.Readable.parseState {state : FileState} (h : state.Readable) :
    parseState state.serialize = .ok state := by
  have hjobs := parseEntries_map "V2 action state has a mismatched job key" state.jobs
    (fun job hjob ↦ (h.jobs job hjob).parseJob) h.names
  have hcapabilities := parseEntries_map "V2 capability state has a mismatched key" state.capabilities
    (fun reservation hmem ↦ (h.capabilities reservation hmem).parseCapability)
    fun reservation hmem ↦ not_prototype_of_isDigest (h.capabilities reservation hmem).digest
  have hread : ∀ field ∈ state.fields, field? (defined state.fields) field.1 = field.2 :=
    fun _ hmem ↦ field?_defined state.fields_nodup hmem
  simp only [Relayer.parseState, FileState.serialize, record?_record]
  generalize defined state.fields = fields at hread ⊢
  simp only [FileState.fields, List.forall_mem_cons, List.not_mem_nil, false_imp_iff, implies_true,
    and_true] at hread
  simp only [hread, Option.bind_some, Json.record?_object, safeInteger?_integer (n := 1) (by decide),
    ne_eq, not_true_eq_false, if_false, hjobs, hcapabilities]
  rfl

/-! ## Runs of the store in memory -/

namespace MemoryStore

/-- The state of the file for the state of a store in memory. -/
def fileState (s : MemoryStore) : FileState := ⟨.ofKeyed s.jobs, .ofKeyed s.capabilities⟩

/-- The condition under which a file serves a call as memory does. -/
def FileAgreeable (s : MemoryStore) : StoreCall → Prop
  | .createOrGet input =>
    if input.id ∈ prototypeNames then ∃ job ∈ s.existing input, job.requestHash ≠ input.requestHash
    else s.get input.id = none →
      ((propertyOrder Job.id s.jobs.entries).find? fun job ↦
        job.idempotencyKey = input.idempotencyKey ∨ job.requestHash = input.requestHash) =
      s.jobs.entries.find? fun job ↦
        job.idempotencyKey = input.idempotencyKey ∨ job.requestHash = input.requestHash
  | .get id => id ∉ prototypeNames
  | .getByIdempotencyKey _ => True
  | .consumeCapability reservation =>
    s.capabilities.get? reservation.digest = none → reservation.Readable
  | .transition id expected patch => ∀ job ∈ s.get id, job.status ∈ expected →
    (∀ receipt ∈ patch.receipt, sanitizeCanonicalReceipt receipt = .ok receipt) →
      patch.dustReservationId ≠ some [] ∧ patch.transactionId ≠ some []
  | .reserveDust id reservationId => ∀ job ∈ s.get id, job.status = .validated →
    s.leased id = false → reservationId ≠ []
  | .listRecoverable => s.listRecoverable.Pairwise (Before Job.id)

instance (reservation : Reservation) : Decidable reservation.Readable :=
  decidable_of_iff (isDigest reservation.digest ∧ isDigest reservation.requestHash ∧
      |reservation.expiresAt| ≤ maxSafeInteger)
    ⟨fun ⟨h₁, h₂, h₃⟩ ↦ ⟨h₁, h₂, h₃⟩, fun ⟨h₁, h₂, h₃⟩ ↦ ⟨h₁, h₂, h₃⟩⟩

instance (s : MemoryStore) : (call : StoreCall) → Decidable (s.FileAgreeable call)
  | .createOrGet input => inferInstanceAs (Decidable (if input.id ∈ prototypeNames then
      ∃ job ∈ s.existing input, job.requestHash ≠ input.requestHash
    else s.get input.id = none →
      ((propertyOrder Job.id s.jobs.entries).find? fun job ↦
        job.idempotencyKey = input.idempotencyKey ∨ job.requestHash = input.requestHash) =
      s.jobs.entries.find? fun job ↦
        job.idempotencyKey = input.idempotencyKey ∨ job.requestHash = input.requestHash))
  | .get id => inferInstanceAs (Decidable (id ∉ prototypeNames))
  | .getByIdempotencyKey _ => isTrue trivial
  | .consumeCapability reservation => inferInstanceAs (Decidable
    (s.capabilities.get? reservation.digest = none → reservation.Readable))
  | .transition id expected patch => inferInstanceAs (Decidable (∀ job ∈ s.get id,
    job.status ∈ expected → (∀ receipt ∈ patch.receipt, sanitizeCanonicalReceipt receipt = .ok receipt) →
      patch.dustReservationId ≠ some [] ∧ patch.transactionId ≠ some []))
  | .reserveDust id reservationId => inferInstanceAs (Decidable (∀ job ∈ s.get id,
    job.status = .validated → s.leased id = false → reservationId ≠ []))
  | .listRecoverable => inferInstanceAs (Decidable (s.listRecoverable.Pairwise (Before Job.id)))

/-- What holds of a store whose calls were all served alike. -/
structure Recorded (s : MemoryStore) : Prop where
  jobs : ∀ job ∈ s.jobs.entries, job.Readable ∧ job.id ∉ prototypeNames
  capabilities : ∀ reservation ∈ s.capabilities.entries, reservation.Readable
  keyed : s.Keyed

theorem Recorded.empty : MemoryStore.empty.Recorded :=
  ⟨by simp [MemoryStore.empty], by simp [MemoryStore.empty], .empty⟩

variable {s : MemoryStore}

theorem Recorded.readable (h : s.Recorded) : s.fileState.Readable where
  jobs job hjob := (h.jobs job ((mem_propertyOrder Job.id).mp hjob)).1
  names job hjob := (h.jobs job ((mem_propertyOrder Job.id).mp hjob)).2
  capabilities reservation hmem :=
    h.capabilities reservation ((mem_propertyOrder Reservation.digest).mp hmem)

theorem Recorded.exec (h : s.Recorded) {call : StoreCall} (hagree : s.FileAgreeable call)
    (now : JsString) : (s.exec now call).2.Recorded := by
  have hjobs : ∀ {id job}, (s.exec now call).2.get id = some job →
      job.Readable ∧ job.id ∉ prototypeNames := by
    intro id next hnext
    have hchange := exec_change s now call id
    rw [hnext] at hchange
    generalize hold : s.get id = old at hchange
    cases hchange with
    | same => exact h.jobs next (mem_of_get hold)
    | @created input hnone hvalid =>
      have hname : input.id ∉ prototypeNames := by
        intro hmem
        obtain ⟨job, hjob, _⟩ := (if_pos hmem).mp hagree
        rw [hnone] at hjob
        cases hjob
      exact ⟨⟨hvalid.requestHash, hvalid.capabilityDigest, hvalid.txDigest, by simp [NewJob.job],
        by simp [NewJob.job], by simp [NewJob.job]⟩, hname⟩
    | @moved id expected patch job hexpected hid hreceipt =>
      obtain ⟨hreadable, hname⟩ := h.jobs job (mem_of_get hold)
      have hpatch : ∀ receipt ∈ patch.receipt, sanitizeCanonicalReceipt receipt = .ok receipt :=
        fun receipt hmem ↦ hreceipt receipt (Option.or_eq_some_iff.mpr (.inl hmem))
      obtain ⟨hdust, htransaction⟩ := hagree job hold hexpected hpatch
      exact ⟨hreadable.patch hdust htransaction hreceipt, hname⟩
    | @reserved id reservationId job hstatus hid hfree =>
      obtain ⟨hreadable, hname⟩ := h.jobs job (mem_of_get hold)
      exact ⟨⟨hreadable.requestHash, hreadable.capabilityDigest, hreadable.txDigest,
        by simpa [Job.reserve] using hagree job hold hstatus hfree, hreadable.transactionId,
        hreadable.receipt⟩, hname⟩
  refine ⟨fun job hjob ↦ hjobs (get_of_mem hjob), ?_, h.keyed.exec now call⟩
  obtain hsame | ⟨reservation, rfl, hnone, hset⟩ := exec_capabilities s now call
  · rw [hsame]
    exact h.capabilities
  · rw [hset]
    intro other hmem
    obtain rfl | ⟨hold, _⟩ := KeyedList.mem_set.mp hmem
    · exact hagree hnone
    · exact h.capabilities other hold

end MemoryStore

/-! ## The operations on both states -/

section Operations

variable {s : MemoryStore}

theorem property_of_get {id : JsString} {job : Job} (h : s.get id = some job) :
    s.fileState.jobs.property id = .own job :=
  PlainObject.property_of_get? h

/-- A query for the job of a unique value. -/
theorem find?_propertyOrder {f : Job → JsString} (hunique : (s.jobs.entries.map f).Nodup)
    (value : JsString) : (propertyOrder Job.id s.jobs.entries).find? (fun job ↦ f job = value) =
      s.jobs.entries.find? fun job ↦ f job = value := by
  have hperm := propertyOrder_perm Job.id s.jobs.entries
  let memory : KeyedList f := ⟨s.jobs.entries, hunique⟩
  let file : KeyedList f := ⟨propertyOrder Job.id s.jobs.entries, (hperm.map f).nodup_iff.mpr hunique⟩
  change file.get? value = memory.get? value
  ext job
  rw [KeyedList.get?_eq_some, KeyedList.get?_eq_some, hperm.mem_iff]

theorem createOrGet_fileState {input : NewJob} (hagree : s.FileAgreeable (.createOrGet input)) :
    s.fileState.createOrGet input = ((s.createOrGet input).1, (s.createOrGet input).2.fileState) := by
  simp only [FileState.createOrGet, FileState.existing, MemoryStore.createOrGet]
  cases hget : s.get input.id with
  | some job =>
    have hexisting : s.existing input = some job := by rw [MemoryStore.existing, hget]; rfl
    rw [property_of_get hget, hexisting]
    dsimp only
    split
    · rfl
    · rfl
  | none =>
    have hproperty : s.fileState.jobs.property input.id =
        if input.id ∈ prototypeNames then .inherited else .undefined :=
      PlainObject.property_of_not_get? hget
    by_cases hname : input.id ∈ prototypeNames
    · obtain ⟨job, hexisting, hhash⟩ := (if_pos hname).mp hagree
      have hexisting : s.existing input = some job := hexisting
      rw [hproperty, if_pos hname, hexisting]
      dsimp only
      rw [if_pos hhash]
    · have hfind := (if_neg hname).mp hagree hget
      have hexisting : s.existing input = s.jobs.entries.find? fun job ↦
          job.idempotencyKey = input.idempotencyKey ∨ job.requestHash = input.requestHash := by
        rw [MemoryStore.existing, hget]
        rfl
      rw [hproperty, if_neg hname, hexisting, ← hfind]
      dsimp only [MemoryStore.fileState, PlainObject.entries_ofKeyed]
      cases (propertyOrder Job.id s.jobs.entries).find? fun job ↦
          job.idempotencyKey = input.idempotencyKey ∨ job.requestHash = input.requestHash with
      | some job =>
        dsimp only [Option.elim_some]
        split
        · rfl
        · rfl
      | none =>
        dsimp only [Option.elim_none]
        cases hnew : newJob input with
        | error _ => rfl
        | ok job =>
          obtain ⟨_, rfl⟩ := newJob_eq_ok.mp hnew
          dsimp only
          rw [PlainObject.assign_ofKeyed s.jobs (a := input.job) hname]

theorem property_of_not_get {id : JsString} (h : s.get id = none) :
    s.fileState.jobs.property id = .inherited ∨ s.fileState.jobs.property id = .undefined := by
  have hproperty : s.fileState.jobs.property id =
      if id ∈ prototypeNames then .inherited else .undefined := PlainObject.property_of_not_get? h
  rw [hproperty]
  split
  · exact .inl rfl
  · exact .inr rfl

theorem transition_fileState (h : s.Recorded) (id : JsString) (expected : List Status) (patch : Patch)
    (now : JsString) : s.fileState.transition id expected patch now =
      ((s.transition id expected patch now).1, (s.transition id expected patch now).2.fileState) := by
  simp only [FileState.transition, MemoryStore.transition]
  cases hget : s.get id with
  | none =>
    obtain hproperty | hproperty := property_of_not_get hget
    · rw [hproperty]
    · rw [hproperty]
  | some job =>
    rw [property_of_get hget]
    dsimp only
    split
    · rfl
    · cases htransition : job.transition patch now with
      | error _ => rfl
      | ok next =>
        obtain ⟨rfl, _⟩ := Job.transition_eq_ok htransition
        dsimp only
        have hname : job.id ∉ prototypeNames := (h.jobs job (MemoryStore.mem_of_get hget)).2
        exact congrArg (fun jobs ↦ (_, FileState.mk jobs _))
          (PlainObject.assign_ofKeyed s.jobs (a := job.patch patch now) hname)

theorem leased_fileState (id : JsString) : s.fileState.leased id = s.leased id :=
  (propertyOrder_perm Job.id s.jobs.entries).any_eq

theorem reserveDust_fileState (h : s.Recorded) (id reservationId now : JsString) :
    s.fileState.reserveDust id reservationId now =
      ((s.reserveDust id reservationId now).1, (s.reserveDust id reservationId now).2.fileState) := by
  simp only [FileState.reserveDust, MemoryStore.reserveDust]
  cases hget : s.get id with
  | none =>
    obtain hproperty | hproperty := property_of_not_get hget
    · rw [hproperty]
    · rw [hproperty]
  | some job =>
    rw [property_of_get hget, leased_fileState]
    dsimp only
    split
    · rfl
    · have hname : job.id ∉ prototypeNames := (h.jobs job (MemoryStore.mem_of_get hget)).2
      exact congrArg (fun jobs ↦ (_, FileState.mk jobs _))
        (PlainObject.assign_ofKeyed s.jobs (a := job.reserve reservationId now) hname)

theorem consumeCapability_fileState {reservation : Reservation}
    (hagree : s.FileAgreeable (.consumeCapability reservation)) :
    s.fileState.consumeCapability reservation =
      ((s.consumeCapability reservation).1, (s.consumeCapability reservation).2.fileState) := by
  simp only [FileState.consumeCapability, MemoryStore.consumeCapability]
  cases hget : s.capabilities.get? reservation.digest with
  | some _ =>
    have hproperty := PlainObject.property_of_get? hget
    dsimp only [MemoryStore.fileState]
    rw [hproperty]
  | none =>
    have hproperty := PlainObject.property_of_not_get? hget
    have hname := not_prototype_of_isDigest (hagree hget).digest
    dsimp only [MemoryStore.fileState]
    rw [hproperty, if_neg hname]
    exact congrArg (fun capabilities ↦ (_, FileState.mk _ capabilities))
      (PlainObject.assign_ofKeyed s.capabilities hname)

end Operations

/-! ## The simulation -/

/-- A call of the store at a time, or a restart of the process. -/
inductive StoreEvent where
  | request (call : StoreCall) (now : JsString)
  | restart

def StoreEvent.Answer : StoreEvent → Type
  | .request call _ => Except StoreError call.Answer
  | .restart => Unit

/-- The store in memory, which outlives the restarts. -/
def MemoryStore.handle (s : MemoryStore) : (event : StoreEvent) → event.Answer × MemoryStore
  | .request call now => s.exec now call
  | .restart => ((), s)

/-- The store in the file, of which a new process finds what the last one left. -/
def File.handle (file : File) : (event : StoreEvent) → event.Answer × File
  | .request call now => File.exec file now call
  | .restart => ((), file)

/-- The condition under which a file handles an event as memory does. -/
def StoreEvent.Agreeable (s : MemoryStore) : StoreEvent → Prop
  | .request call _ => s.FileAgreeable call
  | .restart => True

instance (s : MemoryStore) : (event : StoreEvent) → Decidable (event.Agreeable s)
  | .request call _ => inferInstanceAs (Decidable (s.FileAgreeable call))
  | .restart => isTrue trivial

/-- The file is read as the state of a store in memory, and this state is written and read back as it is. -/
def File.Holds (file : File) (s : MemoryStore) : Prop :=
  ∃ state, File.read file = .ok state ∧ parseState state.serialize = .ok state ∧
    state.jobs.entries.Perm s.jobs.entries ∧ state.capabilities.entries.Perm s.capabilities.entries

/-- The file holds exactly what the store in memory does, in property order. -/
structure Saves (s : MemoryStore) (file : File) : Prop where
  read : File.read file = .ok s.fileState
  recorded : s.Recorded

section Simulation

variable {s : MemoryStore} {file : File}

theorem Saves.empty : Saves MemoryStore.empty none := ⟨rfl, .empty⟩

theorem Saves.holds (h : Saves s file) : File.Holds file s :=
  ⟨s.fileState, h.read, h.recorded.readable.parseState, propertyOrder_perm Job.id s.jobs.entries,
    propertyOrder_perm Reservation.digest s.capabilities.entries⟩

/-- An operation that does the same on both states, and changes nothing when it throws. -/
theorem Saves.update (h : Saves s file) {α : Type} {s' : MemoryStore} {answer : Except StoreError α}
    {operation : FileState → Except StoreError α × FileState}
    (hoperation : operation s.fileState = (answer, s'.fileState))
    (herror : ∀ e, answer = .error e → s' = s) (hrecorded : s'.Recorded) :
    answer = (File.update file operation).1 ∧ Saves s' (File.update file operation).2 := by
  simp only [File.update, h.read, hoperation]
  cases answer with
  | error e =>
    obtain rfl := herror e rfl
    exact ⟨rfl, h⟩
  | ok a => exact ⟨rfl, hrecorded.readable.parseState, hrecorded⟩

theorem MemoryStore.createOrGet_error {input : NewJob} {e : StoreError}
    (h : (s.createOrGet input).1 = .error e) : (s.createOrGet input).2 = s := by
  unfold MemoryStore.createOrGet at h ⊢
  split
  · split
    · rfl
    · rfl
  · split
    · rfl
    · next hexisting _ job hnew => simp [hexisting, hnew] at h

theorem MemoryStore.transition_error {id : JsString} {expected : List Status} {patch : Patch}
    {now : JsString} {e : StoreError} (h : (s.transition id expected patch now).1 = .error e) :
    (s.transition id expected patch now).2 = s := by
  unfold MemoryStore.transition at h ⊢
  split
  · rfl
  · next job hget =>
    split
    · rfl
    · next hexpected =>
      split
      · rfl
      · next next htransition => simp [hget, hexpected, htransition] at h

theorem Saves.exec (h : Saves s file) {call : StoreCall} (hagree : s.FileAgreeable call)
    (now : JsString) : (s.exec now call).1 = (File.exec file now call).1 ∧
      Saves (s.exec now call).2 (File.exec file now call).2 := by
  have hrecorded := h.recorded.exec hagree now
  cases call with
  | createOrGet input =>
    exact h.update (createOrGet_fileState hagree) (fun _ ↦ MemoryStore.createOrGet_error) hrecorded
  | get id =>
    have hget : s.fileState.get id = .ok (s.get id) := by
      rw [FileState.get]
      cases hget : s.get id with
      | some job => rw [property_of_get hget]
      | none =>
        have hproperty := PlainObject.property_of_not_get? hget
        have hname : id ∉ prototypeNames := hagree
        dsimp only [MemoryStore.fileState]
        rw [hproperty, if_neg hname]
    simp only [MemoryStore.exec, File.exec, h.read]
    exact ⟨hget.symm, h⟩
  | getByIdempotencyKey key =>
    simp only [MemoryStore.exec, File.exec, h.read]
    exact ⟨congrArg Except.ok (find?_propertyOrder h.recorded.keyed.idempotencyKey key).symm, h⟩
  | consumeCapability reservation =>
    have hoperation := consumeCapability_fileState hagree
    exact h.update (congrArg (fun result : Bool × FileState ↦ (Except.ok result.1, result.2)) hoperation)
      (fun _ herror ↦ by cases herror) hrecorded
  | transition id expected patch =>
    exact h.update (transition_fileState h.recorded id expected patch now)
      (fun _ ↦ MemoryStore.transition_error) hrecorded
  | reserveDust id reservationId =>
    have hoperation := reserveDust_fileState h.recorded id reservationId now
    exact h.update (congrArg (fun result : Option Job × FileState ↦ (Except.ok result.1, result.2))
      hoperation) (fun _ herror ↦ by cases herror) hrecorded
  | listRecoverable =>
    simp only [MemoryStore.exec, File.exec, h.read]
    exact ⟨congrArg Except.ok (propertyOrder_filter Job.id hagree).symm, h⟩

end Simulation

/-- **A file in place of the store in memory.** In every run whose events are each agreeable in the state in
which they arrive, with the process restarted at any time, both stores answer the same, and the file holds
exactly the jobs and the capabilities of the store in memory. -/
theorem file_replaces_memory (events : List StoreEvent)
    (hagree : Simulation.Meets StoreEvent.Agreeable MemoryStore.handle MemoryStore.empty events) :
    Simulation.Alike (fun _ answer answer' ↦ answer = answer') MemoryStore.handle File.handle
        MemoryStore.empty none events ∧
      File.Holds (Simulation.finalState File.handle none events)
        (Simulation.finalState MemoryStore.handle MemoryStore.empty events) := by
  have hstep : ∀ s file (event : StoreEvent), Saves s file → event.Agreeable s →
      (s.handle event).1 = (File.handle file event).1 ∧
        Saves (s.handle event).2 (File.handle file event).2 := by
    intro s file event hsaves hevent
    cases event with
    | request call now => exact hsaves.exec hevent now
    | restart => exact ⟨rfl, hsaves⟩
  have hrun := Simulation.simulation hstep Saves.empty events hagree
  exact ⟨hrun.1, hrun.2.holds⟩

/-! ## Sample runs -/

/-- An input of the given id and request hash. -/
def storedInput (id : String) (hash : Char) : NewJob where
  id := js id
  idempotencyKey := js id
  capabilityDigest := List.replicate 64 hash.toNat.toUInt16
  requestHash := List.replicate 64 hash.toNat.toUInt16
  txDigest := List.replicate 64 hash.toNat.toUInt16
  network := js "preview"
  contractAddress := js "contract"
  circuit := js "castVote"
  action := .vote
  now := js "2026-01-01T00:00:00.000Z"

/-- Two jobs, of which the first reaches its DUST reservation between two restarts. -/
def storedEvents : List StoreEvent :=
  let request (call : StoreCall) : StoreEvent := .request call (js "2026-01-01T00:00:01.000Z")
  [request (.createOrGet (storedInput "7" 'a')),
    request (.createOrGet (storedInput "job" 'b')),
    request (.transition (js "7") [.authorized] { status := some .validated }),
    .restart,
    request (.reserveDust (js "7") (js "lease")),
    request (.get (js "7")),
    .restart,
    request .listRecoverable]

theorem file_replaces_memory_sample :
    Simulation.Alike (fun _ answer answer' ↦ answer = answer') MemoryStore.handle File.handle
        MemoryStore.empty none storedEvents ∧
      File.Holds (Simulation.finalState File.handle none storedEvents)
        (Simulation.finalState MemoryStore.handle MemoryStore.empty storedEvents) := by
  refine file_replaces_memory storedEvents ?_
  simp only [storedEvents, Simulation.meets_cons, Simulation.meets_nil, and_true]
  decide +kernel

/-- The memory creates a job under the name of an inherited property, where the file finds the property. It
lists two jobs in the order of their creation, where the file lists them in the order of their indices. -/
theorem file_is_a_plain_object :
    ¬Simulation.Alike (fun _ answer answer' ↦ answer = answer') MemoryStore.handle File.handle
        MemoryStore.empty none [.request (.createOrGet (storedInput "constructor" 'a')) []] ∧
      ¬Simulation.Alike (fun _ answer answer' ↦ answer = answer') MemoryStore.handle File.handle
        MemoryStore.empty none [.request (.createOrGet (storedInput "2" 'a')) [],
          .request (.createOrGet (storedInput "1" 'b')) [], .request .listRecoverable []] := by
  refine ⟨fun halike ↦ ?_, fun halike ↦ ?_⟩
  · have hcreated := halike [] _ [] rfl
    have hisOk := congrArg (fun answer : Except StoreError (Job × Bool) ↦ answer.isOk) hcreated
    revert hisOk
    decide +kernel
  · have hlisted := halike [.request (.createOrGet (storedInput "2" 'a')) [],
      .request (.createOrGet (storedInput "1" 'b')) []] (.request .listRecoverable []) [] rfl
    have hids := congrArg (fun answer : Except StoreError (List Job) ↦
      answer.toOption.map (List.map Job.id)) hlisted
    revert hids
    decide +kernel

end MidnightReferendum.Relayer
