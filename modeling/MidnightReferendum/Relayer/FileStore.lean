import MidnightReferendum.Js.Object
import MidnightReferendum.Relayer.Store

/-!
# The store in a file

`FileV2ActionStore`. Every call reads the whole file and checks it, and a call that can change the state
writes it back. The file holds one JSON value, which `JSON.parse` reads as `JSON.stringify` wrote it. The
lock makes each call one step, and the process keeps nothing between two calls.
-/

namespace MidnightReferendum.Relayer

open Js

/-! ## Texts -/

def Status.text : Status → JsString
  | .authorized => js "authorized"
  | .validated => js "validated"
  | .dustReserved => js "dust_reserved"
  | .finalized => js "finalized"
  | .submitted => js "submitted"
  | .indexerPending => js "indexer_pending"
  | .confirmed => js "confirmed"
  | .failed => js "failed"
  | .recoveryRequired => js "recovery_required"

def ErrorCode.text : ErrorCode → JsString
  | .idempotencyConflict => js "idempotency_conflict"
  | .capabilityInvalid => js "capability_invalid"
  | .capabilityReplayed => js "capability_replayed"
  | .invalidRequest => js "invalid_request"
  | .notAllowlisted => js "not_allowlisted"
  | .transactionRejected => js "transaction_rejected"
  | .submissionUnknown => js "submission_unknown"
  | .submissionIdMismatch => js "submission_id_mismatch"
  | .indexerContractMismatch => js "indexer_contract_mismatch"
  | .indexerRejected => js "indexer_rejected"
  | .recoveryRequired => js "recovery_required"
  | .internalError => js "internal_error"

/-- `isStatus` -/
def Status.ofText? (text : JsString) : Option Status :=
  [.authorized, .validated, .dustReserved, .finalized, .submitted, .indexerPending, .confirmed, .failed,
    .recoveryRequired].find? fun status ↦ status.text = text

/-- `isAction` -/
def CivicActionKind.ofText? (text : JsString) : Option CivicActionKind :=
  [.credential, .vote, .cohort].find? fun action ↦ action.text = text

def ErrorCode.ofText? (text : JsString) : Option ErrorCode :=
  [.idempotencyConflict, .capabilityInvalid, .capabilityReplayed, .invalidRequest, .notAllowlisted,
    .transactionRejected, .submissionUnknown, .submissionIdMismatch, .indexerContractMismatch,
    .indexerRejected, .recoveryRequired, .internalError].find? fun code ↦ code.text = text

/-- The names of one list, no two of which have a text in common, are found by their texts. -/
theorem find?_text {α : Type} {text : α → JsString} {names : List α} (h : (names.map text).Nodup) {name : α}
    (hname : name ∈ names) : (names.find? fun other ↦ text other = text name) = some name := by
  obtain ⟨before, after, rfl⟩ := List.append_of_mem hname
  rw [List.map_append, List.map_cons, List.nodup_middle, List.nodup_cons, List.mem_append, not_or] at h
  have hbefore : (before.find? fun other ↦ text other = text name) = none := by
    apply List.find?_eq_none.mpr
    intro other hother
    rw [decide_eq_true_eq]
    exact fun htext ↦ h.1.1 (htext ▸ List.mem_map_of_mem hother)
  rw [List.find?_append, hbefore, Option.none_or]
  exact List.find?_cons_of_pos (decide_eq_true rfl)

theorem Status.ofText?_text (status : Status) : Status.ofText? status.text = some status :=
  find?_text (by decide +kernel) (by cases status <;> decide)

theorem CivicActionKind.ofText?_text (action : CivicActionKind) :
    CivicActionKind.ofText? action.text = some action :=
  find?_text (by decide +kernel) (by cases action <;> decide)

theorem ErrorCode.ofText?_text (code : ErrorCode) : ErrorCode.ofText? code.text = some code :=
  find?_text (by decide +kernel) (by cases code <;> decide)

/-! ## What is written -/

/-- The fields that are not `undefined`. -/
def defined (fields : List (JsString × Option Json)) : List (JsString × Json) :=
  fields.filterMap fun field ↦ field.2.map fun value ↦ (field.1, value)

def record (fields : List (JsString × Option Json)) : Json := .object (defined fields)

def integer (n : ℤ) : Json := .number (.finite n)

def CanonicalReceipt.fields (receipt : CanonicalReceipt) : List (JsString × Option Json) := [
  (js "status", some (.string (js "confirmed"))),
  (js "action", some (.string receipt.action.text)),
  (js "network", some (.string receipt.network)),
  (js "transactionId", some (.string receipt.transactionId)),
  (js "transactionHash", some (.string receipt.transactionHash)),
  (js "contractAddress", some (.string receipt.contractAddress)),
  (js "circuit", some (.string receipt.circuit)),
  (js "blockHeight", some (integer receipt.blockHeight)),
  (js "blockHash", some (.string receipt.blockHash)),
  (js "blockTimestamp", some (.string receipt.blockTimestamp)),
  (js "explorerUrl", receipt.explorerUrl.map .string)]

def Job.fields (job : Job) : List (JsString × Option Json) := [
  (js "id", some (.string job.id)),
  (js "idempotencyKey", some (.string job.idempotencyKey)),
  (js "capabilityDigest", some (.string job.capabilityDigest)),
  (js "requestHash", some (.string job.requestHash)),
  (js "txDigest", some (.string job.txDigest)),
  (js "network", some (.string job.network)),
  (js "contractAddress", some (.string job.contractAddress)),
  (js "circuit", some (.string job.circuit)),
  (js "action", some (.string job.action.text)),
  (js "status", some (.string job.status.text)),
  (js "transitions", some (.array (job.transitions.map fun status ↦ .string status.text))),
  (js "dustReservationId", job.dustReservationId.map .string),
  (js "transactionId", job.transactionId.map .string),
  (js "receipt", job.receipt.map fun receipt ↦ record receipt.fields),
  (js "errorCode", job.errorCode.map fun code ↦ .string code.text),
  (js "createdAt", some (.string job.createdAt)),
  (js "updatedAt", some (.string job.updatedAt))]

def Reservation.fields (reservation : Reservation) : List (JsString × Option Json) := [
  (js "digest", some (.string reservation.digest)),
  (js "actionId", some (.string reservation.actionId)),
  (js "idempotencyKey", some (.string reservation.idempotencyKey)),
  (js "requestHash", some (.string reservation.requestHash)),
  (js "network", some (.string reservation.network)),
  (js "contractAddress", some (.string reservation.contractAddress)),
  (js "circuit", some (.string reservation.circuit)),
  (js "action", some (.string reservation.action.text)),
  (js "expiresAt", some (integer reservation.expiresAt))]

/-- `V2FileState`, whose version is the constant 1. -/
structure FileState where
  jobs : PlainObject Job.id
  capabilities : PlainObject Reservation.digest

def FileState.fields (state : FileState) : List (JsString × Option Json) := [
  (js "version", some (integer 1)),
  (js "jobs", some (.object (state.jobs.entries.map fun job ↦ (job.id, record job.fields)))),
  (js "capabilities", some (.object (state.capabilities.entries.map fun reservation ↦
    (reservation.digest, record reservation.fields))))]

/-- The value that `JSON.stringify` writes for a state. -/
def FileState.serialize (state : FileState) : Json := record state.fields

/-! ## What is read -/

section Fields

variable (fields : List (JsString × Json)) (name : String)

def textField : Option JsString := (field? fields (js name)).bind Json.string?

def digestField : Option JsString := (textField fields name).filter isDigest

def actionField : Option CivicActionKind := (textField fields name).bind CivicActionKind.ofText?

/-- A text or nothing. -/
def optionalField : Option (Option JsString) :=
  match field? fields (js name) with
  | none => some none
  | some value => value.string?.map some

end Fields

/-- `sanitizeCanonicalReceipt` of a parsed value. -/
def parseReceipt (value : Json) : Except StoreError CanonicalReceipt :=
  match value.record? with
  | none => .error (.invalid "receipt must be an object")
  | some fields =>
    let receipt : Option CanonicalReceipt := do
      let _ ← (textField fields "status").filter (· = js "confirmed")
      let action ← actionField fields "action"
      let network ← textField fields "network"
      let transactionId ← textField fields "transactionId"
      let transactionHash ← textField fields "transactionHash"
      let contractAddress ← textField fields "contractAddress"
      let circuit ← textField fields "circuit"
      let blockHeight ← (field? fields (js "blockHeight")).bind Json.safeInteger?
      let blockHash ← textField fields "blockHash"
      let blockTimestamp ← textField fields "blockTimestamp"
      let explorerUrl ← optionalField fields "explorerUrl"
      return { action, network, transactionId, transactionHash, contractAddress, circuit, blockHeight,
               blockHash, blockTimestamp, explorerUrl }
    match receipt with
    | none => .error (.invalid "receipt is not a canonical confirmed public receipt")
    | some receipt => sanitizeCanonicalReceipt receipt

/-- The job of the checked fields, but for its receipt. An error code is cast in the source, here a text
that is none is dropped. -/
def parseJobFields (fields : List (JsString × Json)) : Option Job := do
  let id ← textField fields "id"
  let idempotencyKey ← textField fields "idempotencyKey"
  let requestHash ← digestField fields "requestHash"
  let capabilityDigest ← digestField fields "capabilityDigest"
  let txDigest ← digestField fields "txDigest"
  let network ← textField fields "network"
  let contractAddress ← textField fields "contractAddress"
  let circuit ← textField fields "circuit"
  let action ← actionField fields "action"
  let status ← (textField fields "status").bind Status.ofText?
  let transitions ← (field? fields (js "transitions")).elim (some [status]) fun value ↦
    value.array?.bind fun items ↦ items.mapM fun item ↦ item.string?.bind Status.ofText?
  let createdAt ← textField fields "createdAt"
  let updatedAt ← textField fields "updatedAt"
  let transactionId ← optionalField fields "transactionId"
  let dustReservationId ← optionalField fields "dustReservationId"
  let errorCode ← optionalField fields "errorCode"
  return {
    id, idempotencyKey, capabilityDigest, requestHash, txDigest, network, contractAddress, circuit
    action, status, transitions
    dustReservationId := present dustReservationId
    transactionId := present transactionId
    receipt := none
    errorCode := errorCode.bind ErrorCode.ofText?
    createdAt, updatedAt }

def parseJob (value : Json) : Except StoreError Job :=
  match value.record? with
  | none => .error (.corrupt "V2 action state contains an invalid job")
  | some fields =>
    match parseJobFields fields with
    | none => .error (.corrupt "V2 action state contains an invalid job")
    | some job =>
      match (field? fields (js "receipt")).filter Json.truthy with
      | none => .ok job
      | some receipt => do
        let receipt ← parseReceipt receipt
        return { job with receipt := some receipt }

def parseCapability (value : Json) : Except StoreError Reservation :=
  let reservation : Option Reservation := do
    let fields ← value.record?
    let digest ← digestField fields "digest"
    let actionId ← textField fields "actionId"
    let idempotencyKey ← textField fields "idempotencyKey"
    let requestHash ← digestField fields "requestHash"
    let network ← textField fields "network"
    let contractAddress ← textField fields "contractAddress"
    let circuit ← textField fields "circuit"
    let action ← actionField fields "action"
    let expiresAt ← (field? fields (js "expiresAt")).bind Json.safeInteger?
    return { digest, actionId, idempotencyKey, requestHash, network, contractAddress, circuit, action,
             expiresAt }
  match reservation with
  | none => .error (.corrupt "V2 action capability state is corrupt")
  | some reservation => .ok reservation

section Entries

variable {α : Type} (key : α → JsString) (parse : Json → Except StoreError α) (mismatch : String)

/-- An entry of an object, which must hold its own name. -/
def parseEntry (object : PlainObject key) (field : JsString × Json) :
    Except StoreError (PlainObject key) := do
  let a ← parse field.2
  if key a = field.1 then return object.assign a else throw (.corrupt mismatch)

/-- The loop over `Object.entries`. -/
def parseEntries (fields : List (JsString × Json)) : Except StoreError (PlainObject key) :=
  (propertyOrder Prod.fst fields).foldlM (parseEntry key parse mismatch) (PlainObject.empty key)

end Entries

def parseState (value : Json) : Except StoreError FileState :=
  match value.record? with
  | none => .error (.corrupt "V2 action state is corrupt or unsupported")
  | some fields =>
    match (field? fields (js "jobs")).bind Json.record? with
    | none => .error (.corrupt "V2 action state is corrupt or unsupported")
    | some jobs =>
      if (field? fields (js "version")).bind Json.safeInteger? ≠ some 1 then
        .error (.corrupt "V2 action state is corrupt or unsupported")
      else do
        let jobs ← parseEntries Job.id parseJob "V2 action state has a mismatched job key" jobs
        match field? fields (js "capabilities") with
        | none => return ⟨jobs, .empty _⟩
        | some capabilities =>
          match capabilities.record? with
          | none => throw (.corrupt "V2 action capability state is corrupt")
          | some capabilities => do
            let capabilities ← parseEntries Reservation.digest parseCapability
              "V2 capability state has a mismatched key" capabilities
            return ⟨jobs, capabilities⟩

/-! ## Operations on a state -/

namespace FileState

def empty : FileState := ⟨.empty _, .empty _⟩

variable (state : FileState)

/-- `state.jobs[input.id] ?? Object.values(state.jobs).find(...)` -/
def existing (input : NewJob) : Property Job :=
  match state.jobs.property input.id with
  | .undefined => (state.jobs.entries.find? fun job ↦
      job.idempotencyKey = input.idempotencyKey ∨ job.requestHash = input.requestHash).elim .undefined .own
  | found => found

/-- An inherited value has no request hash. -/
def createOrGet (input : NewJob) : Except StoreError (Job × Bool) × FileState :=
  match state.existing input with
  | .own job =>
    if job.requestHash ≠ input.requestHash then
      (.error (.conflict "Idempotency key was already used for another action"), state)
    else (.ok (job, false), state)
  | .inherited => (.error (.conflict "Idempotency key was already used for another action"), state)
  | .undefined =>
    match newJob input with
    | .error e => (.error e, state)
    | .ok job => (.ok (job, true), { state with jobs := state.jobs.assign job })

/-- An inherited value has no transitions that `cloneJob` can spread. -/
def get (id : JsString) : Except StoreError (Option Job) :=
  match state.jobs.property id with
  | .own job => .ok (some job)
  | .inherited => .error (.invalid "job.transitions is not iterable")
  | .undefined => .ok none

def getByIdempotencyKey (key : JsString) : Option Job :=
  state.jobs.entries.find? fun job ↦ job.idempotencyKey = key

def consumeCapability (reservation : Reservation) : Bool × FileState :=
  match state.capabilities.property reservation.digest with
  | .own _ | .inherited => (false, state)
  | .undefined => (true, { state with capabilities := state.capabilities.assign reservation })

/-- The status of an inherited value is `undefined`, which is not expected. -/
def transition (id : JsString) (expected : List Status) (patch : Patch) (now : JsString) :
    Except StoreError (Option Job) × FileState :=
  match state.jobs.property id with
  | .inherited | .undefined => (.ok none, state)
  | .own job =>
    if job.status ∉ expected then (.ok none, state)
    else
      match job.transition patch now with
      | .error e => (.error e, state)
      | .ok next => (.ok (some next), { state with jobs := state.jobs.assign next })

/-- Another job holds the DUST lease. -/
def leased (id : JsString) : Bool :=
  state.jobs.entries.any fun candidate ↦ candidate.id ≠ id && candidate.status.active

def reserveDust (id reservationId now : JsString) : Option Job × FileState :=
  match state.jobs.property id with
  | .inherited | .undefined => (none, state)
  | .own job =>
    if job.status ≠ .validated || state.leased id then (none, state)
    else
      let next := job.reserve reservationId now
      (some next, { state with jobs := state.jobs.assign next })

def listRecoverable : List Job := state.jobs.entries.filter fun job ↦ job.status.recoverable

end FileState

/-! ## The file -/

/-- What the path of the store holds: no file, or one with the given value. -/
abbrev File := Option Json

namespace File

variable (file : File)

/-- A missing file is read as the empty state. -/
def read : Except StoreError FileState := file.elim (.ok .empty) parseState

/-- Nothing is written if the operation throws. -/
def update {α : Type} (operation : FileState → Except StoreError α × FileState) :
    Except StoreError α × File :=
  match read file with
  | .error e => (.error e, file)
  | .ok state =>
    match operation state with
    | (.error e, _) => (.error e, file)
    | (.ok a, state) => (.ok a, some state.serialize)

/-- One call at the given time. -/
def exec (now : JsString) : (call : StoreCall) → Except StoreError call.Answer × File
  | .createOrGet input => update file fun state ↦ state.createOrGet input
  | .get id => (do (← read file).get id, file)
  | .getByIdempotencyKey key => (do return (← read file).getByIdempotencyKey key, file)
  | .consumeCapability reservation => update file fun state ↦
    let (consumed, state) := state.consumeCapability reservation
    (.ok consumed, state)
  | .transition id expected patch => update file fun state ↦ state.transition id expected patch now
  | .reserveDust id reservationId => update file fun state ↦
    let (job, state) := state.reserveDust id reservationId now
    (.ok job, state)
  | .listRecoverable => (do return (← read file).listRecoverable, file)

end File

end MidnightReferendum.Relayer
