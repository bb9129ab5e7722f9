import MidnightReferendum.Relayer.Types
import MidnightReferendum.Systems.KeyedList

/-!
# The store in memory

`InMemoryV2ActionStore`. Each call is one atomic step: the calls are chained on one promise. The maps
keep their entries in the order of insertion.
-/

namespace MidnightReferendum.Relayer

open Js

/-- `isNetwork` -/
def isNetwork (network : JsString) : Bool :=
  network == js "preview" || network == js "devnet" || network == js "undeployed" ||
    network == js "mainnet"

/-- `sanitizeCanonicalReceipt` for a value of the receipt type. -/
def sanitizeCanonicalReceipt (receipt : CanonicalReceipt) : Except StoreError CanonicalReceipt :=
  if !isNetwork receipt.network || receipt.blockHeight < 0 || maxSafeInteger < receipt.blockHeight ||
      receipt.transactionId.isEmpty || receipt.transactionHash.isEmpty ||
      receipt.contractAddress.isEmpty || receipt.circuit.isEmpty || receipt.blockHash.isEmpty ||
      receipt.blockTimestamp.isEmpty then
    .error (.invalid "receipt is not a canonical confirmed public receipt")
  else .ok receipt

def requireId (value : JsString) (label : String) : Except StoreError JsString :=
  if isBlank value || 256 < value.length then
    .error (.invalid (label ++ " must be a non-empty value of at most 256 characters"))
  else .ok value

def requireDigest (value : JsString) (label : String) : Except StoreError JsString :=
  if !isDigest value then .error (.invalid (label ++ " must be a SHA-256 digest")) else .ok value

/-- The job that a store creates. -/
def newJob (input : NewJob) : Except StoreError Job := do
  let id ← requireId input.id "id"
  let idempotencyKey ← requireId input.idempotencyKey "idempotencyKey"
  let capabilityDigest ← requireDigest input.capabilityDigest "capabilityDigest"
  let requestHash ← requireDigest input.requestHash "requestHash"
  let txDigest ← requireDigest input.txDigest "txDigest"
  let network ← requireId input.network "network"
  let contractAddress ← requireId input.contractAddress "contractAddress"
  let circuit ← requireId input.circuit "circuit"
  return {
    id, idempotencyKey, capabilityDigest, requestHash, txDigest, network, contractAddress, circuit
    action := input.action
    status := .authorized
    transitions := [.authorized]
    dustReservationId := none
    transactionId := none
    receipt := none
    errorCode := none
    createdAt := input.now
    updatedAt := input.now }

/-- The fields of a patch override those of the job, before the receipt is sanitized. -/
def Job.patch (job : Job) (patch : Patch) (now : JsString) : Job where
  id := job.id
  idempotencyKey := job.idempotencyKey
  capabilityDigest := job.capabilityDigest
  requestHash := job.requestHash
  txDigest := job.txDigest
  network := job.network
  contractAddress := job.contractAddress
  circuit := job.circuit
  action := job.action
  status := patch.status.getD job.status
  transitions :=
    match patch.status with
    | some status => if status = job.status then job.transitions else job.transitions ++ [status]
    | none => job.transitions
  dustReservationId := patch.dustReservationId.or job.dustReservationId
  transactionId := patch.transactionId.or job.transactionId
  receipt := patch.receipt.or job.receipt
  errorCode := patch.errorCode.or job.errorCode
  createdAt := job.createdAt
  updatedAt := now

/-- The job after a transition. -/
def Job.transition (job : Job) (patch : Patch) (now : JsString) : Except StoreError Job :=
  let next := job.patch patch now
  match next.receipt with
  | none => .ok next
  | some receipt => do
    let receipt ← sanitizeCanonicalReceipt receipt
    return { next with receipt := some receipt }

/-- The job after its DUST reservation. -/
def Job.reserve (job : Job) (reservationId now : JsString) : Job := { job with
  status := .dustReserved
  transitions := job.transitions ++ [.dustReserved]
  dustReservationId := some reservationId
  updatedAt := now }

/-- The two maps of the store. -/
structure MemoryStore where
  jobs : KeyedList Job.id
  capabilities : KeyedList Reservation.digest

namespace MemoryStore

def empty : MemoryStore := ⟨KeyedList.empty _, KeyedList.empty _⟩

def get (s : MemoryStore) (id : JsString) : Option Job := s.jobs.get? id

/-- The job of the same id, else the first job with the same idempotency key or request hash. -/
def existing (s : MemoryStore) (input : NewJob) : Option Job :=
  (s.get input.id).or (s.jobs.entries.find? fun job ↦
    job.idempotencyKey = input.idempotencyKey ∨ job.requestHash = input.requestHash)

def createOrGet (s : MemoryStore) (input : NewJob) : Except StoreError (Job × Bool) × MemoryStore :=
  match s.existing input with
  | some job =>
    if job.requestHash ≠ input.requestHash then
      (.error (.conflict "Idempotency key was already used for another action"), s)
    else (.ok (job, false), s)
  | none =>
    match newJob input with
    | .error e => (.error e, s)
    | .ok job => (.ok (job, true), { s with jobs := s.jobs.set job })

def getByIdempotencyKey (s : MemoryStore) (key : JsString) : Option Job :=
  s.jobs.entries.find? fun job ↦ job.idempotencyKey = key

def consumeCapability (s : MemoryStore) (reservation : Reservation) : Bool × MemoryStore :=
  match s.capabilities.get? reservation.digest with
  | some _ => (false, s)
  | none => (true, { s with capabilities := s.capabilities.set reservation })

def transition (s : MemoryStore) (id : JsString) (expected : List Status) (patch : Patch)
    (now : JsString) : Except StoreError (Option Job) × MemoryStore :=
  match s.get id with
  | none => (.ok none, s)
  | some job =>
    if job.status ∉ expected then (.ok none, s)
    else
      match job.transition patch now with
      | .error e => (.error e, s)
      | .ok next => (.ok (some next), { s with jobs := s.jobs.set next })

/-- Another job holds the DUST lease. -/
def leased (s : MemoryStore) (id : JsString) : Bool :=
  s.jobs.entries.any fun candidate ↦ candidate.id ≠ id && candidate.status.active

def reserveDust (s : MemoryStore) (id reservationId now : JsString) : Option Job × MemoryStore :=
  match s.get id with
  | none => (none, s)
  | some job =>
    if job.status ≠ .validated || s.leased id then (none, s)
    else
      let next := job.reserve reservationId now
      (some next, { s with jobs := s.jobs.set next })

def listRecoverable (s : MemoryStore) : List Job :=
  s.jobs.entries.filter fun job ↦ job.status.recoverable

/-- One call at the given time. -/
def exec (now : JsString) (s : MemoryStore) :
    (call : StoreCall) → Except StoreError call.Answer × MemoryStore
  | .createOrGet input => s.createOrGet input
  | .get id => (.ok (s.get id), s)
  | .getByIdempotencyKey key => (.ok (s.getByIdempotencyKey key), s)
  | .consumeCapability reservation =>
    let (consumed, s') := s.consumeCapability reservation
    (.ok consumed, s')
  | .transition id expected patch => s.transition id expected patch now
  | .reserveDust id reservationId =>
    let (job, s') := s.reserveDust id reservationId now
    (.ok job, s')
  | .listRecoverable => (.ok s.listRecoverable, s)

end MemoryStore

end MidnightReferendum.Relayer
