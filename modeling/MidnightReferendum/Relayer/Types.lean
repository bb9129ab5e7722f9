import MidnightReferendum.Js.Json

/-!
# The types of the relayer

The jobs of the walletless relayer, its errors, and the calls that the service makes to its store.
-/

namespace MidnightReferendum.Relayer

open Js

inductive CivicActionKind where
  | credential
  | vote
  | cohort
  deriving DecidableEq

/-- `V2ActionJobStatus` -/
inductive Status where
  | authorized
  | validated
  | dustReserved
  | finalized
  | submitted
  | indexerPending
  | confirmed
  | failed
  | recoveryRequired
  deriving DecidableEq

/-- `V2ActionErrorCode` -/
inductive ErrorCode where
  | idempotencyConflict
  | capabilityInvalid
  | capabilityReplayed
  | invalidRequest
  | notAllowlisted
  | transactionRejected
  | submissionUnknown
  | submissionIdMismatch
  | indexerContractMismatch
  | indexerRejected
  | recoveryRequired
  | internalError
  deriving DecidableEq

/-- `V2ActionError` -/
structure ActionError where
  code : ErrorCode
  message : String
  httpStatus : ℕ
  deriving DecidableEq

/-- A receipt. Its status is the constant `confirmed`. -/
structure CanonicalReceipt where
  action : CivicActionKind
  network : JsString
  transactionId : JsString
  transactionHash : JsString
  contractAddress : JsString
  circuit : JsString
  blockHeight : ℤ
  blockHash : JsString
  blockTimestamp : JsString
  explorerUrl : Option JsString
  deriving DecidableEq

/-- `V2ActionJob`. No transaction bytes are part of the durable record. -/
structure Job where
  id : JsString
  idempotencyKey : JsString
  capabilityDigest : JsString
  requestHash : JsString
  txDigest : JsString
  network : JsString
  contractAddress : JsString
  circuit : JsString
  action : CivicActionKind
  status : Status
  transitions : List Status
  dustReservationId : Option JsString
  transactionId : Option JsString
  receipt : Option CanonicalReceipt
  errorCode : Option ErrorCode
  createdAt : JsString
  updatedAt : JsString
  deriving DecidableEq

/-- `NewV2ActionJob`, of which no store reads `actionId`. -/
structure NewJob where
  id : JsString
  idempotencyKey : JsString
  capabilityDigest : JsString
  requestHash : JsString
  txDigest : JsString
  network : JsString
  contractAddress : JsString
  circuit : JsString
  action : CivicActionKind
  now : JsString
  deriving DecidableEq

/-- `V2CapabilityReservation` -/
structure Reservation where
  digest : JsString
  actionId : JsString
  idempotencyKey : JsString
  requestHash : JsString
  network : JsString
  contractAddress : JsString
  circuit : JsString
  action : CivicActionKind
  expiresAt : ℤ
  deriving DecidableEq

/-- The fields that a transition sets. -/
structure Patch where
  status : Option Status := none
  dustReservationId : Option JsString := none
  transactionId : Option JsString := none
  receipt : Option CanonicalReceipt := none
  errorCode : Option ErrorCode := none
  deriving DecidableEq

/-- How a call of a store fails. -/
inductive StoreError where
  /-- `V2StoreConflictError` -/
  | conflict (message : String)
  /-- a `TypeError` about an argument -/
  | invalid (message : String)
  /-- the stored data are refused -/
  | corrupt (message : String)
  /-- the store does not answer -/
  | unavailable
  deriving DecidableEq

/-- A call of `V2ActionStore`. -/
inductive StoreCall where
  | createOrGet (input : NewJob)
  | get (id : JsString)
  | getByIdempotencyKey (key : JsString)
  | consumeCapability (reservation : Reservation)
  | transition (id : JsString) (expected : List Status) (patch : Patch)
  | reserveDust (id reservationId : JsString)
  | listRecoverable
  deriving DecidableEq

/-- What a call returns when it does not throw. -/
def StoreCall.Answer : StoreCall → Type
  | .createOrGet _ => Job × Bool
  | .get _ => Option Job
  | .getByIdempotencyKey _ => Option Job
  | .consumeCapability _ => Bool
  | .transition _ _ _ => Option Job
  | .reserveDust _ _ => Option Job
  | .listRecoverable => List Job

/-- `recoverableStatuses` -/
def Status.recoverable : Status → Bool
  | .authorized | .validated | .dustReserved | .finalized | .submitted | .indexerPending => true
  | .confirmed | .failed | .recoveryRequired => false

/-- A job in such a status holds the DUST lease. -/
def Status.active : Status → Bool
  | .dustReserved | .finalized | .submitted | .indexerPending => true
  | _ => false

/-! ## Public data -/

inductive PublicStatus where
  | pending
  | confirmed
  | failed
  | recoveryRequired
  deriving DecidableEq

/-- `PublicV2ActionJob` -/
structure PublicJob where
  actionId : JsString
  status : PublicStatus
  requestHash : JsString
  network : JsString
  contractAddress : JsString
  circuit : JsString
  transitions : List Status
  transactionId : Option JsString
  receipt : Option CanonicalReceipt
  errorCode : Option ErrorCode
  deriving DecidableEq

def Status.toPublic : Status → PublicStatus
  | .confirmed => .confirmed
  | .failed => .failed
  | .recoveryRequired => .recoveryRequired
  | _ => .pending

def publicJob (job : Job) : PublicJob where
  actionId := job.id
  status := job.status.toPublic
  requestHash := job.requestHash
  network := job.network
  contractAddress := job.contractAddress
  circuit := job.circuit
  transitions := job.transitions
  transactionId := if truthy job.transactionId then job.transactionId else none
  receipt := job.receipt
  errorCode := job.errorCode

/-! ## Requests -/

/-- `V2ActionRequest` after parsing, with the transaction in lower case. -/
structure ActionRequest where
  actionId : JsString
  idempotencyKey : JsString
  network : JsString
  contractAddress : JsString
  circuit : JsString
  action : CivicActionKind
  tx : JsString
  deriving DecidableEq

def CivicActionKind.text : CivicActionKind → JsString
  | .credential => js "credential"
  | .vote => js "vote"
  | .cohort => js "cohort"

/-- The text that a request hash digests. -/
def requestPreimage (network contractAddress circuit : JsString) (action : CivicActionKind)
    (tx : JsString) : JsString :=
  js "midnight-referendum:v2-action:1:" ++ stableObject
    [(js "action", quote action.text), (js "contractAddress", quote contractAddress),
      (js "circuit", quote circuit), (js "network", quote network),
      (js "tx", quote (lowerHex tx)), (js "version", js "1")]

def v2RequestHash (sha256 : JsString → JsString) (network contractAddress circuit : JsString)
    (action : CivicActionKind) (tx : JsString) : JsString :=
  sha256 (requestPreimage network contractAddress circuit action tx)

def digestTransaction (sha256 : JsString → JsString) (tx : JsString) : JsString :=
  sha256 (js "midnight-referendum:v2-tx:1:" ++ tx)

end MidnightReferendum.Relayer
