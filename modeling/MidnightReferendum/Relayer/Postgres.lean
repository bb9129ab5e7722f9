import Mathlib.Data.List.Sort
import MidnightReferendum.Js.Library
import MidnightReferendum.Relayer.Store

/-!
# The store in PostgreSQL

`PostgresV2ActionStore` over the two tables of `V2_POSTGRES_SCHEMA`. Transactions are serial, so each
call is one step. A text column holds the strings of `isText`, and a `timestamptz` holds microseconds.
The rows of a query come in any order that its `ORDER BY` allows.
-/

namespace MidnightReferendum.Relayer

open Js

/-- A string in UTF-8 without U+0000: every surrogate is one of a pair. -/
def isText : JsString → Bool
  | u :: v :: rest =>
    if 0xD800 ≤ u && u ≤ 0xDBFF && 0xDC00 ≤ v && v ≤ 0xDFFF then isText rest
    else !(u == 0 || (0xD800 ≤ u && u ≤ 0xDFFF)) && isText (v :: rest)
  | [u] => !(u == 0 || (0xD800 ≤ u && u ≤ 0xDFFF))
  | [] => true

/-- A row of `v2_action_jobs`. -/
structure Row where
  id : JsString
  idempotencyKey : JsString
  requestHash : JsString
  capabilityDigest : JsString
  txDigest : JsString
  network : JsString
  contractAddress : JsString
  circuit : JsString
  action : CivicActionKind
  status : Status
  transitions : List Status
  dustReservationId : Option JsString
  transactionId : Option JsString
  receipt : Option CanonicalReceipt
  errorCode : Option ErrorCode
  createdAt : ℤ
  updatedAt : ℤ
  deriving DecidableEq

/-- How a call fails: the adapter throws, or the database does. -/
inductive PostgresError where
  | thrown (error : StoreError)
  | uniqueViolation (column : String)
  | invalidTimestamp
  deriving DecidableEq

/-- The order in which the rows of a query come without `ORDER BY`. -/
structure RowOrder where
  scan : List Row → List Row
  perm : ∀ rows, (scan rows).Perm rows

def parseTransitions (value : List Status) (fallback : Status) : List Status :=
  if value.isEmpty then [fallback] else value

/-- `toIso` of an instant in the range of `Date` -/
def toIso (instant : ℤ) : JsString := (toISOString (instant / 1000)).getD []

/-- The job of a row, up to the check of its receipt. -/
def Row.job (row : Row) : Job where
  id := row.id
  idempotencyKey := row.idempotencyKey
  capabilityDigest := row.capabilityDigest
  requestHash := row.requestHash
  txDigest := row.txDigest
  network := row.network
  contractAddress := row.contractAddress
  circuit := row.circuit
  action := row.action
  status := row.status
  transitions := parseTransitions row.transitions row.status
  dustReservationId := present row.dustReservationId
  transactionId := present row.transactionId
  receipt := row.receipt
  errorCode := row.errorCode
  createdAt := toIso row.createdAt
  updatedAt := toIso row.updatedAt

def rowToJob (row : Row) : Except PostgresError Job :=
  match row.receipt with
  | none => .ok row.job
  | some receipt =>
    match sanitizeCanonicalReceipt receipt with
    | .error e => .error (.thrown e)
    | .ok receipt => .ok { row.job with receipt := some receipt }

/-- The row that `createOrGet` inserts. -/
def NewJob.row (input : NewJob) (instant : ℤ) : Row where
  id := input.id
  idempotencyKey := input.idempotencyKey
  requestHash := input.requestHash
  capabilityDigest := input.capabilityDigest
  txDigest := input.txDigest
  network := input.network
  contractAddress := input.contractAddress
  circuit := input.circuit
  action := input.action
  status := .authorized
  transitions := [.authorized]
  dustReservationId := none
  transactionId := none
  receipt := none
  errorCode := none
  createdAt := instant
  updatedAt := instant

/-- The assignments of a transition. -/
def Row.patch (row : Row) (patch : Patch) (instant : ℤ) : Row := { row with
  updatedAt := instant
  status := patch.status.getD row.status
  transitions := row.transitions ++ patch.status.toList
  dustReservationId := patch.dustReservationId.or row.dustReservationId
  transactionId := patch.transactionId.or row.transactionId
  receipt := patch.receipt.or row.receipt
  errorCode := patch.errorCode.or row.errorCode }

/-- The assignments of a DUST reservation. -/
def Row.reserve (row : Row) (reservationId : JsString) (instant : ℤ) : Row := { row with
  status := .dustReserved
  transitions := row.transitions ++ [.dustReserved]
  dustReservationId := some reservationId
  updatedAt := instant }

/-- The two tables. -/
structure PostgresStore where
  jobs : KeyedList Row.id
  capabilities : KeyedList Reservation.digest

namespace PostgresStore

def empty : PostgresStore := ⟨KeyedList.empty _, KeyedList.empty _⟩

section Calls

variable (s : PostgresStore) (order : RowOrder)

/-- The rows of a query without `ORDER BY`. -/
def select (condition : Row → Bool) : List Row := order.scan (s.jobs.entries.filter condition)

/-- A row has the id, the key, the request hash or the capability digest of an input. -/
def matching (input : NewJob) (row : Row) : Bool :=
  row.id = input.id || row.idempotencyKey = input.idempotencyKey || row.requestHash = input.requestHash ||
    row.capabilityDigest = input.capabilityDigest

/-- The query for an existing row: `ORDER BY (idempotency_key = $2) DESC LIMIT 1`. -/
def selectExisting (input : NewJob) : Option Row :=
  ((s.select order (matching input)).insertionSort fun a b ↦
    b.idempotencyKey = input.idempotencyKey → a.idempotencyKey = input.idempotencyKey).head?

/-- `createOrGet`. The insertion does nothing if a unique column has the value already. -/
def createOrGet (instantOf : JsString → Option ℤ) (input : NewJob) :
    Except PostgresError (Job × Bool) × PostgresStore :=
  match instantOf input.now with
  | none => (.error .invalidTimestamp, s)
  | some instant =>
    if s.jobs.entries.any (matching input) then
      match s.selectExisting order input with
      | none => (.error (.thrown
          (.conflict "Action id, capability, or idempotency key was already used")), s)
      | some row =>
        match rowToJob row with
        | .error e => (.error e, s)
        | .ok job =>
          if job.requestHash ≠ input.requestHash then
            (.error (.thrown (.conflict "Idempotency key was already used for another action")), s)
          else (.ok (job, false), s)
    else
      let row := input.row instant
      match rowToJob row with
      | .error e => (.error e, s)
      | .ok job => (.ok (job, true), { s with jobs := s.jobs.set row })

/-- The first row of a query, as a job. -/
def first (rows : List Row) : Except PostgresError (Option Job) :=
  match rows with
  | [] => .ok none
  | row :: _ => (rowToJob row).map some

def get (id : JsString) : Except PostgresError (Option Job) :=
  first (s.select order fun row ↦ row.id = id)

def getByIdempotencyKey (key : JsString) : Except PostgresError (Option Job) :=
  first (s.select order fun row ↦ row.idempotencyKey = key)

def consumeCapability (reservation : Reservation) : Bool × PostgresStore :=
  match s.capabilities.get? reservation.digest with
  | some _ => (false, s)
  | none => (true, { s with capabilities := s.capabilities.set reservation })

/-- Another row has the DUST reservation of a row. -/
def reserved (next : Row) : Bool :=
  s.jobs.entries.any fun row ↦
    row.id ≠ next.id && next.dustReservationId.isSome && row.dustReservationId = next.dustReservationId

/-- `UPDATE ... RETURNING *` of one row, which is rolled back on an error. -/
def update (next : Row) : Except PostgresError (Option Job) × PostgresStore :=
  if s.reserved next then (.error (.uniqueViolation "dust_reservation_id"), s)
  else
    match rowToJob next with
    | .error e => (.error e, s)
    | .ok job => (.ok (some job), { s with jobs := s.jobs.set next })

def transition (id : JsString) (expected : List Status) (patch : Patch) (instant : ℤ) :
    Except PostgresError (Option Job) × PostgresStore :=
  match patch.receipt.elim (.ok none) fun receipt ↦ (sanitizeCanonicalReceipt receipt).map some with
  | .error e => (.error (.thrown e), s)
  | .ok receipt =>
    match s.jobs.get? id with
    | none => (.ok none, s)
    | some row =>
      if row.status ∉ expected then (.ok none, s)
      else s.update (row.patch { patch with receipt } instant)

/-- A row holds the DUST lease. -/
def leased : Bool := s.jobs.entries.any fun row ↦ row.status.active

def reserveDust (id reservationId : JsString) (instant : ℤ) :
    Except PostgresError (Option Job) × PostgresStore :=
  match s.jobs.get? id with
  | none => (.ok none, s)
  | some row =>
    if row.status ≠ .validated || s.leased then (.ok none, s)
    else s.update (row.reserve reservationId instant)

def listRecoverable : Except PostgresError (List Job) :=
  ((s.select order fun row ↦ row.status.recoverable).insertionSort fun a b ↦
    a.createdAt ≤ b.createdAt).mapM rowToJob

/-- One call, where `instant` is the clock of the database. -/
def exec (instantOf : JsString → Option ℤ) (order : RowOrder) (instant : ℤ) (s : PostgresStore) :
    (call : StoreCall) → Except PostgresError call.Answer × PostgresStore
  | .createOrGet input => s.createOrGet order instantOf input
  | .get id => (s.get order id, s)
  | .getByIdempotencyKey key => (s.getByIdempotencyKey order key, s)
  | .consumeCapability reservation =>
    let (consumed, s') := s.consumeCapability reservation
    (.ok consumed, s')
  | .transition id expected patch => s.transition id expected patch instant
  | .reserveDust id reservationId => s.reserveDust id reservationId instant
  | .listRecoverable => (s.listRecoverable order, s)

end Calls

end PostgresStore

end MidnightReferendum.Relayer
