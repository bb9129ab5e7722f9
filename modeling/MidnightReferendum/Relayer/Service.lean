import MidnightReferendum.Relayer.Store
import MidnightReferendum.Systems.Tasks

/-!
# The action service

`V2ActionService`. Its methods run in several processes that share one store. A method is suspended at
each `await`: a call of the store is waiting until the store executes it, and ready until the method
resumes with the reply; the executor and the indexer answer when they please. The frames below are the
awaits of the source with the local variables that are used after them.

An accepted call starts after the request has been parsed and its capability verified, both of which
happen before the first `await`. Timers fire in any order, since their delays are not modelled.
-/

namespace MidnightReferendum.Relayer

open Js

/-- The request of one call of `accept` with its verified capability. -/
structure AcceptCall where
  request : ActionRequest
  capabilityDigest : JsString
  expiresAt : ℤ
  now : JsString
  deriving DecidableEq

/-- The methods that await a reconciliation and then read the job once more. -/
inductive Reader where
  | get
  | getReceipt
  deriving DecidableEq

/-- The transaction bytes that only the memory of a process holds. -/
structure Transient where
  unbound : JsString
  finalized : Option JsString
  deriving DecidableEq

/-- An await of a call of the store. A reconciliation without a reader was called for its own sake. -/
inductive StoreFrame where
  | acceptCreate (a : AcceptCall)
  | acceptByKey (a : AcceptCall) (existing : Job) (created : Bool)
  | acceptConsume (a : AcceptCall) (existing : Job)
  | acceptReplayed (a : AcceptCall) (existing : Job)
  | acceptReconsume (a : AcceptCall) (existing : Job)
  | getRead (reader : Reader) (id : JsString)
  | getLatest (reader : Reader) (id : JsString)
  | reconcileRead (reader : Option Reader) (id : JsString)
  | reconcileLagging (reader : Option Reader) (id : JsString) (job : Job)
  | reconcileConfirm (reader : Option Reader) (id : JsString) (receipt : CanonicalReceipt)
  | reconcileReject (reader : Option Reader) (id : JsString) (code : ErrorCode)
  | reconcileLatest (reader : Option Reader) (id : JsString)
  | walletRead (id : JsString)
  | walletValidate (id : JsString) (pending : Transient)
  | walletReserve (id : JsString) (pending : Transient) (reservationId : JsString)
  | walletRejected (id : JsString)
  | walletFinalize (id finalized : JsString) (derivedId : Option JsString)
  | walletIntent (id finalized : JsString) (derivedId : Option JsString)
  | walletLost (id derivedId : JsString)
  | walletUnknown (id : JsString)
  | walletMismatch (id : JsString)
  | walletPending (id transactionId : JsString)
  | startList
  | startRecover (id : JsString) (rest : List Job)
  deriving DecidableEq

/-- An await of the executor or of the receipt resolver. -/
inductive ExternalFrame where
  | balanceAndFinalize (id : JsString) (pending : Transient)
  | submit (id finalized : JsString) (derivedId : Option JsString)
  | resolve (reader : Option Reader) (id : JsString) (job : Job)
  deriving DecidableEq

/-- How an operation has ended. Only `accept` rejects a call. -/
inductive Outcome where
  | job (job : Option PublicJob)
  | receipt (receipt : Option CanonicalReceipt)
  | rejected (a : AcceptCall) (error : ActionError)
  | threw (error : StoreError)
  | finished
  deriving DecidableEq

section Calls

variable (sha256 : JsString → JsString)

def AcceptCall.requestHash (a : AcceptCall) : JsString :=
  v2RequestHash sha256 a.request.network a.request.contractAddress a.request.circuit a.request.action
    a.request.tx

def AcceptCall.jobInput (a : AcceptCall) : NewJob where
  id := a.request.actionId
  idempotencyKey := a.request.idempotencyKey
  capabilityDigest := a.capabilityDigest
  requestHash := a.requestHash sha256
  txDigest := digestTransaction sha256 a.request.tx
  network := a.request.network
  contractAddress := a.request.contractAddress
  circuit := a.request.circuit
  action := a.request.action
  now := a.now

def AcceptCall.capabilityReservation (a : AcceptCall) : Reservation where
  digest := a.capabilityDigest
  actionId := a.request.actionId
  idempotencyKey := a.request.idempotencyKey
  requestHash := a.requestHash sha256
  network := a.request.network
  contractAddress := a.request.contractAddress
  circuit := a.request.circuit
  action := a.request.action
  expiresAt := a.expiresAt

/-- The call that is awaited. -/
def StoreFrame.call : StoreFrame → StoreCall
  | .acceptCreate a => .createOrGet (a.jobInput sha256)
  | .acceptByKey a _ _ => .getByIdempotencyKey a.request.idempotencyKey
  | .acceptConsume a _ => .consumeCapability (a.capabilityReservation sha256)
  | .acceptReplayed _ existing => .transition existing.id [.authorized]
      { status := some .failed, errorCode := some .capabilityReplayed }
  | .acceptReconsume a _ => .consumeCapability (a.capabilityReservation sha256)
  | .getRead _ id => .get id
  | .getLatest _ id => .get id
  | .reconcileRead _ id => .get id
  | .reconcileLagging _ id _ => .get id
  | .reconcileConfirm _ id receipt => .transition id [.submitted, .indexerPending]
      { status := some .confirmed, receipt := some receipt }
  | .reconcileReject _ id code => .transition id [.submitted, .indexerPending]
      { status := some .failed, errorCode := some code }
  | .reconcileLatest _ id => .get id
  | .walletRead id => .get id
  | .walletValidate id _ => .transition id [.authorized] { status := some .validated }
  | .walletReserve id _ reservationId => .reserveDust id reservationId
  | .walletRejected id => .transition id [.dustReserved]
      { status := some .failed, errorCode := some .transactionRejected }
  | .walletFinalize id _ derivedId => .transition id [.dustReserved]
      { status := some .finalized, transactionId := derivedId }
  | .walletIntent id _ _ => .transition id [.finalized] { status := some .submitted }
  | .walletLost id derivedId => .transition id [.submitted]
      { status := some .indexerPending, transactionId := some derivedId }
  | .walletUnknown id => .transition id [.submitted]
      { status := some .recoveryRequired, errorCode := some .submissionUnknown }
  | .walletMismatch id => .transition id [.submitted]
      { status := some .failed, errorCode := some .submissionIdMismatch }
  | .walletPending id transactionId => .transition id [.submitted]
      { status := some .indexerPending, transactionId := some transactionId }
  | .startList => .listRecoverable
  | .startRecover id _ => .transition id [.authorized, .validated, .dustReserved, .finalized]
      { status := some .recoveryRequired, errorCode := some .recoveryRequired }

end Calls

/-- A method that waits for the store or has its reply, that waits for the executor or the indexer, or
that has ended. -/
inductive Frame (sha256 : JsString → JsString) where
  | waiting (c : StoreFrame)
  | ready (c : StoreFrame) (reply : Except StoreError (c.call sha256).Answer)
  | external (x : ExternalFrame)
  | done (outcome : Outcome)

/-! ## Memory -/

inductive Timer where
  | reconcile (id : JsString)
  | run (id : JsString)
  deriving DecidableEq

/-- The fields of a service. The wallet executes one operation of its queue at a time. An id is
`settling` from the end of its wallet operation until the `finally` handler of `run`. -/
structure Memory where
  transient : JsString → Option Transient
  running : JsString → Bool
  walletTail : List JsString
  walletBusy : Bool
  settling : List JsString
  timers : List Timer

namespace Memory

def fresh : Memory where
  transient _ := none
  running _ := false
  walletTail := []
  walletBusy := false
  settling := []
  timers := []

def setTransient (m : Memory) (id : JsString) (transient : Option Transient) : Memory :=
  { m with transient := Function.update m.transient id transient }

def scheduleReconcile (m : Memory) (id : JsString) : Memory :=
  { m with timers := m.timers ++ [.reconcile id] }

def scheduleRun (m : Memory) (id : JsString) : Memory := { m with timers := m.timers ++ [.run id] }

/-- `run` up to its first `await`. -/
def run (m : Memory) (id : JsString) : Memory := { m with
  running := Function.update m.running id true
  walletTail := m.walletTail ++ [id] }

/-- The wallet operation of a job ends. -/
def finishWallet (m : Memory) (id : JsString) : Memory := { m with
  walletBusy := false
  settling := m.settling ++ [id] }

end Memory

/-! ## Methods

Each definition below is the part of a method from one `await` to the next. -/

/-- A call of the executor. -/
inductive ExecutorCall where
  | balanceAndFinalize (id unbound : JsString)
  | submit (id finalized : JsString)
  deriving DecidableEq

/-- How a part of a method ends: the memory, the next `await` and the calls of the executor. -/
structure Next (sha256 : JsString → JsString) where
  memory : Memory
  frame : Frame sha256
  calls : List ExecutorCall := []

/-- A transaction was sent and waits for the indexer. -/
def Job.reconcilable (job : Job) : Bool :=
  (job.status == .submitted || job.status == .indexerPending) && truthy job.transactionId

section Methods

variable {sha256 : JsString → JsString} (m : Memory)

def Memory.await (c : StoreFrame) : Next sha256 := ⟨m, .waiting c, []⟩

def Memory.finish (outcome : Outcome) : Next sha256 := ⟨m, .done outcome, []⟩

def keyWasUsed : ActionError := ⟨.idempotencyConflict, "idempotency key was already used", 409⟩

def wasConsumed : ActionError := ⟨.capabilityReplayed, "action capability was already consumed", 409⟩

/-- The end of `accept`. -/
def accepted (a : AcceptCall) (existing : Job) (created : Bool) : Next sha256 :=
  let m := if existing.status = .authorized ∨ created then
    m.setTransient existing.id (some ⟨a.request.tx, none⟩) else m
  let m :=
    if existing.status = .authorized ∧ !m.running existing.id then m.run existing.id
    else if existing.reconcilable then m.scheduleReconcile existing.id
    else m
  m.finish (.job (some (publicJob existing)))

def acceptCreated (a : AcceptCall) : Except StoreError (Job × Bool) → Next sha256
  | .error (.conflict message) => m.finish (.rejected a ⟨.idempotencyConflict, message, 409⟩)
  | .error e => m.finish (.threw e)
  | .ok (existing, created) =>
    if existing.requestHash ≠ a.requestHash sha256 then m.finish (.rejected a keyWasUsed)
    else m.await (.acceptByKey a existing created)

def acceptFoundByKey (a : AcceptCall) (existing : Job) (created : Bool) :
    Except StoreError (Option Job) → Next sha256
  | .error e => m.finish (.threw e)
  | .ok existingByKey =>
    if existingByKey.any fun job ↦
        job.requestHash ≠ a.requestHash sha256 || job.capabilityDigest ≠ a.capabilityDigest then
      m.finish (.rejected a keyWasUsed)
    else if created then m.await (.acceptConsume a existing)
    else if existing.capabilityDigest = a.capabilityDigest then m.await (.acceptReconsume a existing)
    else accepted m a existing false

def acceptConsumed (a : AcceptCall) (existing : Job) : Except StoreError Bool → Next sha256
  | .error e => m.finish (.threw e)
  | .ok false => m.await (.acceptReplayed a existing)
  | .ok true => accepted m a existing true

def acceptReconsumed (a : AcceptCall) (existing : Job) : Except StoreError Bool → Next sha256
  | .error e => m.finish (.threw e)
  | .ok _ => accepted m a existing false

def acceptFailed (a : AcceptCall) : Except StoreError (Option Job) → Next sha256
  | .error e => m.finish (.threw e)
  | .ok _ => m.finish (.rejected a wasConsumed)

/-- What `get` and `getReceipt` return without a job. -/
def Reader.missing : Reader → Outcome
  | .get => .job none
  | .getReceipt => .receipt none

/-- A reader reconciles a job before it reads the job again. -/
def Reader.reconciles : Reader → Job → Bool
  | .get, job => job.reconcilable
  | .getReceipt, job => job.status != .confirmed && truthy job.transactionId

def Reader.outcome : Reader → Option Job → Outcome
  | .get, latest => .job (latest.map publicJob)
  | .getReceipt, latest =>
    .receipt (latest.bind fun job ↦ if job.status = .confirmed then job.receipt else none)

def readerRead (reader : Reader) (id : JsString) : Except StoreError (Option Job) → Next sha256
  | .error e => m.finish (.threw e)
  | .ok none => m.finish reader.missing
  | .ok (some job) =>
    if reader.reconciles job then m.await (.reconcileRead (some reader) id)
    else m.await (.getLatest reader id)

def readerLatest (reader : Reader) : Except StoreError (Option Job) → Next sha256
  | .error e => m.finish (.threw e)
  | .ok latest => m.finish (reader.outcome latest)

/-- `reconcile` returns. -/
def reconciled (reader : Option Reader) (id : JsString) (result : Option PublicJob) : Next sha256 :=
  match reader with
  | none => m.finish (.job result)
  | some reader => m.await (.getLatest reader id)

def reconcileFound (reader : Option Reader) (id : JsString) :
    Except StoreError (Option Job) → Next sha256
  | .error e => m.finish (.threw e)
  | .ok none => reconciled m reader id none
  | .ok (some job) =>
    if job.status = .confirmed ∨ job.status = .failed ∨ !truthy job.transactionId then
      reconciled m reader id (some (publicJob job))
    else ⟨m, .external (.resolve reader id job), []⟩

/-- The `catch` block of `reconcile` for an error that is not a definitive answer. -/
def reconcileLater (reader : Option Reader) (id : JsString) : Next sha256 :=
  (m.scheduleReconcile id).await (.reconcileLatest reader id)

/-- The answer of the resolver, where an error of the indexer has a code and others have none. -/
def reconcileResolved (reader : Option Reader) (id : JsString) (job : Job) :
    Except (Option ErrorCode) (Option CanonicalReceipt) → Next sha256
  | .ok none => (m.scheduleReconcile id).await (.reconcileLagging reader id job)
  | .ok (some receipt) => m.await (.reconcileConfirm reader id receipt)
  | .error (some .indexerContractMismatch) =>
    m.await (.reconcileReject reader id .indexerContractMismatch)
  | .error (some .indexerRejected) => m.await (.reconcileReject reader id .indexerRejected)
  | .error _ => reconcileLater m reader id

def reconcileLagged (reader : Option Reader) (id : JsString) (job : Job) :
    Except StoreError (Option Job) → Next sha256
  | .error _ => reconcileLater m reader id
  | .ok latest => reconciled m reader id (some (publicJob (latest.getD job)))

def reconcileConfirmed (reader : Option Reader) (id : JsString) :
    Except StoreError (Option Job) → Next sha256
  | .error _ => reconcileLater m reader id
  | .ok _ => m.await (.reconcileLatest reader id)

def reconcileRejected (reader : Option Reader) (id : JsString) :
    Except StoreError (Option Job) → Next sha256
  | .error e => m.finish (.threw e)
  | .ok _ => m.await (.reconcileLatest reader id)

def reconcileEnd (reader : Option Reader) (id : JsString) :
    Except StoreError (Option Job) → Next sha256
  | .error e => m.finish (.threw e)
  | .ok latest => reconciled m reader id (latest.map publicJob)

/-- The wallet operation of a job ends. -/
def walletEnd (id : JsString) (outcome : Outcome) : Next sha256 := (m.finishWallet id).finish outcome

def walletFound (id : JsString) : Except StoreError (Option Job) → Next sha256
  | .error e => walletEnd m id (.threw e)
  | .ok job =>
    match job, m.transient id with
    | some job, some pending =>
      if job.status = .authorized then m.await (.walletValidate id pending)
      else walletEnd m id .finished
    | _, _ => walletEnd m id .finished

def walletValidated (id : JsString) (pending : Transient) (uuid : JsString) :
    Except StoreError (Option Job) → Next sha256
  | .error e => walletEnd m id (.threw e)
  | .ok none => walletEnd m id .finished
  | .ok (some _) => m.await (.walletReserve id pending (id ++ js ":" ++ uuid))

def walletReserved (id : JsString) (pending : Transient) :
    Except StoreError (Option Job) → Next sha256
  | .error e => walletEnd m id (.threw e)
  | .ok none => walletEnd (m.scheduleRun id) id .finished
  | .ok (some _) =>
    ⟨m, .external (.balanceAndFinalize id pending), [.balanceAndFinalize id pending.unbound]⟩

/-- The finalized transaction with the id that the executor derives from it. -/
def walletBalanced (id : JsString) (pending : Transient) :
    Except Unit (JsString × Option JsString) → Next sha256
  | .error () => (m.setTransient id none).await (.walletRejected id)
  | .ok (finalized, derivedId) =>
    (m.setTransient id (some { pending with finalized := some finalized })).await
      (.walletFinalize id finalized (if truthy derivedId then derivedId else none))

/-- The last transition of a wallet operation. -/
def walletClosed (id : JsString) : Except StoreError (Option Job) → Next sha256
  | .error e => walletEnd m id (.threw e)
  | .ok _ => walletEnd m id .finished

def walletFinalized (id finalized : JsString) (derivedId : Option JsString) :
    Except StoreError (Option Job) → Next sha256
  | .error e => walletEnd m id (.threw e)
  | .ok _ => m.await (.walletIntent id finalized derivedId)

def walletIntended (id finalized : JsString) (derivedId : Option JsString) :
    Except StoreError (Option Job) → Next sha256
  | .error e => walletEnd m id (.threw e)
  | .ok none => walletEnd m id .finished
  | .ok (some _) => ⟨m, .external (.submit id finalized derivedId), [.submit id finalized]⟩

/-- `requireTransactionId` of what `submit` returns, if it returns. -/
def requireTransactionId : Except Unit JsString → Option JsString
  | .error () => none
  | .ok transactionId =>
    if isBlank transactionId ∨ 256 < transactionId.length then none else some transactionId

def walletSubmitted (id : JsString) (derivedId : Option JsString) (result : Except Unit JsString) :
    Next sha256 :=
  let m := m.setTransient id none
  match requireTransactionId result, derivedId with
  | none, some derivedId => m.await (.walletLost id derivedId)
  | none, none => m.await (.walletUnknown id)
  | some transactionId, some derivedId =>
    if transactionId ≠ derivedId then m.await (.walletMismatch id)
    else m.await (.walletPending id transactionId)
  | some transactionId, none => m.await (.walletPending id transactionId)

/-- The last transition of a wallet operation whose transaction waits for the indexer. -/
def walletAwaitsIndexer (id : JsString) : Except StoreError (Option Job) → Next sha256
  | .error e => walletEnd m id (.threw e)
  | .ok _ => walletEnd (m.scheduleReconcile id) id .finished

/-- The loop of `start`. -/
def startLoop (m : Memory) : List Job → Next sha256
  | [] => m.finish .finished
  | job :: rest =>
    if job.reconcilable then startLoop (m.scheduleReconcile job.id) rest
    else m.await (.startRecover job.id rest)

def startListed : Except StoreError (List Job) → Next sha256
  | .error e => m.finish (.threw e)
  | .ok jobs => startLoop m jobs

def startRecovered (rest : List Job) : Except StoreError (Option Job) → Next sha256
  | .error e => m.finish (.threw e)
  | .ok _ => startLoop m rest

/-- The part of a method after a call of the store. -/
def resume (uuid : JsString) : (c : StoreFrame) → Except StoreError (c.call sha256).Answer → Next sha256
  | .acceptCreate a, reply => acceptCreated m a reply
  | .acceptByKey a existing created, reply => acceptFoundByKey m a existing created reply
  | .acceptConsume a existing, reply => acceptConsumed m a existing reply
  | .acceptReplayed a _, reply => acceptFailed m a reply
  | .acceptReconsume a existing, reply => acceptReconsumed m a existing reply
  | .getRead reader id, reply => readerRead m reader id reply
  | .getLatest reader _, reply => readerLatest m reader reply
  | .reconcileRead reader id, reply => reconcileFound m reader id reply
  | .reconcileLagging reader id job, reply => reconcileLagged m reader id job reply
  | .reconcileConfirm reader id _, reply => reconcileConfirmed m reader id reply
  | .reconcileReject reader id _, reply => reconcileRejected m reader id reply
  | .reconcileLatest reader id, reply => reconcileEnd m reader id reply
  | .walletRead id, reply => walletFound m id reply
  | .walletValidate id pending, reply => walletValidated m id pending uuid reply
  | .walletReserve id pending _, reply => walletReserved m id pending reply
  | .walletRejected id, reply => walletClosed m id reply
  | .walletFinalize id finalized derivedId, reply => walletFinalized m id finalized derivedId reply
  | .walletIntent id finalized derivedId, reply => walletIntended m id finalized derivedId reply
  | .walletLost id _, reply => walletAwaitsIndexer m id reply
  | .walletUnknown id, reply => walletClosed m id reply
  | .walletMismatch id, reply => walletClosed m id reply
  | .walletPending id _, reply => walletAwaitsIndexer m id reply
  | .startList, reply => startListed m reply
  | .startRecover _ rest, reply => startRecovered m rest reply

end Methods

/-! ## The system -/

/-- What a reconciliation asks the resolver. -/
structure ResolveQuery where
  transactionId : JsString
  network : JsString
  contractAddress : JsString
  circuit : JsString
  action : CivicActionKind
  deriving DecidableEq

def Job.query (job : Job) : ResolveQuery where
  transactionId := job.transactionId.getD []
  network := job.network
  contractAddress := job.contractAddress
  circuit := job.circuit
  action := job.action

/-- The hash function, and the resolver as a function of the raw answer of the indexer. -/
structure Config (ρ : Type) where
  sha256 : JsString → JsString
  resolve : ResolveQuery → ρ → Except (Option ErrorCode) (Option CanonicalReceipt)

/-- What the services have done outside: a call of the executor, or an answer of the indexer that was
received for a job. -/
inductive Observation (ρ : Type) where
  | executor (call : ExecutorCall)
  | indexed (id : JsString) (query : ResolveQuery) (raw : ρ)
  deriving DecidableEq

/-- The store, and the observations so far. -/
structure Shared (ρ : Type) where
  store : MemoryStore
  log : List (Observation ρ)

/-- How a call of the store goes wrong: it is executed and its reply is lost, or it is refused. -/
inductive Fault where
  | none
  | replyLost
  | refused
  deriving DecidableEq

inductive Input (ρ : Type) where
  | accept (a : AcceptCall)
  | get (id : JsString)
  | getReceipt (id : JsString)
  | reconcile (id : JsString)
  | start
  /-- a reconciliation timer fires -/
  | fireReconcile (id : JsString)
  /-- the wallet takes the next operation from its queue -/
  | dequeue
  /-- a retry timer fires -/
  | fireRun (id : JsString)
  /-- the `finally` handler of `run` -/
  | settle (id : JsString)
  /-- the store executes a call -/
  | serve (now : JsString) (fault : Fault)
  /-- a method resumes, `uuid` is what `idFactory` returns -/
  | resume (uuid : JsString)
  | balanced (result : Except Unit (JsString × Option JsString))
  | submitted (result : Except Unit JsString)
  | indexed (raw : ρ)

section System

variable {ρ : Type} (cfg : Config ρ)

/-- A method up to its first `await`. -/
def spawn (i : Input ρ) (m : Memory) : Option (Memory × Frame cfg.sha256) :=
  match i with
  | .accept a => some (m, .waiting (.acceptCreate a))
  | .get id => some (m, .waiting (.getRead .get id))
  | .getReceipt id => some (m, .waiting (.getRead .getReceipt id))
  | .reconcile id => some (m, .waiting (.reconcileRead none id))
  | .start => some (m, .waiting .startList)
  | .fireReconcile id =>
    if .reconcile id ∈ m.timers then
      some ({ m with timers := m.timers.erase (.reconcile id) }, .waiting (.reconcileRead none id))
    else none
  | .dequeue =>
    match m.walletBusy, m.walletTail with
    | false, id :: rest =>
      some ({ m with walletBusy := true, walletTail := rest }, .waiting (.walletRead id))
    | _, _ => none
  | _ => none

/-- A handler that does not await anything. -/
def tick (i : Input ρ) (m : Memory) : Option Memory :=
  match i with
  | .fireRun id =>
    if .run id ∈ m.timers then
      let m := { m with timers := m.timers.erase (.run id) }
      some (if m.running id then m else m.run id)
    else none
  | .settle id =>
    if id ∈ m.settling then
      some { m with running := Function.update m.running id false, settling := m.settling.erase id }
    else none
  | _ => none

/-- The store executes a call. -/
def serve (c : StoreFrame) (now : JsString) (fault : Fault) (s : MemoryStore) :
    Except StoreError (c.call cfg.sha256).Answer × MemoryStore :=
  match fault with
  | .none => s.exec now (c.call cfg.sha256)
  | .replyLost => (.error .unavailable, (s.exec now (c.call cfg.sha256)).2)
  | .refused => (.error .unavailable, s)

/-- The part of a method after an `await` that is not a call of the store, with what it observes. -/
def answered (x : ExternalFrame) (i : Input ρ) (m : Memory) :
    Option (List (Observation ρ) × Next cfg.sha256) :=
  match x, i with
  | .balanceAndFinalize id pending, .balanced result => some ([], walletBalanced m id pending result)
  | .submit id _ derivedId, .submitted result => some ([], walletSubmitted m id derivedId result)
  | .resolve reader id job, .indexed raw => some ([.indexed id job.query raw],
      reconcileResolved m reader id job (cfg.resolve job.query raw))
  | _, _ => none

/-- The observations of a part of a method are recorded. -/
def Shared.record (s : Shared ρ) (observations : List (Observation ρ)) : Shared ρ :=
  { s with log := s.log ++ observations }

def advance (f : Frame cfg.sha256) (i : Input ρ) (s : Shared ρ) (m : Memory) :
    Option (Shared ρ × Memory × Frame cfg.sha256) :=
  match f, i with
  | .waiting c, .serve now fault =>
    let (reply, store) := serve cfg c now fault s.store
    some ({ s with store }, m, .ready c reply)
  | .ready c reply, .resume uuid =>
    let next := resume m uuid c reply
    some (s.record (next.calls.map .executor), next.memory, next.frame)
  | .external x, i =>
    (answered cfg x i m).map fun (observations, next) ↦
      (s.record observations, next.memory, next.frame)
  | _, _ => none

/-- Any number of services over one store. -/
def service : Tasks.System (Shared ρ) Memory (Frame cfg.sha256) (Input ρ) where
  fresh := .fresh
  spawn := spawn cfg
  tick := tick
  advance := advance cfg

abbrev World := Tasks.World (Shared ρ) Memory (Frame cfg.sha256)

/-- No service has done anything yet. -/
def init : World cfg := Tasks.start (service cfg) ⟨.empty, []⟩

/-- The world after a list of events. -/
abbrev after (es : List (Tasks.Event (Input ρ))) : World cfg :=
  Tasks.runEvents (service cfg) (init cfg) es

end System

/-! ## A sample deployment -/

/-- The hexadecimal text of the last 32 units. -/
def sampleHash (s : JsString) : JsString :=
  (s.drop (s.length - 32)).flatMap fun u ↦ [hexUnit (u.toNat / 16 % 16), hexUnit (u.toNat % 16)]

/-- An indexer that answers with a receipt or lags behind. -/
def sampleConfig : Config (Option CanonicalReceipt) := ⟨sampleHash, fun _ answer ↦ .ok answer⟩

abbrev SampleEvent := Tasks.Event (Input (Option CanonicalReceipt))

/-- A request with the given text as its id and its transaction. -/
def sampleAccept (text : String) : AcceptCall where
  request := {
    actionId := js text
    idempotencyKey := js text
    network := js "preview"
    contractAddress := js "c0"
    circuit := js "castVote"
    action := .vote
    tx := js text }
  capabilityDigest := sampleHash (List.replicate 32 0x61 ++ js text)
  expiresAt := 0
  now := js "now"

/-- An operation makes `n` calls of the store. -/
def sampleCalls (t n : ℕ) : List SampleEvent :=
  (List.replicate n [.advance t (.serve (js "now") .none), .advance t (.resume (js "u"))]).flatten

/-- A call of `accept` that creates a job. -/
def sampleAccepts (p t : ℕ) (a : AcceptCall) : List SampleEvent :=
  .spawn p t (.accept a) :: sampleCalls t 3

/-- A wallet operation up to the answer about the DUST lease. -/
def sampleReserves (p t : ℕ) : List SampleEvent := .spawn p t .dequeue :: sampleCalls t 3

/-- The rest of a wallet operation. -/
def sampleSubmits (t : ℕ) (derivedId : Option JsString) (result : Except Unit JsString) :
    List SampleEvent :=
  .advance t (.balanced (.ok (js "ff", derivedId))) :: sampleCalls t 2 ++
    [.advance t (.submitted result)] ++ sampleCalls t 1

def sampleReceipt : CanonicalReceipt where
  action := .vote
  network := js "preview"
  transactionId := js "t1"
  transactionHash := js "h"
  contractAddress := js "c0"
  circuit := js "castVote"
  blockHeight := 1
  blockHash := js "b"
  blockTimestamp := js "d"
  explorerUrl := none

end MidnightReferendum.Relayer
