import MidnightReferendum.Relayer.Types
import MidnightReferendum.Systems.Execution

/-!
# The walletless submission

`submitTx` and `waitForCanonicalReceipt` of `midnight-v2-relayer-providers.ts` over the client of
`walletless-action-client.ts`, for the calls of one scope. The execution context admits one call at a time. A
call records its action before it sends the transaction to the relay, and a later call asks the relay for the
recorded action first.

The relay receives a request some time after it is sent, or never. Its jobs go on by themselves, and a decided
job stays as it is until the relay loses it.
-/

namespace MidnightReferendum.Passport.Walletless

open Js Relayer

/-! ## Requests and jobs -/

structure WalletlessActionScope where
  credentialAuthorization : JsString
  contractAddress : JsString
  circuit : JsString
  action : CivicActionKind

structure Options where
  networkId : JsString
  submissionTimeoutMs : ℕ
  scope : WalletlessActionScope
  sha256 : JsString → JsString

structure PendingActionRecord where
  actionId : JsString
  idempotencyKey : JsString
  requestHash : JsString
  deriving DecidableEq

structure WalletlessActionRequest where
  actionId : JsString
  idempotencyKey : JsString
  requestHash : JsString
  actionCapability : JsString
  network : JsString
  contractAddress : JsString
  circuit : JsString
  action : CivicActionKind
  tx : JsString

/-- The fields of a job that change. The relay sets the receipt when it confirms the job. -/
structure JobState where
  status : PublicStatus
  transactionId : Option JsString
  receipt : Option CanonicalReceipt
  errorCode : Option JsString
  receipt_confirmed : receipt.isSome = true → status = .confirmed

/-- What the relay answers about an action. -/
structure WalletlessActionJob extends JobState where
  actionId : JsString
  requestHash : JsString
  network : JsString
  contractAddress : JsString
  circuit : JsString

/-- A job at the relay. -/
structure RelayJob where
  request : WalletlessActionRequest
  state : JobState

def RelayJob.public (job : RelayJob) : WalletlessActionJob :=
  { job.state with
    actionId := job.request.actionId
    requestHash := job.request.requestHash
    network := job.request.network
    contractAddress := job.request.contractAddress
    circuit := job.request.circuit }

/-- `status === 'failed' || status === 'recovery_required'` -/
def JobState.dead (state : JobState) : Bool :=
  state.status = .failed || state.status = .recoveryRequired

def statusText : PublicStatus → JsString
  | .pending => js "pending"
  | .confirmed => js "confirmed"
  | .failed => js "failed"
  | .recoveryRequired => js "recovery_required"

/-- The transaction of a call in lower case, with the ids that it draws. -/
structure Own where
  tx : JsString
  actionId : JsString
  idempotencyKey : JsString

section Own

variable (opts : Options) (own : Own)

def walletlessActionRequestHash : JsString :=
  v2RequestHash opts.sha256 opts.networkId opts.scope.contractAddress opts.scope.circuit opts.scope.action own.tx

def Own.record : PendingActionRecord :=
  ⟨own.actionId, own.idempotencyKey, walletlessActionRequestHash opts own⟩

def Own.request (actionCapability : JsString) : WalletlessActionRequest where
  actionId := own.actionId
  idempotencyKey := own.idempotencyKey
  requestHash := walletlessActionRequestHash opts own
  actionCapability := actionCapability
  network := opts.networkId
  contractAddress := opts.scope.contractAddress
  circuit := opts.scope.circuit
  action := opts.scope.action
  tx := own.tx

end Own

/-! ## The code of a call -/

/-- Why a call rejects. The last reason is that a call which it awaits rejects. -/
inductive Rejection where
  | lost
  | stopped (code : JsString)
  | mismatch
  | stillPending
  | failed (message : JsString)

def Rejection.message : Rejection → JsString
  | .lost => js "Walletless relay lost the accepted action"
  | .stopped code => js "Walletless relay stopped with " ++ code
  | .mismatch => js "Walletless canonical receipt does not match the accepted action"
  | .stillPending => js "Walletless relay submission is still pending"
  | .failed message => message

inductive Outcome where
  | resolved (transactionId : JsString)
  | rejected (reason : Rejection)

/-- The wait for a receipt. -/
structure Wait where
  initial : WalletlessActionJob
  deadline : ℤ

/-- Where a call waits. The digests are made together with the call after them. -/
inductive Frame where
  | storeGet (own : Own)
  | getAction (own : Own) (previous : PendingActionRecord)
  | deleteStale (own : Own)
  | issue (own : Own)
  | put (own : Own) (actionCapability : JsString)
  | submit (own : Own)
  | getReceipt (wait : Wait) (job : WalletlessActionJob)
  | poll (wait : Wait)
  | deleteDone (transactionId : JsString)

/-- A call goes on to the next wait or ends. -/
inductive Next where
  | goes (frame : Frame)
  | ends (outcome : Outcome)

def Next.fails (message : JsString) : Next := .ends (.rejected (.failed message))

/-- One pass of the loop of `waitForCanonicalReceipt` until it asks for the receipt. -/
def awaitReceipt (wait : Wait) : Option WalletlessActionJob → Next
  | none => .ends (.rejected .lost)
  | some job =>
    if job.dead then .ends (.rejected (.stopped (job.errorCode.getD (statusText job.status))))
    else .goes (.getReceipt wait job)

def waitForCanonicalReceipt (opts : Options) (now : ℤ) (initial : WalletlessActionJob) : Next :=
  awaitReceipt ⟨initial, now + opts.submissionTimeoutMs⟩ (some initial)

/-- The receipt is the one of the accepted action. -/
def matchesJob (wait : Wait) (job : WalletlessActionJob) (receipt : CanonicalReceipt) : Bool :=
  receipt.network = wait.initial.network && receipt.contractAddress = wait.initial.contractAddress &&
    receipt.circuit = wait.initial.circuit &&
    job.transactionId.all fun transactionId ↦ receipt.transactionId = transactionId

/-- The relay's answer to the request for a receipt: its state of the job, where `none` is an unknown action. -/
def afterReceipt (wait : Wait) (job : WalletlessActionJob) (now : ℤ) : Option JobState → Next
  | some state =>
    match state.receipt with
    | some receipt =>
      if matchesJob wait job receipt then .goes (.deleteDone receipt.transactionId)
      else .ends (.rejected .mismatch)
    | none =>
      if state.dead then .fails (js "Walletless action request failed (409)")
      else if wait.deadline ≤ now then .ends (.rejected .stillPending) else .goes (.poll wait)
  | none => if wait.deadline ≤ now then .ends (.rejected .stillPending) else .goes (.poll wait)

/-! ## The store and the relay -/

/-- A call of `submitTx`: what it sends, whether the recorded job was dead when it began, and whether it has
sent its own transaction. -/
structure Call where
  own : Own
  foundDead : Bool
  submitted : Bool

/-- The record of the scope in the pending store, the running call and the calls that have ended, beside the
relay. `sent` are the requests on their way, and `died` the actions whose jobs have died. -/
structure World where
  jobs : JsString → Option RelayJob
  sent : List WalletlessActionRequest
  used : List JsString
  died : List JsString
  pending : Option PendingActionRecord
  running : Option (Call × Frame)
  ended : List (Call × Outcome)

/-- How an awaited call ends. The store may change although its call rejects. -/
inductive Reply where
  | succeeds (now : ℤ)
  | issued (actionCapability : JsString)
  | loses (message : JsString)
  | fails (message : JsString)

inductive Event where
  | submitTx (own : Own)
  | answer (reply : Reply)
  | reload (kept : Bool)
  | arrives (actionId : JsString) (state : JobState)
  | drops (actionId : JsString)
  | progress (actionId : JsString) (state : JobState)
  | purge (actionId : JsString)

def World.find (w : World) (actionId : JsString) : Option WalletlessActionJob :=
  (w.jobs actionId).map RelayJob.public

/-- The recorded job has died. -/
def World.foundDead (w : World) : Bool :=
  match w.pending with
  | some previous => w.died.contains previous.actionId
  | none => false

section Steps

variable (opts : Options)

/-- What an awaited call does to the world, and how the call of `submitTx` goes on. -/
def perform (w : World) : Frame → Reply → Option (World × Next)
  | _, .fails message => some (w, .fails message)
  | .storeGet own, .succeeds _ =>
    match w.pending with
    | some previous => some (w, .goes (.getAction own previous))
    | none => some (w, .goes (.issue own))
  | .getAction own previous, .succeeds now =>
    match w.find previous.actionId with
    | some recovered =>
      if recovered.requestHash = previous.requestHash then
        some (w, waitForCanonicalReceipt opts now recovered)
      else some (w, .goes (.deleteStale own))
    | none => some (w, .goes (.deleteStale own))
  | .deleteStale own, .succeeds _ => some ({ w with pending := none }, .goes (.issue own))
  | .deleteStale _, .loses message => some ({ w with pending := none }, .fails message)
  | .issue own, .issued actionCapability => some (w, .goes (.put own actionCapability))
  | .put own actionCapability, .succeeds _ =>
    some ({ w with
      pending := some (own.record opts)
      sent := own.request opts actionCapability :: w.sent }, .goes (.submit own))
  | .put own _, .loses message => some ({ w with pending := some (own.record opts) }, .fails message)
  | .submit own, .succeeds now =>
    (w.find own.actionId).map fun job ↦ (w, waitForCanonicalReceipt opts now job)
  | .getReceipt wait job, .succeeds now =>
    some (w, afterReceipt wait job now ((w.jobs wait.initial.actionId).map RelayJob.state))
  | .poll wait, .succeeds _ => some (w, awaitReceipt wait (w.find wait.initial.actionId))
  | .deleteDone transactionId, .succeeds _ =>
    some ({ w with pending := none }, .ends (.resolved transactionId))
  | .deleteDone _, .loses message => some ({ w with pending := none }, .fails message)
  | _, _ => none

/-- A call has sent its own transaction when it awaits the answer to its request. -/
def Call.after (call : Call) : Frame → Call
  | .submit _ => { call with submitted := true }
  | _ => call

def World.continue (w : World) (call : Call) : Next → World
  | .goes frame => { w with running := some (call.after frame, frame) }
  | .ends outcome => { w with running := none, ended := w.ended ++ [(call, outcome)] }

/-- The relay has a new state of a job. -/
def World.setJob (w : World) (actionId : JsString) (job : RelayJob) : World :=
  { w with
    jobs := Function.update w.jobs actionId (some job)
    died := if job.state.dead then actionId :: w.died else w.died }

def stepOption (w : World) : Event → Option World
  | .submitTx own =>
    if w.running.isNone ∧ own.actionId ∉ w.used then
      some { w with
        used := own.actionId :: w.used
        running := some (⟨own, w.foundDead, false⟩, .storeGet own) }
    else none
  | .answer reply =>
    match w.running with
    | some (call, frame) => (perform opts w frame reply).map fun (w', next) ↦ w'.continue call next
    | none => none
  | .reload kept => some { w with running := none, pending := if kept then w.pending else none }
  | .arrives actionId state =>
    match w.sent.find? fun request ↦ request.actionId = actionId with
    | some request =>
      some { w.setJob actionId ⟨request, state⟩ with
        sent := w.sent.filter fun request ↦ request.actionId ≠ actionId }
    | none => none
  | .drops actionId => some { w with sent := w.sent.filter fun request ↦ request.actionId ≠ actionId }
  | .progress actionId state =>
    match w.jobs actionId with
    | some job => if job.state.status = .pending then some (w.setJob actionId { job with state }) else none
    | none => none
  | .purge actionId => some { w with jobs := Function.update w.jobs actionId none }

def step (w : World) (e : Event) : Except Unit World :=
  match stepOption opts w e with
  | some w' => .ok w'
  | none => .error ()

end Steps

/-- No call has been made. -/
def start : World := ⟨fun _ ↦ none, [], [], [], none, none, []⟩

theorem stepOption_of_step {opts : Options} {w w' : World} {e : Event} (h : step opts w e = .ok w') :
    stepOption opts w e = some w' := by
  unfold step at h
  split at h
  · next w₁ hw₁ =>
    obtain rfl := Except.ok.inj h
    exact hw₁
  · cases h

end MidnightReferendum.Passport.Walletless
