import MidnightReferendum.Passport.RelayJobs
import MidnightReferendum.ReferendumV2.Contract

/-!
# Votes through the walletless provider

`castVote` and `castVoteOnce` of `midnight-civic-action-adapter.ts` in one browser and for one referendum, over
the walletless submission. A vote draws a salt, joins the contract with the private state of the voter, proves
the circuit with the private state that is stored, submits the transaction and waits until the chain has it.

The SDK is outside. Its `join` stores the private state, a proof is about the private state that is stored, and
`watchForTxData` resolves for a transaction that is on chain. The relay names a transaction in a receipt when the
chain has it with the call that the relay has received.
-/

namespace MidnightReferendum.Passport.Walletless

open MidnightReferendum.Compact Js Relayer

structure CastVoteRequest where
  choice : Choice
  authorizationHandle : JsString
  deriving DecidableEq

/-- An entry of `pendingVotes`: the request of the operation and the calls that share it. -/
structure PendingVote where
  request : CastVoteRequest
  callers : List CastVoteRequest

/-- Where `castVoteOnce` waits. The first wait is for the credential and the checks of the client. -/
inductive VoteFrame (B : Type) where
  | checks
  | join (privateState : Opening B)
  | prove
  | submitTx
  | watchForTxData (transactionId : JsString)

/-- Calls that have resolved, with the private state that is stored then. -/
structure Resolution (B : Type) where
  callers : List CastVoteRequest
  transactionId : JsString
  privateState : Option (Opening B)

/-- The choice and the salt of the private state, the pending store, the running vote and the votes that have
resolved, beside the submission and the chain with the transactions as the relay has received them. -/
structure VoteWorld (B : Type) where
  submission : World
  pendingStore : JsString → Option PendingActionRecord
  chain : JsString → Option JsString
  privateState : Option (Opening B)
  pendingVote : Option (PendingVote × VoteFrame B)
  resolved : List (Resolution B)

/-- A join may store the private state although it rejects. -/
inductive VoteEvent (B : Type) where
  | castVote (request : CastVoteRequest)
  | checked (voteSalt : B)
  | joined (rejects : Bool)
  | proved (own : Own)
  | answer (reply : Reply)
  | relay (event : Event)
  | included (transactionId actionId : JsString)
  | watched
  | fails
  | reload (keepsRecords keepsState : Bool)

def Options.withAuthorization (opts : Options) (credentialAuthorization : JsString) : Options :=
  { opts with scope := { opts.scope with credentialAuthorization } }

section Steps

variable {B D : Type} [DecidableEq B] (H : Hashing B D) (cfg : ReferendumV2.Sealed B D) (opts : Options)
  (ballotIn : JsString → Option B)

/-- The commitment that an opening opens in this referendum. -/
def commitment (opening : Opening B) : B := ReferendumV2.ballotCommitment H cfg opening.1 opening.2

/-- What the relay may do by itself: a receipt names a transaction on chain with the call of the job. -/
def RelayEvent (w : VoteWorld B) : Event → Prop
  | .arrives actionId state => ∀ request ∈ w.submission.sent.find? fun request ↦ request.actionId = actionId,
      ∀ receipt ∈ state.receipt, w.chain receipt.transactionId = some request.tx
  | .progress actionId state => ∀ job ∈ w.submission.jobs actionId,
      ∀ receipt ∈ state.receipt, w.chain receipt.transactionId = some job.request.tx
  | .drops _ => True
  | .purge _ => True
  | _ => False

instance (w : VoteWorld B) (e : Event) : Decidable (RelayEvent w e) := by
  cases e <;> (unfold RelayEvent; infer_instance)

/-- The submission has gone on. When it has ended with a transaction, the SDK waits for that transaction. -/
def VoteWorld.submitted (w : VoteWorld B) (vote : PendingVote) (submission : World) : VoteWorld B :=
  { w with
    submission := submission
    pendingStore := Function.update w.pendingStore vote.request.authorizationHandle submission.pending
    pendingVote :=
      match submission.running, submission.ended.getLast? with
      | some _, _ => some (vote, .submitTx)
      | none, some (_, .resolved transactionId) => some (vote, .watchForTxData transactionId)
      | none, _ => none }

/-- A call of `castVote` shares the pending operation of its referendum or is in conflict with it. -/
def castVote (w : VoteWorld B) (request : CastVoteRequest) : VoteWorld B :=
  match w.pendingVote with
  | some (vote, frame) =>
    if vote.request = request then
      { w with pendingVote := some ({ vote with callers := vote.callers ++ [request] }, frame) }
    else w
  | none => { w with pendingVote := some (⟨request, [request]⟩, .checks) }

def voteStepOption (w : VoteWorld B) : VoteEvent B → Option (VoteWorld B)
  | .castVote request => some (castVote w request)
  | .checked voteSalt =>
    match w.pendingVote with
    | some (vote, .checks) => some { w with pendingVote := some (vote, .join (vote.request.choice, voteSalt)) }
    | _ => none
  | .joined rejects =>
    match w.pendingVote with
    | some (vote, .join privateState) =>
      some { w with
        privateState := some privateState
        pendingVote := if rejects then none else some (vote, .prove) }
    | _ => none
  | .proved own =>
    match w.pendingVote, w.privateState with
    | some (vote, .prove), some privateState =>
      if ballotIn own.tx = some (commitment H cfg privateState) then
        (stepOption (opts.withAuthorization vote.request.authorizationHandle)
          { w.submission with pending := w.pendingStore vote.request.authorizationHandle }
          (.submitTx own)).map fun submission ↦ { w with submission, pendingVote := some (vote, .submitTx) }
      else none
    | _, _ => none
  | .answer reply =>
    match w.pendingVote with
    | some (vote, .submitTx) =>
      (stepOption (opts.withAuthorization vote.request.authorizationHandle) w.submission
        (.answer reply)).map fun submission ↦ w.submitted vote submission
    | _ => none
  | .relay e =>
    if RelayEvent w e then (stepOption opts w.submission e).map fun submission ↦ { w with submission }
    else none
  | .included transactionId actionId =>
    match w.chain transactionId, w.submission.jobs actionId with
    | none, some job => some { w with chain := Function.update w.chain transactionId (some job.request.tx) }
    | _, _ => none
  | .watched =>
    match w.pendingVote with
    | some (vote, .watchForTxData transactionId) =>
      if (w.chain transactionId).isSome then
        some { w with
          pendingVote := none
          resolved := w.resolved ++ [⟨vote.callers, transactionId, w.privateState⟩] }
      else none
    | _ => none
  | .fails =>
    match w.pendingVote with
    | some (_, .submitTx) => none
    | some _ => some { w with pendingVote := none }
    | none => none
  | .reload keepsRecords keepsState =>
    some { w with
      submission := { w.submission with running := none }
      pendingStore := if keepsRecords then w.pendingStore else fun _ ↦ none
      privateState := if keepsState then w.privateState else none
      pendingVote := none }

def voteStep (w : VoteWorld B) (e : VoteEvent B) : Except Unit (VoteWorld B) :=
  match voteStepOption H cfg opts ballotIn w e with
  | some w' => .ok w'
  | none => .error ()

end Steps

/-- No vote has been cast. -/
def voteStart (B : Type) : VoteWorld B := ⟨start, fun _ ↦ none, fun _ ↦ none, none, none, []⟩

end MidnightReferendum.Passport.Walletless
