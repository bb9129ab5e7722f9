import MidnightReferendum.Compact.Ballot
import MidnightReferendum.Js.Text
import MidnightReferendum.Systems.Execution
import MidnightReferendum.Systems.PromiseChain

/-!
# The votes of several adapters

`castVote`, `castVoteOnce` and `withPrivateStateActionLock` of `midnight-civic-action-adapter.ts` for adapters that
share one private-state provider, the one of `inMemoryPrivateStateProvider`. Every adapter has a map of its pending
votes. The lock belongs to the provider: an operation waits for the one that has asked before it.

The join of the SDK sets the scope of the provider and stores the initial private state, and a proof is about the
state that the provider has then.
-/

namespace MidnightReferendum.Passport.CivicActions

open MidnightReferendum.Compact Execution Js PromiseChain

/-! ## Requests and private states -/

structure CastVoteRequest where
  referendumId : JsString
  choice : Choice
  authorizationHandle : JsString
  deriving DecidableEq

/-- The material of the credential, its path and the ballot. -/
structure ReferendumV2PrivateState (M V S : Type) where
  material : M
  voterPath : V
  voterChoice : Choice
  voteSalt : S
  deriving DecidableEq

/-- The scope of the provider and the stored state of each scope. -/
structure PrivateStateProvider (P : Type) where
  contractScope : JsString
  states : JsString → Option P

section Provider

variable {P : Type} (provider : PrivateStateProvider P)

def PrivateStateProvider.setContractAddress (address : JsString) : PrivateStateProvider P :=
  { provider with contractScope := address }

def PrivateStateProvider.set (state : P) : PrivateStateProvider P :=
  { provider with states := Function.update provider.states provider.contractScope (some state) }

def PrivateStateProvider.get : Option P := provider.states provider.contractScope

@[simp]
theorem get_set (state : P) : (provider.set state).get = some state := Function.update_self _ _ _

end Provider

/-! ## Operations -/

/-- Where `castVoteOnce` waits. A join first sets the scope of the provider and then stores the state. -/
inductive Frame (M V S : Type) where
  | getActionAuthorization
  | getPrivateCredentialMaterial
  | assertCanonicalBinding (material : M)
  | resolveCredentialPath (material : M)
  | setContractAddress (privateState : ReferendumV2PrivateState M V S)
  | set (privateState : ReferendumV2PrivateState M V S)
  | castVote (privateState : ReferendumV2PrivateState M V S)
  | submit

/-- An operation waits for the lock, runs for a contract or has settled. -/
inductive Progress (M V S : Type) where
  | waiting
  | running (contractAddress : JsString) (frame : Frame M V S)
  | settled

def Progress.stage {M V S : Type} : Progress M V S → Stage
  | .waiting => .waiting
  | .running _ _ => .running
  | .settled => .settled

structure Operation (A M V S : Type) where
  adapter : A
  request : CastVoteRequest
  progress : Progress M V S

structure PendingVote where
  choice : Choice
  authorizationHandle : JsString
  operation : ℕ

/-- What a call of `castVote` gets: an operation whose result it awaits, or a rejection with `CONFLICT`. -/
inductive CallResult where
  | operation (n : ℕ)
  | conflict
  deriving DecidableEq

/-- A proof of an operation: the state that its own join has stored and the state that is proved. -/
structure Proof (M V S : Type) where
  operation : ℕ
  joined : ReferendumV2PrivateState M V S
  proved : Option (ReferendumV2PrivateState M V S)

structure World (A M V S : Type) where
  chain : Chain
  operations : ℕ → Option (Operation A M V S)
  pendingVotes : A → JsString → Option PendingVote
  provider : PrivateStateProvider (ReferendumV2PrivateState M V S)
  proofs : List (Proof M V S)
  calls : List (A × CastVoteRequest × CallResult)

/-- How an awaited call ends. A call of the provider may have its effect although it rejects. -/
inductive Reply (M V S : Type) where
  | authorization (handle : Option JsString)
  | material (material : Option M)
  | succeeds
  | path (voterPath : V) (voteSalt : S)
  | loses
  | fails

inductive Event (A M V S : Type) where
  | castVote (adapter : A) (request : CastVoteRequest)
  | begins (n : ℕ)
  | answer (n : ℕ) (reply : Reply M V S)
  | cleans (n : ℕ)

section Steps

variable {A M V S : Type} [DecidableEq A]

def World.stage (w : World A M V S) (n : ℕ) : Stage :=
  match w.operations n with
  | some o => o.progress.stage
  | none => .waiting

def World.setProgress (w : World A M V S) (n : ℕ) (o : Operation A M V S) (progress : Progress M V S) :
    World A M V S :=
  { w with operations := Function.update w.operations n (some { o with progress }) }

/-- An operation settles and releases the lock. -/
def World.settle (w : World A M V S) (n : ℕ) (o : Operation A M V S) : World A M V S :=
  { w.setProgress n o .settled with chain := w.chain.forget n }

def castVote (w : World A M V S) (adapter : A) (request : CastVoteRequest) : World A M V S :=
  match w.pendingVotes adapter request.referendumId with
  | some existing =>
    if existing.choice ≠ request.choice ∨ existing.authorizationHandle ≠ request.authorizationHandle then
      { w with calls := w.calls ++ [(adapter, request, .conflict)] }
    else { w with calls := w.calls ++ [(adapter, request, .operation existing.operation)] }
  | none =>
    let n := w.chain.asked
    { w with
      chain := w.chain.ask
      operations := Function.update w.operations n (some ⟨adapter, request, .waiting⟩)
      pendingVotes := Function.update w.pendingVotes adapter (Function.update (w.pendingVotes adapter)
        request.referendumId (some ⟨request.choice, request.authorizationHandle, n⟩))
      calls := w.calls ++ [(adapter, request, .operation n)] }

/-- An awaited call of an operation ends. The operation goes on to the next wait or settles. -/
def answer (w : World A M V S) (n : ℕ) (o : Operation A M V S) (contractAddress : JsString) :
    Frame M V S → Reply M V S → Option (World A M V S)
  | _, .fails => some (w.settle n o)
  | .getActionAuthorization, .authorization handle =>
    if handle = some o.request.authorizationHandle then
      some (w.setProgress n o (.running contractAddress .getPrivateCredentialMaterial))
    else some (w.settle n o)
  | .getPrivateCredentialMaterial, .material (some material) =>
    some (w.setProgress n o (.running contractAddress (.assertCanonicalBinding material)))
  | .getPrivateCredentialMaterial, .material none => some (w.settle n o)
  | .assertCanonicalBinding material, .succeeds =>
    some (w.setProgress n o (.running contractAddress (.resolveCredentialPath material)))
  | .resolveCredentialPath material, .path voterPath voteSalt =>
    some (w.setProgress n o (.running contractAddress
      (.setContractAddress ⟨material, voterPath, o.request.choice, voteSalt⟩)))
  | .setContractAddress privateState, .succeeds =>
    some { w.setProgress n o (.running contractAddress (.set privateState)) with
      provider := w.provider.setContractAddress contractAddress }
  | .setContractAddress _, .loses =>
    some { w.settle n o with provider := w.provider.setContractAddress contractAddress }
  | .set privateState, .succeeds =>
    some { w.setProgress n o (.running contractAddress (.castVote privateState)) with
      provider := w.provider.set privateState }
  | .set privateState, .loses => some { w.settle n o with provider := w.provider.set privateState }
  | .castVote privateState, .succeeds =>
    some { w.setProgress n o (.running contractAddress .submit) with
      proofs := w.proofs ++ [⟨n, privateState, w.provider.get⟩] }
  | .submit, .succeeds => some (w.settle n o)
  | _, _ => none

/-- The first call of an operation deletes its entry when the operation has settled. -/
def clean (w : World A M V S) (n : ℕ) (o : Operation A M V S) : World A M V S :=
  if (w.pendingVotes o.adapter o.request.referendumId).map PendingVote.operation = some n then
    { w with
      pendingVotes := Function.update w.pendingVotes o.adapter (Function.update (w.pendingVotes o.adapter)
        o.request.referendumId none) }
  else w

variable (referenda : A → JsString → Option JsString)

/-- The adapters have catalogs with the contract addresses of their referenda. -/
def stepOption (w : World A M V S) : Event A M V S → Option (World A M V S)
  | .castVote adapter request => some (castVote w adapter request)
  | .begins n =>
    match w.operations n with
    | some o =>
      match o.progress with
      | .waiting =>
        if w.chain.Turn w.stage n then
          match referenda o.adapter o.request.referendumId with
          | some contractAddress => some (w.setProgress n o (.running contractAddress .getActionAuthorization))
          | none => some (w.settle n o)
        else none
      | _ => none
    | none => none
  | .answer n reply =>
    match w.operations n with
    | some o =>
      match o.progress with
      | .running contractAddress frame => answer w n o contractAddress frame reply
      | _ => none
    | none => none
  | .cleans n =>
    match w.operations n with
    | some o =>
      match o.progress with
      | .settled => some (clean w n o)
      | _ => none
    | none => none

def step (w : World A M V S) (e : Event A M V S) : Except Unit (World A M V S) :=
  match stepOption referenda w e with
  | some w' => .ok w'
  | none => .error ()

end Steps

/-- No call has been made. -/
def start (A M V S : Type) (provider : PrivateStateProvider (ReferendumV2PrivateState M V S)) : World A M V S where
  chain := empty
  operations _ := none
  pendingVotes _ _ := none
  provider := provider
  proofs := []
  calls := []

end MidnightReferendum.Passport.CivicActions
