import MidnightReferendum.Passport.MidnightV2
import MidnightReferendum.Registry.AppendOnly
import MidnightReferendum.Relayer.Types
import MidnightReferendum.Systems.PromiseChain

/-!
# The epoch coordinator

`cico-service/src/credential-epoch-coordinator.ts`. The coordinator runs enrollment mutations and the freeze
of the registry one at a time. Before each it reads the registry through an indexer that may be behind the
chain but does not go back. Anybody may send transactions to the registry at any moment, and those of a
mutation are sent while its operation runs.
-/

namespace MidnightReferendum.CredentialEpochCoordinator

open MidnightReferendum.Compact CredentialRegistryV1 Checks Execution Js Merkle Passport PromiseChain Relayer

inductive CredentialEpochPhase where
  | enrollmentOpen
  | frozen

structure CredentialEpochSnapshot (B D : Type) extends CredentialRegistryV1State B D where
  registryContractAddress : JsString
  phase : CredentialEpochPhase

structure Options (B : Type) where
  registryContractAddress : JsString
  registryId : B
  issuerId : B
  credentialEpoch : ℕ
  issuerSecret : B
  reconciliationAttempts : ℕ
  reconciliationAttempts_pos : 1 ≤ reconciliationAttempts

inductive Outcome where
  | frozen
  | alreadyFrozen
  deriving DecidableEq

structure CredentialEpochFreezeResult (B D : Type) where
  outcome : Outcome
  before : CredentialEpochSnapshot B D
  after : CredentialEpochSnapshot B D
  reference : FrozenCredentialRegistryReference B D
  receipt : Option CanonicalReceipt

/-- The coordinator and the registry that it is configured for. `asContractAddress` is the SDK's check of an
address. -/
structure Deployment (B D : Type) where
  hashing : Bytes B D
  registry : Sealed B
  options : Options B
  asContractAddress : JsString → Option JsString

/-! ## The code of the coordinator -/

inductive Call where
  | runEnrollmentMutation
  | closeAndFreeze
  deriving DecidableEq

/-- Where an exclusive section waits. -/
inductive Frame (B D : Type) where
  | readBeforeMutation
  | operation
  | readBeforeFreeze
  | join (before : CredentialEpochSnapshot B D)
  | freeze (before : CredentialEpochSnapshot B D)
  | reconcileFrozen (before : CredentialEpochSnapshot B D) (receipt : CanonicalReceipt) (attempt : ℕ)
  | sleep (before : CredentialEpochSnapshot B D) (receipt : CanonicalReceipt) (attempt : ℕ)

/-- A call of the coordinator in the queue. -/
inductive Task (B D : Type) where
  | queued (call : Call)
  | running (frame : Frame B D)
  | mutated
  | frozen (result : CredentialEpochFreezeResult B D)
  | rejected (message : String)

def Task.stage {B D : Type} : Task B D → Stage
  | .queued _ => .waiting
  | .running _ => .running
  | .mutated => .settled
  | .frozen _ => .settled
  | .rejected _ => .settled

/-- What a section learns when the call that it awaits ends. -/
inductive Answer (B D : Type) where
  | snapshot (state : CredentialEpochSnapshot B D)
  | receipt (receipt : CanonicalReceipt)
  | done
  | rejected (message : String)

section Code

variable {B D : Type} [DecidableEq B] [DecidableEq D] (dep : Deployment B D)

/-- `MidnightCredentialEpochReader.readRegistry` -/
def readRegistry (registryContractAddress : JsString) (ledger : Ledger B D) :
    Option (CredentialEpochSnapshot B D) :=
  (dep.asContractAddress registryContractAddress).map fun address ↦
    let state := parseCredentialRegistryV1 dep.hashing.toHashing dep.registry ledger
    { state with
      registryContractAddress := address
      phase := if state.frozen then .frozen else .enrollmentOpen }

def readExpectedRegistry (opts : Options B) (state : CredentialEpochSnapshot B D) :
    Except String (CredentialEpochSnapshot B D) := do
  check (state.registryContractAddress = opts.registryContractAddress)
    "Canonical registry address does not match the configured epoch"
  check (state.registryId = opts.registryId) "Canonical registry ID does not match the configured epoch"
  check (state.issuerId = opts.issuerId) "Canonical issuer ID does not match the configured epoch"
  check (state.credentialEpoch = opts.credentialEpoch)
    "Canonical credential epoch does not match configuration"
  pure state

def assertFrozenRootIsCurrent (state : CredentialEpochSnapshot B D) : Except String Unit :=
  check (state.frozenRoot = state.currentRoot) "Frozen registry root is not the current canonical root"

/-- The status of a receipt is always `confirmed`. -/
def assertFreezeReceipt (receipt : CanonicalReceipt) (registryContractAddress : JsString) : Except String Unit :=
  check (receipt.action = .credential ∧ receipt.network = js "preview" ∧ receipt.circuit = js "freeze" ∧
    receipt.contractAddress = registryContractAddress)
    "Credential registry did not return a canonical Preview freeze receipt"

/-- A frozen registry that `reconcileFrozen` has read. -/
def reconciled (before after : CredentialEpochSnapshot B D) : Except String (CredentialEpochSnapshot B D) := do
  check (after.frozenRoot = before.currentRoot)
    "Canonical registry froze a root other than the coordinated current root"
  check (after.currentRoot = before.currentRoot) "Canonical registry root changed while the epoch was freezing"
  check (after.credentialCount = before.credentialCount)
    "Canonical credential count changed while the epoch was freezing"
  pure after

def Task.ofResult : Except String (CredentialEpochFreezeResult B D) → Task B D
  | .ok result => .frozen result
  | .error message => .rejected message

/-- The section of `runEnrollmentMutation` after its reading. -/
def mutationAfterRead (state : CredentialEpochSnapshot B D) : Task B D :=
  match readExpectedRegistry dep.options state with
  | .error message => .rejected message
  | .ok before =>
    if before.frozen then .rejected "Credential enrollment is closed for this frozen epoch"
    else .running .operation

def alreadyFrozen (before : CredentialEpochSnapshot B D) :
    Except String (CredentialEpochFreezeResult B D) := do
  assertFrozenRootIsCurrent before
  let reference ← createFrozenCredentialRegistryReference dep.hashing dep.options.registryContractAddress
    before.toCredentialRegistryV1State
  pure ⟨.alreadyFrozen, before, before, reference, none⟩

/-- The section of `closeAndFreeze` after its first reading. -/
def freezeAfterRead (state : CredentialEpochSnapshot B D) : Task B D :=
  match readExpectedRegistry dep.options state with
  | .error message => .rejected message
  | .ok before =>
    if before.frozen then Task.ofResult (alreadyFrozen dep before)
    else if before.credentialCount = 0 then .rejected "Refusing to freeze an empty credential epoch"
    else .running (.join before)

def nowFrozen (before after : CredentialEpochSnapshot B D) (receipt : CanonicalReceipt) :
    Except String (CredentialEpochFreezeResult B D) := do
  let after ← reconciled before after
  let reference ← createFrozenCredentialRegistryReference dep.hashing dep.options.registryContractAddress
    after.toCredentialRegistryV1State
  pure ⟨.frozen, before, after, reference, some receipt⟩

/-- The section of `closeAndFreeze` after a reading of `reconcileFrozen`. -/
def reconcileAfterRead (before : CredentialEpochSnapshot B D) (receipt : CanonicalReceipt) (attempt : ℕ)
    (state : CredentialEpochSnapshot B D) : Task B D :=
  match readExpectedRegistry dep.options state with
  | .error message => .rejected message
  | .ok after =>
    if after.frozen then Task.ofResult (nowFrozen dep before after receipt)
    else if attempt + 1 < dep.options.reconciliationAttempts then .running (.sleep before receipt attempt)
    else .rejected "Indexer did not reconcile the frozen credential epoch in time"

/-- A section goes on until it awaits the next call. No call rejects with an answer of another kind. -/
def resume : Frame B D → Answer B D → Option (Task B D)
  | _, .rejected message => some (.rejected message)
  | .readBeforeMutation, .snapshot state => some (mutationAfterRead dep state)
  | .operation, .done => some .mutated
  | .readBeforeFreeze, .snapshot state => some (freezeAfterRead dep state)
  | .join before, .done => some (.running (.freeze before))
  | .freeze before, .receipt receipt =>
    match assertFreezeReceipt receipt dep.options.registryContractAddress with
    | .ok () => some (.running (.reconcileFrozen before receipt 0))
    | .error message => some (.rejected message)
  | .reconcileFrozen before receipt attempt, .snapshot state =>
    some (reconcileAfterRead dep before receipt attempt state)
  | .sleep before receipt attempt, .done => some (.running (.reconcileFrozen before receipt (attempt + 1)))
  | _, _ => none

/-- Where a call begins. -/
def Call.frame : Call → Frame B D
  | .runEnrollmentMutation => .readBeforeMutation
  | .closeAndFreeze => .readBeforeFreeze

end Code

/-! ## The chain and the indexer -/

/-- The calls of the coordinator beside the chain. `blocks` has every state of the registry so far, and the
indexer has shown the states up to the one at `seen`. -/
structure World (B D : Type) where
  blocks : List (Ledger B D)
  registry : Ledger B D
  seen : ℕ
  chain : Chain
  tasks : ℕ → Task B D

/-- How an awaited call ends. A transaction may be accepted although the call fails. -/
inductive Reply where
  | reads (position : ℕ)
  | receipt (receipt : CanonicalReceipt)
  | done
  | loses (message : String)
  | fails (message : String)

inductive Event (B D : Type) where
  | call (call : Call)
  | begin (n : ℕ)
  | answer (n : ℕ) (reply : Reply)
  | getStatus (position : ℕ)
  | operationCall (n : ℕ) (call : CredentialRegistryV1.Call B D)
  | registryCall (call : CredentialRegistryV1.Call B D)

section Steps

variable {B D : Type} [DecidableEq B] [DecidableEq D] (dep : Deployment B D)

/-- The registry takes on a new state. -/
def World.extend (w : World B D) (ledger : Ledger B D) : World B D :=
  { w with blocks := w.blocks ++ [ledger], registry := ledger }

/-- A transaction to the registry. -/
def World.transact (w : World B D) (call : CredentialRegistryV1.Call B D) : Option (World B D) :=
  match CredentialRegistryV1.step dep.hashing.toHashing dep.registry w.registry call with
  | .ok ledger => some (w.extend ledger)
  | .error _ => none

/-- The indexer shows a state of the registry that is no earlier than what it has shown before. -/
def World.read (w : World B D) (position : ℕ) : Option (World B D × Ledger B D) :=
  if w.seen ≤ position then
    (w.blocks[position]?).map fun ledger ↦ ({ w with seen := position }, ledger)
  else none

/-- A reading of the registry, which fails for an address that the SDK refuses. -/
def World.readSnapshot (w : World B D) (position : ℕ) : Option (World B D × Answer B D) :=
  (w.read position).map fun (w, ledger) ↦
    match readRegistry dep dep.options.registryContractAddress ledger with
    | some state => (w, .snapshot state)
    | none => (w, .rejected "Invalid contract address")

/-- What a call that a section awaits does to the world. -/
def perform (w : World B D) : Frame B D → Reply → Option (World B D × Answer B D)
  | _, .fails message => some (w, .rejected message)
  | .readBeforeMutation, .reads position => w.readSnapshot dep position
  | .readBeforeFreeze, .reads position => w.readSnapshot dep position
  | .reconcileFrozen _ _ _, .reads position => w.readSnapshot dep position
  | .operation, .done => some (w, .done)
  | .join _, .done => some (w, .done)
  | .sleep _ _ _, .done => some (w, .done)
  | .freeze before, .receipt receipt =>
    (w.transact dep (.freeze dep.options.issuerSecret before.currentRoot)).map (·, .receipt receipt)
  | .freeze before, .loses message =>
    (w.transact dep (.freeze dep.options.issuerSecret before.currentRoot)).map (·, .rejected message)
  | _, _ => none

def World.setTask (w : World B D) (n : ℕ) (task : Task B D) : World B D :=
  { w with tasks := Function.update w.tasks n task }

/-- The stage of every call. -/
def World.stage (w : World B D) (n : ℕ) : Stage := (w.tasks n).stage

def stepOption (w : World B D) : Event B D → Option (World B D)
  | .call call => some { w.setTask w.chain.asked (.queued call) with chain := w.chain.ask }
  | .begin n =>
    match w.tasks n with
    | .queued call =>
      if n < w.chain.asked ∧ w.chain.Turn w.stage n then some (w.setTask n (.running call.frame)) else none
    | _ => none
  | .answer n reply =>
    match w.tasks n with
    | .running frame => do
      let (w', answer) ← perform dep w frame reply
      let task ← resume dep frame answer
      pure (w'.setTask n task)
    | _ => none
  | .getStatus position => (w.read position).map Prod.fst
  | .operationCall n call =>
    match w.tasks n with
    | .running .operation => w.transact dep call
    | _ => none
  | .registryCall call => w.transact dep call

def step (w : World B D) (e : Event B D) : Except Unit (World B D) :=
  match stepOption dep w e with
  | some w' => .ok w'
  | none => .error ()

/-- The registry has been deployed and the coordinator started. -/
def start : World B D :=
  let registry := initialState dep.hashing.toHashing
  ⟨[registry], registry, 0, PromiseChain.empty, fun _ ↦ .queued .closeAndFreeze⟩

end Steps

end MidnightReferendum.CredentialEpochCoordinator
