import MidnightReferendum.Compact.Ballot
import MidnightReferendum.Compact.Credential
import MidnightReferendum.Systems.Execution

/-!
# The referendum contract

`referendum-v2.compact`. Voters prove in `castVote` that a credential under an accepted registry root
meets the sealed policy, spend a nullifier and commit to a ballot; after the voting deadline they open
their ballots in `revealVote`. The root publisher admits registry roots and the organizer revokes
them. Closing and finalizing the vote are open to anybody and gated by the block time.

Every textual witness call of a circuit is an input of its own, chosen by the prover, so a witness
that a circuit calls twice occurs twice in the call record.
-/

namespace MidnightReferendum.ReferendumV2

open MidnightReferendum.Compact Execution Merkle

/-- The sealed ledger fields. They are exactly the arguments of the constructor. -/
structure Sealed (B D : Type) where
  registryId : B
  issuerId : B
  credentialEpoch : UInt64
  initialCredentialRoot : D
  registryContractBinding : B
  registryContract : B
  eventId : B
  organizerKey : B
  rootPublisherKey : B
  countryPolicy : B
  countryPolicyEnabled : Bool
  minimumAssurance : UInt8
  requireAdult : Bool
  validityReference : UInt64
  opensAtUnix : UInt64
  enrollmentClosesAtUnix : UInt64
  closesAtUnix : UInt64
  revealClosesAtUnix : UInt64

/-- The ledger fields that circuits change. -/
structure Ledger {B D : Type} (H : Hashing B D) where
  acceptedCredentialRoots : Finset D
  revokedCredentialRoots : Finset D
  enrollmentClosed : Bool
  ballotCommitments : HistoricTree H.tree 16
  spentVoteNullifiers : Finset B
  revealedCommitments : Finset B
  tally : Choice → UInt32
  phase : Phase
  closed : Bool
  issuedVotes : ℕ

/-- The answers of the witness calls in `castVote`, in the order of the calls. -/
structure CastVoteWitness (B D : Type) where
  /-- `voterSecret()` in `holderBindingFromVoter` -/
  boundVoterSecret : B
  /-- `holderBlind()` in `holderBindingFromVoter` -/
  holderBlind : B
  /-- `holderBinding()` in the assertion of the holder binding -/
  assertedHolderBinding : B
  /-- the calls in `credentialLeaf` -/
  leafClaims : CredentialClaims B
  voterPath : Path B D 16
  /-- `credentialClaimEpoch()` in the epoch check -/
  checkedClaimEpoch : UInt64
  /-- `credentialValidUntil()` in the validity check -/
  checkedValidUntil : UInt64
  /-- `credentialCountry()` in the country check -/
  checkedCountry : B
  /-- `credentialAgeClass()` in the age check -/
  checkedAgeClass : UInt8
  /-- `credentialAssurance()` in the assurance check -/
  checkedAssurance : UInt8
  /-- `voterSecret()` in the nullifier -/
  nullifierVoterSecret : B
  voterChoice : Choice
  voteSalt : B

/-- A call of an exported circuit, with its arguments and the answers of its witness calls. -/
inductive Call (B D : Type) where
  | castVote (w : CastVoteWitness B D)
  | publishCredentialRoot (root : D) (rootPublisherSecret : B)
  | revokeCredentialRoot (root : D) (organizerSecret : B)
  | closeEnrollment (organizerSecret : B)
  | closeVote
  | revealVote (choice : Choice) (salt : B) (revealPath : Path B D 16)
  | finalizeVote

/-- A submitted transaction: one call in a block of a given time. -/
structure Tx (B D : Type) where
  blockTime : UInt64
  call : Call B D

variable {B D : Type} (H : Hashing B D) (cfg : Sealed B D)

/-! ## Internal circuits -/

def holderBindingFromVoter (w : CastVoteWitness B D) : B :=
  holderCommitment H w.boundVoterSecret w.holderBlind

def credentialLeaf (w : CastVoteWitness B D) : B :=
  credentialCommitment H cfg.issuerId w.leafClaims

def ballotCommitment (choice : Choice) (salt : B) : B :=
  H.persistentCommit [cfg.eventId, H.asBytes32 choice.ordinal] salt

/-- The nullifier of a voter secret in this referendum. -/
def voteNullifier (voterSecret : B) : B :=
  H.persistentHash [H.pad "cico:ref-v2:vote-nullifier:", voterSecret, cfg.eventId]

/-- The secret answers for the root publisher key. -/
def IsRootPublisher (secret : B) : Prop :=
  roleKey H (H.pad "cico:ref-v2:root-publisher:") secret = cfg.rootPublisherKey

/-- The secret answers for the organizer key. -/
def IsOrganizer (secret : B) : Prop :=
  roleKey H (H.pad "cico:referendum-v2:organizer:") secret = cfg.organizerKey

/-- The ledger before the constructor. -/
def defaultLedger : Ledger H where
  acceptedCredentialRoots := ∅
  revokedCredentialRoots := ∅
  enrollmentClosed := false
  ballotCommitments := HistoricTree.empty H.tree 16
  spentVoteNullifiers := ∅
  revealedCommitments := ∅
  tally := fun _ ↦ 0
  phase := .commit
  closed := false
  issuedVotes := 0

variable [DecidableEq B] [DecidableEq D]

instance (secret : B) : Decidable (IsRootPublisher H cfg secret) :=
  inferInstanceAs (Decidable (_ = _))

instance (secret : B) : Decidable (IsOrganizer H cfg secret) :=
  inferInstanceAs (Decidable (_ = _))

/-! ## Constructor and exported circuits -/

def contractConstructor : Circuit (Ledger H) Unit := do
  assert (cfg.organizerKey ≠ cfg.rootPublisherKey)
    "The organizer and root publisher must be different keys"
  assert (cfg.opensAtUnix ≤ cfg.enrollmentClosesAtUnix)
    "Enrollment cannot close before voting opens"
  assert (cfg.enrollmentClosesAtUnix ≤ cfg.closesAtUnix)
    "Voting cannot close before enrollment closes"
  assert (cfg.opensAtUnix < cfg.closesAtUnix) "The voting window must be non-empty"
  assert (cfg.closesAtUnix < cfg.revealClosesAtUnix) "The reveal window must be non-empty"
  modify fun s ↦ { s with
    acceptedCredentialRoots := insert cfg.initialCredentialRoot s.acceptedCredentialRoots }
  modify fun s ↦ { s with enrollmentClosed := false }
  modify fun s ↦ { s with tally := Function.update s.tally .yes 0 }
  modify fun s ↦ { s with tally := Function.update s.tally .no 0 }
  modify fun s ↦ { s with tally := Function.update s.tally .abstain 0 }
  modify fun s ↦ { s with phase := .commit }
  modify fun s ↦ { s with closed := false }

def castVote (w : CastVoteWitness B D) (now : UInt64) : Circuit (Ledger H) Unit := do
  let s ← get
  assert (s.phase = .commit) "Voting is not in the commit phase"
  assert (!s.closed) "Voting is closed"
  assert (blockTimeGte now cfg.opensAtUnix) "Voting has not opened yet"
  assert (blockTimeLt now cfg.closesAtUnix) "Voting has closed"
  assert (holderBindingFromVoter H w = w.assertedHolderBinding) "Credential policy not satisfied"
  assert (w.voterPath.leaf = credentialLeaf H cfg w) "Credential policy not satisfied"
  assert (pathRoot H.tree w.voterPath ∈ s.acceptedCredentialRoots)
    "Credential policy not satisfied"
  assert (w.checkedClaimEpoch = cfg.credentialEpoch) "Credential policy not satisfied"
  assert (cfg.validityReference ≤ w.checkedValidUntil) "Credential policy not satisfied"
  onlyIf cfg.countryPolicyEnabled
    (assert (w.checkedCountry = cfg.countryPolicy) "Credential policy not satisfied")
  onlyIf cfg.requireAdult (assert (w.checkedAgeClass = 2) "Credential policy not satisfied")
  onlyIf (decide (0 < cfg.minimumAssurance))
    (assert (cfg.minimumAssurance ≤ w.checkedAssurance) "Credential policy not satisfied")
  let nullifier := voteNullifier H cfg w.nullifierVoterSecret
  assert (nullifier ∉ s.spentVoteNullifiers) "This voter has already voted in this referendum"
  assert (!s.ballotCommitments.isFull) "Ballot commitment registry is full"
  modify fun s ↦ { s with spentVoteNullifiers := insert nullifier s.spentVoteNullifiers }
  let ballotCommitments ← ofOption treeFull
    (s.ballotCommitments.insert? (ballotCommitment H cfg w.voterChoice w.voteSalt))
  modify fun s ↦ { s with ballotCommitments }
  modify fun s ↦ { s with issuedVotes := s.issuedVotes + 1 }

def publishCredentialRoot (root : D) (rootPublisherSecret : B) (now : UInt64) :
    Circuit (Ledger H) Unit := do
  assert (IsRootPublisher H cfg rootPublisherSecret) "Root publisher authorization failed"
  let s ← get
  assert (s.phase = .commit) "Enrollment is not in the commit phase"
  assert (!s.closed) "Voting is closed"
  assert (!s.enrollmentClosed) "Enrollment is closed"
  assert (blockTimeLt now cfg.enrollmentClosesAtUnix) "Enrollment has closed"
  assert (root ∉ s.acceptedCredentialRoots) "This credential root is already accepted"
  assert (root ∉ s.revokedCredentialRoots) "This credential root has been revoked"
  modify fun s ↦ { s with acceptedCredentialRoots := insert root s.acceptedCredentialRoots }

def revokeCredentialRoot (root : D) (organizerSecret : B) (now : UInt64) :
    Circuit (Ledger H) Unit := do
  assert (IsOrganizer H cfg organizerSecret) "Organizer authorization failed"
  assert (blockTimeLt now cfg.enrollmentClosesAtUnix)
    "Roots cannot be revoked after enrollment closes"
  let s ← get
  assert (root ∈ s.acceptedCredentialRoots) "This credential root is not accepted"
  modify fun s ↦ { s with revokedCredentialRoots := insert root s.revokedCredentialRoots }
  modify fun s ↦ { s with acceptedCredentialRoots := s.acceptedCredentialRoots.erase root }
  -- The non-empty electorate is checked on the state that the two writes above have produced.
  let s ← get
  assert (s.acceptedCredentialRoots ≠ ∅) "The last accepted root cannot be revoked"
  pure ()

def closeEnrollment (organizerSecret : B) : Circuit (Ledger H) Unit := do
  assert (IsOrganizer H cfg organizerSecret) "Organizer authorization failed"
  let s ← get
  assert (!s.enrollmentClosed) "Enrollment is already closed"
  modify fun s ↦ { s with enrollmentClosed := true }

def closeVote (now : UInt64) : Circuit (Ledger H) Unit := do
  let s ← get
  assert (s.phase = .commit) "The referendum is not in the commit phase"
  assert (!s.closed) "The referendum is already closed"
  assert (blockTimeGte now cfg.closesAtUnix) "Voting cannot close before its deadline"
  modify fun s ↦ { s with phase := .reveal }
  modify fun s ↦ { s with closed := true }

def revealVote (choice : Choice) (salt : B) (path : Path B D 16) : Circuit (Ledger H) Unit := do
  let s ← get
  assert (s.phase = .reveal) "Voting is not in the reveal phase"
  assert s.closed "The referendum is not closed"
  let commitment := ballotCommitment H cfg choice salt
  assert (path.leaf = commitment) "The reveal is invalid"
  assert (s.ballotCommitments.checkRoot (pathRoot H.tree path)) "The reveal is invalid"
  assert (commitment ∉ s.revealedCommitments) "This ballot has already been revealed"
  modify fun s ↦ { s with revealedCommitments := insert commitment s.revealedCommitments }
  let nextTally ← ofOption castFailed (asUint32 ((s.tally choice).toNat + 1))
  modify fun s ↦ { s with tally := Function.update s.tally choice nextTally }

def finalizeVote (now : UInt64) : Circuit (Ledger H) Unit := do
  let s ← get
  assert (s.phase = .reveal) "The referendum is not in the reveal phase"
  assert s.closed "The referendum is not closed"
  assert (blockTimeGte now cfg.revealClosesAtUnix) "The reveal window is still open"
  modify fun s ↦ { s with phase := .finalized }

def circuit (tx : Tx B D) : Circuit (Ledger H) Unit :=
  match tx.call with
  | .castVote w => castVote H cfg w tx.blockTime
  | .publishCredentialRoot root secret => publishCredentialRoot H cfg root secret tx.blockTime
  | .revokeCredentialRoot root secret => revokeCredentialRoot H cfg root secret tx.blockTime
  | .closeEnrollment secret => closeEnrollment H cfg secret
  | .closeVote => closeVote H cfg tx.blockTime
  | .revealVote choice salt path => revealVote H cfg choice salt path
  | .finalizeVote => finalizeVote H cfg tx.blockTime

/-- The ledger after the constructor, if the constructor accepts its arguments. -/
def initialState : Except String (Ledger H) :=
  transact (contractConstructor H cfg) (defaultLedger H)

/-- One transaction of the referendum. -/
def step (s : Ledger H) (tx : Tx B D) : Except String (Ledger H) := transact (circuit H cfg tx) s

/-- The ledger after a list of submitted transactions. -/
abbrev runTxs (s : Ledger H) (txs : List (Tx B D)) : Ledger H := run (step H cfg) s txs

/-- The accepted transactions of a run, each with the ledger it was accepted in. -/
abbrev history (s : Ledger H) (txs : List (Tx B D)) : List (Ledger H × Tx B D) :=
  accepted (step H cfg) s txs

variable {H cfg}

theorem runTxs_concat_of_ok {s s' : Ledger H} {txs : List (Tx B D)} {tx : Tx B D}
    (h : step H cfg (runTxs H cfg s txs) tx = .ok s') : runTxs H cfg s (txs ++ [tx]) = s' :=
  (run_concat s txs tx).trans (apply_of_ok h)

theorem history_concat_of_ok {s s' : Ledger H} {txs : List (Tx B D)} {tx : Tx B D}
    (h : step H cfg (runTxs H cfg s txs) tx = .ok s') :
    history H cfg s (txs ++ [tx]) = history H cfg s txs ++ [(runTxs H cfg s txs, tx)] := by
  rw [history, accepted_append, accepted_cons_of_ok h, accepted_nil]

end MidnightReferendum.ReferendumV2
