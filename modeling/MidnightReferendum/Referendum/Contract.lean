import MidnightReferendum.Compact.Ballot
import MidnightReferendum.Compact.Credential
import MidnightReferendum.Systems.Execution

/-!
# The first referendum contract

`referendum.compact`. The issuer inserts eligibility commitments into a historic tree, a voter proves
one of them and spends a nullifier of the same secret, and the organizer closes and finalizes the
vote. There is no schedule. `castVote` calls `voterSecret` once and keeps the answer in a constant.
-/

namespace MidnightReferendum.Referendum

open MidnightReferendum.Compact Execution Merkle

/-- The sealed ledger fields. -/
structure Sealed (B : Type) where
  issuerKey : B
  organizerKey : B
  eventId : B

structure Ledger {B D : Type} (H : Hashing B D) where
  eligibleVoters : HistoricTree H.tree 10
  ballotCommitments : HistoricTree H.tree 10
  spentNullifiers : Finset B
  revealedCommitments : Finset B
  tally : Choice → UInt32
  phase : Phase
  closed : Bool
  issuedVoters : ℕ

/-- The answers of the witness calls in `castVote`. -/
structure CastVoteWitness (B D : Type) where
  voterSecret : B
  voterPath : Path B D 10
  voterChoice : Choice
  voteSalt : B

/-- A call of an exported circuit, with its arguments and the answers of its witness calls. -/
inductive Call (B D : Type) where
  | issue (commitment issuerSecret : B)
  | castVote (w : CastVoteWitness B D)
  | closeVote (organizerSecret : B)
  | revealVote (choice : Choice) (salt : B) (revealPath : Path B D 10)
  | finalizeVote (organizerSecret : B)

variable {B D : Type} (H : Hashing B D) (cfg : Sealed B)

/-- The sealed fields that the constructor computes from its arguments. -/
def contractConstructor (initialIssuerSecret initialOrganizerSecret referendumEventId : B) :
    Sealed B where
  issuerKey := roleKey H (H.pad "referendum:issuer:") initialIssuerSecret
  organizerKey := roleKey H (H.pad "referendum:organizer") initialOrganizerSecret
  eventId := referendumEventId

/-- The ledger after the constructor. -/
def initialState : Ledger H where
  eligibleVoters := HistoricTree.empty H.tree 10
  ballotCommitments := HistoricTree.empty H.tree 10
  spentNullifiers := ∅
  revealedCommitments := ∅
  tally := fun _ ↦ 0
  phase := .commit
  closed := false
  issuedVoters := 0

/-- The commitment that makes the holder of a secret eligible. -/
def eligibilityCommitment (secret : B) : B :=
  H.persistentHash [H.pad "referendum:commitment:", secret]

def voteNullifier (secret : B) : B :=
  H.persistentHash [H.pad "referendum:nullifier:", secret, cfg.eventId]

def ballotCommitment (choice : Choice) (salt : B) : B :=
  H.persistentCommitEnum choice.ordinal salt

variable [DecidableEq B] [DecidableEq D]

def issue (commitment issuerSecret : B) : Circuit (Ledger H) Unit := do
  assert (roleKey H (H.pad "referendum:issuer:") issuerSecret = cfg.issuerKey)
    "Only the eligibility issuer can issue commitments"
  let s ← get
  assert (s.phase = .commit) "Eligibility cannot be issued after commit phase"
  assert (!s.eligibleVoters.isFull) "The eligibility tree is full"
  let eligibleVoters ← ofOption treeFull (s.eligibleVoters.insert? commitment)
  modify fun s ↦ { s with eligibleVoters }
  modify fun s ↦ { s with issuedVoters := s.issuedVoters + 1 }

def castVote (w : CastVoteWitness B D) : Circuit (Ledger H) Unit := do
  let s ← get
  assert (s.phase = .commit) "Voting is not in the commit phase"
  let commitment := eligibilityCommitment H w.voterSecret
  assert (w.voterPath.leaf = commitment) "The membership leaf does not match"
  assert (s.eligibleVoters.checkRoot (pathRoot H.tree w.voterPath))
    "The voter is not eligible for this referendum"
  let nullifier := voteNullifier H cfg w.voterSecret
  assert (nullifier ∉ s.spentNullifiers) "This voter has already voted in this referendum"
  modify fun s ↦ { s with spentNullifiers := insert nullifier s.spentNullifiers }
  -- The tree is not asked whether it is full, so the runtime may refuse this insertion.
  let ballotCommitments ← ofOption treeFull
    (s.ballotCommitments.insert? (ballotCommitment H w.voterChoice w.voteSalt))
  modify fun s ↦ { s with ballotCommitments }

def closeVote (organizerSecret : B) : Circuit (Ledger H) Unit := do
  assert (roleKey H (H.pad "referendum:organizer") organizerSecret = cfg.organizerKey)
    "Only the organizer can close the referendum"
  let s ← get
  assert (s.phase = .commit) "The referendum is not in the commit phase"
  modify fun s ↦ { s with phase := .reveal }
  modify fun s ↦ { s with closed := true }

def revealVote (choice : Choice) (salt : B) (path : Path B D 10) : Circuit (Ledger H) Unit := do
  let s ← get
  assert (s.phase = .reveal) "Voting is not in the reveal phase"
  let commitment := ballotCommitment H choice salt
  assert (path.leaf = commitment) "The reveal does not match its commitment"
  assert (s.ballotCommitments.checkRoot (pathRoot H.tree path))
    "The ballot commitment is not in this referendum"
  assert (commitment ∉ s.revealedCommitments) "This ballot has already been revealed"
  modify fun s ↦ { s with revealedCommitments := insert commitment s.revealedCommitments }
  let nextTally ← ofOption castFailed (asUint32 ((s.tally choice).toNat + 1))
  modify fun s ↦ { s with tally := Function.update s.tally choice nextTally }

def finalizeVote (organizerSecret : B) : Circuit (Ledger H) Unit := do
  assert (roleKey H (H.pad "referendum:organizer") organizerSecret = cfg.organizerKey)
    "Only the organizer can finalize the referendum"
  let s ← get
  assert (s.phase = .reveal) "The referendum is not in the reveal phase"
  modify fun s ↦ { s with phase := .finalized }

def circuit : Call B D → Circuit (Ledger H) Unit
  | .issue commitment issuerSecret => issue H cfg commitment issuerSecret
  | .castVote w => castVote H cfg w
  | .closeVote organizerSecret => closeVote H cfg organizerSecret
  | .revealVote choice salt path => revealVote H choice salt path
  | .finalizeVote organizerSecret => finalizeVote H cfg organizerSecret

/-- One transaction of the referendum. -/
def step (s : Ledger H) (call : Call B D) : Except String (Ledger H) :=
  transact (circuit H cfg call) s

/-- The ledger after a list of submitted calls. -/
abbrev runCalls (s : Ledger H) (calls : List (Call B D)) : Ledger H := run (step H cfg) s calls

/-- The accepted calls of a run, each with the ledger it was accepted in. -/
abbrev history (s : Ledger H) (calls : List (Call B D)) : List (Ledger H × Call B D) :=
  accepted (step H cfg) s calls

/-! ## What an accepted call has checked and changed -/

variable {H cfg}

structure CastVoteGuards (cfg : Sealed B) (s : Ledger H) (w : CastVoteWitness B D) : Prop where
  phase : s.phase = .commit
  leaf : w.voterPath.leaf = eligibilityCommitment H w.voterSecret
  root : s.eligibleVoters.checkRoot (pathRoot H.tree w.voterPath) = true
  unspent : voteNullifier H cfg w.voterSecret ∉ s.spentNullifiers

structure RevealGuards (s : Ledger H) (choice : Choice) (salt : B) (path : Path B D 10) : Prop where
  phase : s.phase = .reveal
  leaf : path.leaf = ballotCommitment H choice salt
  root : s.ballotCommitments.checkRoot (pathRoot H.tree path) = true
  unrevealed : ballotCommitment H choice salt ∉ s.revealedCommitments

/-- All that an accepted call can do to the ledger, one case for each circuit. -/
inductive Effect (cfg : Sealed B) (s : Ledger H) : Call B D → Ledger H → Prop where
  | issue {commitment issuerSecret : B} {eligible : HistoricTree H.tree 10}
      (issuer : roleKey H (H.pad "referendum:issuer:") issuerSecret = cfg.issuerKey)
      (phase : s.phase = .commit) (inserted : s.eligibleVoters.insert? commitment = some eligible) :
      Effect cfg s (.issue commitment issuerSecret)
        { s with eligibleVoters := eligible, issuedVoters := s.issuedVoters + 1 }
  | castVote {w : CastVoteWitness B D} {ballots : HistoricTree H.tree 10}
      (guards : CastVoteGuards cfg s w)
      (inserted : s.ballotCommitments.insert? (ballotCommitment H w.voterChoice w.voteSalt) =
        some ballots) :
      Effect cfg s (.castVote w) { s with
        spentNullifiers := insert (voteNullifier H cfg w.voterSecret) s.spentNullifiers
        ballotCommitments := ballots }
  | closeVote {organizerSecret : B}
      (organizer : roleKey H (H.pad "referendum:organizer") organizerSecret = cfg.organizerKey)
      (phase : s.phase = .commit) :
      Effect cfg s (.closeVote organizerSecret) { s with phase := .reveal, closed := true }
  | revealVote {choice : Choice} {salt : B} {path : Path B D 10} {next : UInt32}
      (guards : RevealGuards s choice salt path)
      (increment : asUint32 ((s.tally choice).toNat + 1) = some next) :
      Effect cfg s (.revealVote choice salt path) { s with
        revealedCommitments := insert (ballotCommitment H choice salt) s.revealedCommitments
        tally := Function.update s.tally choice next }
  | finalizeVote {organizerSecret : B}
      (organizer : roleKey H (H.pad "referendum:organizer") organizerSecret = cfg.organizerKey)
      (phase : s.phase = .reveal) :
      Effect cfg s (.finalizeVote organizerSecret) { s with phase := .finalized }

theorem castVote_ok {s s' : Ledger H} {w : CastVoteWitness B D} :
    step H cfg s (.castVote w) = .ok s' ↔ CastVoteGuards cfg s w ∧
      ∃ ballots, s.ballotCommitments.insert? (ballotCommitment H w.voterChoice w.voteSalt) =
          some ballots ∧
        s' = { s with
          spentNullifiers := insert (voteNullifier H cfg w.voterSecret) s.spentNullifiers
          ballotCommitments := ballots } := by
  simp only [step, transact_eq_ok, circuit, castVote, accepts_get_bind, accepts_assert_bind,
    accepts_ofOption_bind, accepts_modify_bind, accepts_modify]
  constructor
  · rintro ⟨hphase, hleaf, hroot, hunspent, ballots, hballots, rfl⟩
    exact ⟨⟨hphase, hleaf, hroot, hunspent⟩, ballots, hballots, rfl⟩
  · rintro ⟨⟨hphase, hleaf, hroot, hunspent⟩, ballots, hballots, rfl⟩
    exact ⟨hphase, hleaf, hroot, hunspent, ballots, hballots, rfl⟩

theorem effect_of_step {s s' : Ledger H} {call : Call B D} (h : step H cfg s call = .ok s') :
    Effect cfg s call s' := by
  cases call with
  | issue commitment issuerSecret =>
    simp only [step, transact_eq_ok, circuit, issue, accepts_get_bind, accepts_assert_bind,
      accepts_ofOption_bind, accepts_modify_bind, accepts_modify] at h
    obtain ⟨hissuer, hphase, _, eligible, heligible, rfl⟩ := h
    exact .issue hissuer hphase heligible
  | castVote w =>
    obtain ⟨hguards, ballots, hballots, rfl⟩ := castVote_ok.mp h
    exact .castVote hguards hballots
  | closeVote organizerSecret =>
    simp only [step, transact_eq_ok, circuit, closeVote, accepts_get_bind, accepts_assert_bind,
      accepts_modify_bind, accepts_modify] at h
    obtain ⟨horganizer, hphase, rfl⟩ := h
    exact .closeVote horganizer hphase
  | revealVote choice salt path =>
    simp only [step, transact_eq_ok, circuit, revealVote, accepts_get_bind, accepts_assert_bind,
      accepts_ofOption_bind, accepts_modify_bind, accepts_modify] at h
    obtain ⟨hphase, hleaf, hroot, hunrevealed, next, hnext, rfl⟩ := h
    exact .revealVote ⟨hphase, hleaf, hroot, hunrevealed⟩ hnext
  | finalizeVote organizerSecret =>
    simp only [step, transact_eq_ok, circuit, finalizeVote, accepts_get_bind, accepts_assert_bind,
      accepts_modify] at h
    obtain ⟨horganizer, hphase, rfl⟩ := h
    exact .finalizeVote horganizer hphase

end MidnightReferendum.Referendum
