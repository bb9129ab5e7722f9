import MidnightReferendum.Compact.Symbolic
import MidnightReferendum.ReferendumV2.Ballots

/-!
# The ledger counts agree

Five ledger fields are updated by different circuits: the vote counter, the spent nullifiers, the
ballot tree, the revealed commitments and the tally. In every reachable state they count the same
votes and the same reveals.
-/

namespace MidnightReferendum.ReferendumV2

open MidnightReferendum.Compact Execution Merkle

variable {B D : Type} {H : Hashing B D} {cfg : Sealed B D}

/-- The counts of the ledger after a run, and how they relate to its accepted votes. -/
structure Conserved [DecidableEq B] [DecidableEq D] (H : Hashing B D) (cfg : Sealed B D)
    (h : List (Ledger H × Tx B D)) (s : Ledger H) : Prop where
  issued_eq_spent : s.issuedVotes = s.spentVoteNullifiers.card
  issued_eq_leaves : s.issuedVotes = s.ballotCommitments.leaves.length
  capacity : s.issuedVotes ≤ 2 ^ 16
  tally_eq : ∀ c, (s.tally c).toNat =
    {x | x ∈ s.revealedCommitments ∧ ∃ salt, ballotCommitment H cfg c salt = x}.ncard
  total_eq : tallyTotal s.tally = s.revealedCommitments.card
  revealed_le : s.revealedCommitments.card ≤ s.issuedVotes
  revealed_cast : ∀ x ∈ s.revealedCommitments, ∃ e ∈ h, ∃ w, e.2.call = .castVote w ∧
    ballotCommitment H cfg w.voterChoice w.voteSalt = x
  uncounted_while_voting : ∀ now w s', step H cfg s ⟨now, .castVote w⟩ = .ok s' →
    ∀ c, s.tally c = 0
  increment_fits : ∀ c, ∃ next, asUint32 ((s.tally c).toNat + 1) = some next

theorem mem_castOpenings {h : List (Ledger H × Tx B D)} {o : Opening B} (ho : o ∈ castOpenings h) :
    ∃ e ∈ h, ∃ w, e.2.call = .castVote w ∧ o = (w.voterChoice, w.voteSalt) := by
  obtain ⟨w, hw, rfl⟩ := List.mem_map.mp ho
  obtain ⟨e, he, hwitness⟩ := List.mem_filterMap.mp hw
  unfold Tx.castWitness at hwitness
  split at hwitness
  · next w' hcall => exact ⟨e, he, w, Option.some.inj hwitness ▸ hcall, rfl⟩
  · cases hwitness

variable [DecidableEq B] [DecidableEq D]

theorem ballots_conserved (hH : H.CollisionFree) {s₀ : Ledger H}
    (h₀ : initialState H cfg = .ok s₀) (txs : List (Tx B D)) :
    Conserved H cfg (history H cfg s₀ txs) (runTxs H cfg s₀ txs) := by
  have hbox := run_ballotBox hH h₀ txs
  exact {
    issued_eq_spent := by
      rw [hbox.issued, hbox.spent.card_eq, hbox.counted.leaves_eq, List.length_map, castOpenings,
        List.length_map]
    issued_eq_leaves := hbox.issued
    capacity := hbox.issued_le
    tally_eq := hbox.counted.tally_eq_ncard (commitmentOf_injective hH)
    total_eq := hbox.counted.tallyTotal_eq
    revealed_le := hbox.counted.card_revealed_le.trans_eq hbox.issued.symm
    revealed_cast := by
      intro x hx
      obtain ⟨o, ho, rfl⟩ := hbox.counted.mem_revealed hx
      obtain ⟨e, he, w, hcall, rfl⟩ := mem_castOpenings ho
      exact ⟨e, he, w, hcall, rfl⟩
    uncounted_while_voting := by
      intro now w s' hok c
      have hnone := hbox.commit_phase (castVote_ok.mp hok).1.phase
      have hzero := hbox.counted.tally_eq c
      rw [hnone] at hzero
      exact UInt32.toNat_inj.mp hzero
    increment_fits := fun c ↦ ⟨_, hbox.increment_fits c⟩ }

/-! ## A concrete referendum -/

/-- The claims of the credential of voter `n`: an adult of the sampled country. -/
def sampleClaims (n : ℕ) : CredentialClaims Term where
  holderBinding := holderCommitment symbolic (.uint (100 + n)) (.uint (200 + n))
  country := .text "032"
  ageClass := 2
  assurance := 2
  epoch := 7
  validUntil := 2000000000
  blind := .uint (300 + n)

/-- The registry leaves after the first `k` voters have enrolled. -/
def sampleLeaves (k : ℕ) : List Term :=
  (List.range k).map fun n ↦ credentialCommitment symbolic (.uint 4) (sampleClaims n)

def sampleRoot (k : ℕ) : Digest := root symbolic.tree 16 (sampleLeaves k)

/-- A referendum for adults of one country that opens with two enrolled voters. The organizer
secret is the number one and the root publisher secret is the number two. -/
def sampleSealed : Sealed Term Digest where
  registryId := .uint 6
  issuerId := .uint 4
  credentialEpoch := 7
  initialCredentialRoot := sampleRoot 2
  registryContractBinding := .uint 8
  registryContract := .uint 9
  eventId := .uint 5
  organizerKey := roleKey symbolic (symbolic.pad "cico:referendum-v2:organizer:") (.uint 1)
  rootPublisherKey := roleKey symbolic (symbolic.pad "cico:ref-v2:root-publisher:") (.uint 2)
  countryPolicy := .text "032"
  countryPolicyEnabled := true
  minimumAssurance := 1
  requireAdult := true
  validityReference := 1900000000
  opensAtUnix := 100
  enrollmentClosesAtUnix := 200
  closesAtUnix := 300
  revealClosesAtUnix := 400

def sampleInitial : Ledger symbolic :=
  { defaultLedger symbolic with acceptedCredentialRoots := {sampleSealed.initialCredentialRoot} }

/-- The answers of the honest voter `n`, who proves membership in the tree of `k` voters. -/
def sampleWitness (n k : ℕ) (choice : Choice) (salt : ℕ) : CastVoteWitness Term Digest where
  boundVoterSecret := .uint (100 + n)
  holderBlind := .uint (200 + n)
  assertedHolderBinding := (sampleClaims n).holderBinding
  leafClaims := sampleClaims n
  voterPath := symbolicPath 16 (sampleLeaves k)
    (credentialCommitment symbolic (.uint 4) (sampleClaims n))
  checkedClaimEpoch := 7
  checkedValidUntil := 2000000000
  checkedCountry := .text "032"
  checkedAgeClass := 2
  checkedAssurance := 2
  nullifierVoterSecret := .uint (100 + n)
  voterChoice := choice
  voteSalt := .uint salt

def sampleVote (time : UInt64) (n k : ℕ) (choice : Choice) (salt : ℕ) : Tx Term Digest :=
  ⟨time, .castVote (sampleWitness n k choice salt)⟩

/-- The reveal of one of the given openings. -/
def sampleReveal (time : UInt64) (openings : List (Opening Term)) (o : Opening Term) :
    Tx Term Digest :=
  ⟨time, .revealVote o.1 o.2 (symbolicPath 16 (openings.map (commitmentOf symbolic sampleSealed))
    (commitmentOf symbolic sampleSealed o))⟩

theorem sampleInitial_ok : initialState symbolic sampleSealed = .ok sampleInitial :=
  initialState_ok.mpr ⟨⟨by decide, by decide, by decide, by decide, by decide⟩, rfl⟩

def sampleOpenings : List (Opening Term) := [(.yes, .uint 50), (.no, .uint 51)]

/-- Both voters vote, the first one twice, and one of them opens the ballot. -/
def sampleTxs : List (Tx Term Digest) :=
  [sampleVote 110 0 2 .yes 50, sampleVote 120 0 2 .no 52, sampleVote 130 1 2 .no 51,
    ⟨300, .closeVote⟩, sampleReveal 310 sampleOpenings (.yes, .uint 50)]

theorem ballots_conserved_sample :
    Conserved symbolic sampleSealed (history symbolic sampleSealed sampleInitial sampleTxs)
        (runTxs symbolic sampleSealed sampleInitial sampleTxs) ∧
      (runTxs symbolic sampleSealed sampleInitial sampleTxs).issuedVotes = 2 ∧
      tallyTotal (runTxs symbolic sampleSealed sampleInitial sampleTxs).tally = 1 :=
  ⟨ballots_conserved symbolic_collisionFree sampleInitial_ok sampleTxs, by decide +kernel,
    by decide +kernel⟩

end MidnightReferendum.ReferendumV2
