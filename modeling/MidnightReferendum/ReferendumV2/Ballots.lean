import MidnightReferendum.ReferendumV2.Effects

/-!
# The ballots of a history

The ballot side of the ledger is determined by the history: the leaves of the ballot tree are the
commitments of the accepted votes in order, the nullifiers are theirs, the revealed commitments are
those of the accepted reveals, and the tally counts the openings of the accepted reveals. A reveal is
linked to a vote by the soundness of Merkle paths and by the opening of the commitment.
-/

namespace MidnightReferendum.ReferendumV2

open MidnightReferendum.Compact Execution Merkle

variable {B D : Type} {H : Hashing B D} {cfg : Sealed B D}

variable (H cfg) in
def commitmentOf (o : Opening B) : B := ballotCommitment H cfg o.1 o.2

/-- The answers of the prover of a vote. -/
def Tx.castWitness (tx : Tx B D) : Option (CastVoteWitness B D) :=
  match tx.call with
  | .castVote w => some w
  | _ => none

/-- The opening that a reveal publishes. -/
def Tx.revealOpening (tx : Tx B D) : Option (Opening B) :=
  match tx.call with
  | .revealVote choice salt _ => some (choice, salt)
  | _ => none

/-- The answers of the provers of the accepted votes. -/
def castWitnesses (h : List (Ledger H × Tx B D)) : List (CastVoteWitness B D) :=
  h.filterMap fun e ↦ e.2.castWitness

/-- The openings that the accepted votes commit to. -/
def castOpenings (h : List (Ledger H × Tx B D)) : List (Opening B) :=
  (castWitnesses h).map fun w ↦ (w.voterChoice, w.voteSalt)

def revealOpenings (h : List (Ledger H × Tx B D)) : List (Opening B) :=
  h.filterMap fun e ↦ e.2.revealOpening

/-- A ballot commitment has one opening. -/
theorem commitmentOf_injective (hH : H.CollisionFree) : Function.Injective (commitmentOf H cfg) := by
  intro o o' h
  obtain ⟨hvector, hsalt⟩ := hH.persistentCommit_injective h
  simp only [List.cons.injEq, true_and, and_true] at hvector
  have hchoice := hH.asBytes32_injective (ordinal_lt o.1) (ordinal_lt o'.1) hvector
  exact Prod.ext (ordinal_injective hchoice) hsalt

/-- The ballot side of the ledger after the history `h`. -/
structure BallotBox (cfg : Sealed B D) (h : List (Ledger H × Tx B D)) (s : Ledger H) : Prop where
  counted : Counted (commitmentOf H cfg) (castOpenings h) (revealOpenings h)
    s.ballotCommitments.leaves s.revealedCommitments s.tally
  issued : s.issuedVotes = s.ballotCommitments.leaves.length
  spent : Register (fun w : CastVoteWitness B D ↦ voteNullifier H cfg w.nullifierVoterSecret)
    (castWitnesses h) s.spentVoteNullifiers
  commit_phase : s.phase = .commit → revealOpenings h = []

theorem castWitnesses_concat (h : List (Ledger H × Tx B D)) (e : Ledger H × Tx B D) :
    castWitnesses (h ++ [e]) = castWitnesses h ++ e.2.castWitness.toList :=
  filterMap_concat _ h e

theorem revealOpenings_concat (h : List (Ledger H × Tx B D)) (e : Ledger H × Tx B D) :
    revealOpenings (h ++ [e]) = revealOpenings h ++ e.2.revealOpening.toList :=
  filterMap_concat _ h e

theorem castWitnesses_concat_of_none (h : List (Ledger H × Tx B D)) {e : Ledger H × Tx B D}
    (he : e.2.castWitness = none) : castWitnesses (h ++ [e]) = castWitnesses h :=
  filterMap_concat_of_none h he

theorem revealOpenings_concat_of_none (h : List (Ledger H × Tx B D)) {e : Ledger H × Tx B D}
    (he : e.2.revealOpening = none) : revealOpenings (h ++ [e]) = revealOpenings h :=
  filterMap_concat_of_none h he

/-- Transactions that touch neither ballots nor tally keep the ballot box. -/
theorem BallotBox.frame {h : List (Ledger H × Tx B D)} {s s' : Ledger H} {e : Ledger H × Tx B D}
    (hbox : BallotBox cfg h s) (hcast : e.2.castWitness = none) (hreveal : e.2.revealOpening = none)
    (hballots : s'.ballotCommitments = s.ballotCommitments) (hissued : s'.issuedVotes = s.issuedVotes)
    (hspent : s'.spentVoteNullifiers = s.spentVoteNullifiers)
    (hrevealed : s'.revealedCommitments = s.revealedCommitments) (htally : s'.tally = s.tally)
    (hphase : s'.phase = .commit → s.phase = .commit) : BallotBox cfg (h ++ [e]) s' := by
  constructor
  · rw [castOpenings, castWitnesses_concat_of_none h hcast, revealOpenings_concat_of_none h hreveal,
      hballots, hrevealed, htally]
    exact hbox.counted
  · rw [hissued, hballots, hbox.issued]
  · rw [castWitnesses_concat_of_none h hcast, hspent]
    exact hbox.spent
  · intro h'
    rw [revealOpenings_concat_of_none h hreveal]
    exact hbox.commit_phase (hphase h')

/-- A reveal opens a commitment that an accepted vote has put into the tree. -/
theorem RevealGuards.mem_leaves [DecidableEq D] (hH : H.CollisionFree) {s : Ledger H}
    {choice : Choice} {salt : B} {path : Path B D 16} (hguards : RevealGuards cfg s choice salt path) :
    commitmentOf H cfg (choice, salt) ∈ s.ballotCommitments.leaves := by
  have hmem := HistoricTree.mem_leaves_of_checkRoot hH.tree_sound hguards.root
  rwa [hguards.leaf] at hmem

variable [DecidableEq B] [DecidableEq D]

theorem initialState_ballotBox {s : Ledger H} (h : initialState H cfg = .ok s) :
    BallotBox cfg [] s := by
  rw [(initialState_ok.mp h).2]
  constructor
  · exact Counted.empty _
  · rfl
  · exact Register.empty _
  · exact fun _ ↦ rfl

theorem BallotBox.castVote {h : List (Ledger H × Tx B D)} {s s' : Ledger H} {now : UInt64}
    {w : CastVoteWitness B D} (hbox : BallotBox cfg h s)
    (hok : step H cfg s ⟨now, .castVote w⟩ = .ok s') :
    BallotBox cfg (h ++ [(s, ⟨now, .castVote w⟩)]) s' := by
  obtain ⟨hguards, ballots, hballots, rfl⟩ := castVote_ok.mp hok
  have hcasts : castWitnesses (h ++ [(s, ⟨now, .castVote w⟩)]) = castWitnesses h ++ [w] :=
    castWitnesses_concat _ _
  have hleaves : ballots.leaves = s.ballotCommitments.leaves ++
      [commitmentOf H cfg (w.voterChoice, w.voteSalt)] := HistoricTree.leaves_insert? hballots
  constructor
  · rw [castOpenings, hcasts, List.map_append, revealOpenings_concat_of_none h rfl, hleaves]
    exact hbox.counted.cast _
  · rw [hleaves, List.length_append, List.length_singleton, hbox.issued]
  · rw [hcasts]
    exact hbox.spent.concat hguards.unspent
  · intro _
    rw [revealOpenings_concat_of_none h rfl]
    exact hbox.commit_phase hguards.phase

theorem BallotBox.revealVote (hH : H.CollisionFree) {h : List (Ledger H × Tx B D)} {s s' : Ledger H}
    {now : UInt64} {choice : Choice} {salt : B} {path : Path B D 16} (hbox : BallotBox cfg h s)
    (hok : step H cfg s ⟨now, .revealVote choice salt path⟩ = .ok s') :
    BallotBox cfg (h ++ [(s, ⟨now, .revealVote choice salt path⟩)]) s' := by
  obtain ⟨hguards, next, hnext, rfl⟩ := revealVote_ok.mp hok
  have hreveals : revealOpenings (h ++ [(s, ⟨now, .revealVote choice salt path⟩)]) =
      revealOpenings h ++ [(choice, salt)] := revealOpenings_concat _ _
  constructor
  · rw [castOpenings, castWitnesses_concat_of_none h rfl, hreveals]
    exact hbox.counted.reveal (commitmentOf_injective hH) (hguards.mem_leaves hH) hguards.unrevealed
      hnext
  · exact hbox.issued
  · rw [castWitnesses_concat_of_none h rfl]
    exact hbox.spent
  · intro hphase
    rw [hguards.phase] at hphase
    cases hphase

theorem step_ballotBox (hH : H.CollisionFree) (h : List (Ledger H × Tx B D)) (s : Ledger H)
    (tx : Tx B D) (s' : Ledger H) (hbox : BallotBox cfg h s) (hok : step H cfg s tx = .ok s') :
    BallotBox cfg (h ++ [(s, tx)]) s' := by
  cases effect_of_step hok with
  | castVote _ _ => exact hbox.castVote hok
  | revealVote _ _ => exact hbox.revealVote hH hok
  | publishCredentialRoot _ => exact hbox.frame rfl rfl rfl rfl rfl rfl rfl id
  | revokeCredentialRoot _ => exact hbox.frame rfl rfl rfl rfl rfl rfl rfl id
  | closeEnrollment _ _ => exact hbox.frame rfl rfl rfl rfl rfl rfl rfl id
  | closeVote hphase _ _ => exact hbox.frame rfl rfl rfl rfl rfl rfl rfl fun _ ↦ hphase
  | finalizeVote _ _ _ => exact hbox.frame rfl rfl rfl rfl rfl rfl rfl fun h' ↦ nomatch h'

/-- The ballot box after every run from the constructor. -/
theorem run_ballotBox (hH : H.CollisionFree) {s₀ : Ledger H} (h₀ : initialState H cfg = .ok s₀)
    (txs : List (Tx B D)) : BallotBox cfg (history H cfg s₀ txs) (runTxs H cfg s₀ txs) :=
  run_history_unconditional (step_ballotBox hH) (initialState_ballotBox h₀) txs

omit [DecidableEq B] [DecidableEq D] in
theorem BallotBox.issued_le {h : List (Ledger H × Tx B D)} {s : Ledger H} (hbox : BallotBox cfg h s) :
    s.issuedVotes ≤ 2 ^ 16 :=
  hbox.issued.trans_le s.ballotCommitments.length_le

omit [DecidableEq B] [DecidableEq D] in
/-- The increment of a reveal fits into the tally. -/
theorem BallotBox.increment_fits {h : List (Ledger H × Tx B D)} {s : Ledger H}
    (hbox : BallotBox cfg h s) (c : Choice) :
    asUint32 ((s.tally c).toNat + 1) = some (UInt32.ofNat ((s.tally c).toNat + 1)) := by
  apply asUint32_of_le
  have htally := hbox.counted.tally_le c
  have hleaves := s.ballotCommitments.length_le
  omega

end MidnightReferendum.ReferendumV2
