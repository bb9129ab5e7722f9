import MidnightReferendum.Compact.Symbolic
import MidnightReferendum.Referendum.Contract

/-!
# Conservation and capacity of the first referendum

`castVote` does not ask whether the ballot tree is full. The bound on its leaves comes from the other
tree: every accepted vote spends the nullifier of another secret, the secrets have pairwise distinct
eligibility commitments, and these are among the at most `2 ^ 10` leaves that the issuer has inserted.
-/

namespace MidnightReferendum.Referendum

open MidnightReferendum.Compact Execution Merkle

variable {B D : Type} {H : Hashing B D} {cfg : Sealed B}

variable (H) in
def commitmentOf (o : Opening B) : B := ballotCommitment H o.1 o.2

def Call.castWitness : Call B D → Option (CastVoteWitness B D)
  | .castVote w => some w
  | _ => none

def Call.issuedCommitment : Call B D → Option B
  | .issue commitment _ => some commitment
  | _ => none

def Call.revealOpening : Call B D → Option (Opening B)
  | .revealVote choice salt _ => some (choice, salt)
  | _ => none

def castWitnesses (h : List (Ledger H × Call B D)) : List (CastVoteWitness B D) :=
  h.filterMap fun e ↦ e.2.castWitness

/-- The commitments that the issuer has inserted, with repetitions. -/
def issuedCommitments (h : List (Ledger H × Call B D)) : List B :=
  h.filterMap fun e ↦ e.2.issuedCommitment

def revealOpenings (h : List (Ledger H × Call B D)) : List (Opening B) :=
  h.filterMap fun e ↦ e.2.revealOpening

/-- The eligibility commitments that the accepted votes have proved. -/
def castCommitments (h : List (Ledger H × Call B D)) : List B :=
  (castWitnesses h).map fun w ↦ w.voterPath.leaf

def castOpenings (h : List (Ledger H × Call B D)) : List (Opening B) :=
  (castWitnesses h).map fun w ↦ (w.voterChoice, w.voteSalt)

theorem commitmentOf_injective (hH : H.CollisionFree) : Function.Injective (commitmentOf H) := by
  intro o o' h
  obtain ⟨hchoice, hsalt⟩ := hH.persistentCommitEnum_injective h
  exact Prod.ext (ordinal_injective hchoice) hsalt

/-- The ledger after the history `h`. -/
structure BallotBox (cfg : Sealed B) (h : List (Ledger H × Call B D)) (s : Ledger H) : Prop where
  counted : Counted (commitmentOf H) (castOpenings h) (revealOpenings h) s.ballotCommitments.leaves
    s.revealedCommitments s.tally
  issued : s.eligibleVoters.leaves = issuedCommitments h
  count : s.issuedVoters = s.eligibleVoters.leaves.length
  spent : Register (fun w : CastVoteWitness B D ↦ voteNullifier H cfg w.voterSecret)
    (castWitnesses h) s.spentNullifiers
  eligible : ∀ w ∈ castWitnesses h, w.voterPath.leaf = eligibilityCommitment H w.voterSecret ∧
    w.voterPath.leaf ∈ s.eligibleVoters.leaves

theorem initialState_ballotBox : BallotBox cfg [] (initialState H) where
  counted := Counted.empty _
  issued := rfl
  count := rfl
  spent := Register.empty _
  eligible _ hw := absurd hw List.not_mem_nil

theorem castWitnesses_concat_of_none (h : List (Ledger H × Call B D)) {e : Ledger H × Call B D}
    (he : e.2.castWitness = none) : castWitnesses (h ++ [e]) = castWitnesses h :=
  filterMap_concat_of_none h he

theorem issuedCommitments_concat_of_none (h : List (Ledger H × Call B D)) {e : Ledger H × Call B D}
    (he : e.2.issuedCommitment = none) : issuedCommitments (h ++ [e]) = issuedCommitments h :=
  filterMap_concat_of_none h he

theorem revealOpenings_concat_of_none (h : List (Ledger H × Call B D)) {e : Ledger H × Call B D}
    (he : e.2.revealOpening = none) : revealOpenings (h ++ [e]) = revealOpenings h :=
  filterMap_concat_of_none h he

/-- A reveal opens a commitment that an accepted vote has put into the tree. -/
theorem RevealGuards.mem_leaves [DecidableEq D] (hH : H.CollisionFree) {s : Ledger H}
    {choice : Choice} {salt : B} {path : Path B D 10} (hguards : RevealGuards s choice salt path) :
    commitmentOf H (choice, salt) ∈ s.ballotCommitments.leaves := by
  have hmem := HistoricTree.mem_leaves_of_checkRoot hH.tree_sound hguards.root
  rwa [hguards.leaf] at hmem

namespace BallotBox

variable {h : List (Ledger H × Call B D)} {s : Ledger H}

/-- Closing and finalizing keep the ballot box. -/
theorem frame (hbox : BallotBox cfg h s) {call : Call B D} (hissue : call.issuedCommitment = none)
    (hcast : call.castWitness = none) (hreveal : call.revealOpening = none) (phase : Phase)
    (closed : Bool) : BallotBox cfg (h ++ [(s, call)]) { s with phase, closed } := by
  constructor
  · rw [castOpenings, castWitnesses_concat_of_none h hcast, revealOpenings_concat_of_none h hreveal]
    exact hbox.counted
  · rw [issuedCommitments_concat_of_none h hissue]
    exact hbox.issued
  · exact hbox.count
  · rw [castWitnesses_concat_of_none h hcast]
    exact hbox.spent
  · rw [castWitnesses_concat_of_none h hcast]
    exact hbox.eligible

/-- An accepted `issue` adds its commitment to the eligible voters. -/
protected theorem issue [DecidableEq D] (hbox : BallotBox cfg h s) {commitment issuerSecret : B}
    {eligible : HistoricTree H.tree 10}
    (hinserted : s.eligibleVoters.insert? commitment = some eligible) :
    BallotBox cfg (h ++ [(s, .issue commitment issuerSecret)])
      { s with eligibleVoters := eligible, issuedVoters := s.issuedVoters + 1 } := by
  have hleaves := HistoricTree.leaves_insert? hinserted
  have hissued : issuedCommitments (h ++ [(s, .issue commitment issuerSecret)]) =
      issuedCommitments h ++ [commitment] := filterMap_concat _ h _
  constructor
  · rw [castOpenings, castWitnesses_concat_of_none h rfl, revealOpenings_concat_of_none h rfl]
    exact hbox.counted
  · rw [hissued, hleaves, hbox.issued]
  · rw [hleaves, hbox.count, List.length_append, List.length_singleton]
  · rw [castWitnesses_concat_of_none h rfl]
    exact hbox.spent
  · intro w hw
    rw [castWitnesses_concat_of_none h rfl] at hw
    rw [hleaves]
    exact (hbox.eligible w hw).imp_right fun hmem ↦ List.mem_append_left _ hmem

variable [DecidableEq B] [DecidableEq D]

/-- An accepted vote adds its ballot and spends its nullifier. -/
protected theorem castVote (hH : H.CollisionFree) (hbox : BallotBox cfg h s) {w : CastVoteWitness B D}
    {ballots : HistoricTree H.tree 10} (hguards : CastVoteGuards cfg s w)
    (hinserted : s.ballotCommitments.insert? (ballotCommitment H w.voterChoice w.voteSalt) =
      some ballots) :
    BallotBox cfg (h ++ [(s, .castVote w)]) { s with
      spentNullifiers := insert (voteNullifier H cfg w.voterSecret) s.spentNullifiers
      ballotCommitments := ballots } := by
  have hcasts : castWitnesses (h ++ [(s, .castVote w)]) = castWitnesses h ++ [w] :=
    filterMap_concat _ h _
  have hleaves : ballots.leaves = s.ballotCommitments.leaves ++
      [commitmentOf H (w.voterChoice, w.voteSalt)] := HistoricTree.leaves_insert? hinserted
  constructor
  · rw [castOpenings, hcasts, List.map_append, revealOpenings_concat_of_none h rfl, hleaves]
    exact hbox.counted.cast _
  · rw [issuedCommitments_concat_of_none h rfl]
    exact hbox.issued
  · exact hbox.count
  · rw [hcasts]
    exact hbox.spent.concat hguards.unspent
  · intro v hv
    rw [hcasts] at hv
    rcases List.mem_append.mp hv with hv | hv
    · exact hbox.eligible v hv
    · rw [List.mem_singleton.mp hv]
      exact ⟨hguards.leaf, HistoricTree.mem_leaves_of_checkRoot hH.tree_sound hguards.root⟩

/-- An accepted reveal marks its commitment and counts its choice. -/
protected theorem revealVote (hH : H.CollisionFree) (hbox : BallotBox cfg h s) {choice : Choice} {salt : B}
    {path : Path B D 10} {next : UInt32} (hguards : RevealGuards s choice salt path)
    (hnext : asUint32 ((s.tally choice).toNat + 1) = some next) :
    BallotBox cfg (h ++ [(s, .revealVote choice salt path)]) { s with
      revealedCommitments := insert (ballotCommitment H choice salt) s.revealedCommitments
      tally := Function.update s.tally choice next } := by
  have hreveals : revealOpenings (h ++ [(s, .revealVote choice salt path)]) =
      revealOpenings h ++ [(choice, salt)] := filterMap_concat _ h _
  constructor
  · rw [castOpenings, castWitnesses_concat_of_none h rfl, hreveals]
    exact hbox.counted.reveal (commitmentOf_injective hH) (hguards.mem_leaves hH) hguards.unrevealed
      hnext
  · rw [issuedCommitments_concat_of_none h rfl]
    exact hbox.issued
  · exact hbox.count
  · rw [castWitnesses_concat_of_none h rfl]
    exact hbox.spent
  · rw [castWitnesses_concat_of_none h rfl]
    exact hbox.eligible

end BallotBox

variable [DecidableEq B] [DecidableEq D]

theorem step_ballotBox (hH : H.CollisionFree) (h : List (Ledger H × Call B D)) (s : Ledger H)
    (call : Call B D) (s' : Ledger H) (hbox : BallotBox cfg h s)
    (hok : step H cfg s call = .ok s') : BallotBox cfg (h ++ [(s, call)]) s' := by
  cases effect_of_step hok with
  | issue _ _ hinserted => exact hbox.issue hinserted
  | castVote hguards hinserted => exact hbox.castVote hH hguards hinserted
  | closeVote _ _ => exact hbox.frame rfl rfl rfl .reveal true
  | revealVote hguards hnext => exact hbox.revealVote hH hguards hnext
  | finalizeVote _ _ => exact hbox.frame rfl rfl rfl .finalized s.closed

theorem run_ballotBox (hH : H.CollisionFree) (calls : List (Call B D)) :
    BallotBox cfg (history H cfg (initialState H) calls) (runCalls H cfg (initialState H) calls) :=
  run_history_unconditional (step_ballotBox hH) initialState_ballotBox calls

/-! ## Capacity -/

omit [DecidableEq B] [DecidableEq D] in
/-- The eligibility commitment determines the nullifier. -/
theorem nullifier_eq_of_commitment_eq (hH : H.CollisionFree) {secret secret' : B}
    (h : eligibilityCommitment H secret = eligibilityCommitment H secret') :
    voteNullifier H cfg secret = voteNullifier H cfg secret' := by
  have hpreimage := hH.persistentHash_injective h
  simp only [List.cons.injEq, true_and, and_true] at hpreimage
  rw [hpreimage]

namespace BallotBox

variable {h : List (Ledger H × Call B D)} {s : Ledger H}

omit [DecidableEq B] [DecidableEq D] in
theorem castCommitments_nodup (hH : H.CollisionFree) (hbox : BallotBox cfg h s) :
    (castCommitments h).Nodup := by
  apply hbox.spent.nodup_map
  intro v hv w hw hsame
  rw [(hbox.eligible v hv).1, (hbox.eligible w hw).1] at hsame
  exact nullifier_eq_of_commitment_eq hH hsame

omit [DecidableEq B] [DecidableEq D] in
theorem castCommitments_subset (hbox : BallotBox cfg h s) :
    castCommitments h ⊆ s.eligibleVoters.leaves := by
  intro x hx
  obtain ⟨w, hw, rfl⟩ := List.mem_map.mp hx
  exact (hbox.eligible w hw).2

omit [DecidableEq B] [DecidableEq D] in
theorem leaves_length (hbox : BallotBox cfg h s) :
    s.ballotCommitments.leaves.length = s.spentNullifiers.card := by
  rw [hbox.spent.card_eq, hbox.counted.leaves_eq, List.length_map, castOpenings, List.length_map]

omit [DecidableEq D] in
/-- The votes prove distinct issued commitments, so there are at most as many. -/
theorem spent_le (hH : H.CollisionFree) (hbox : BallotBox cfg h s) :
    s.spentNullifiers.card ≤ (issuedCommitments h).toFinset.card := by
  have hsubset : (castCommitments h).toFinset ⊆ (issuedCommitments h).toFinset := by
    intro x hx
    rw [List.mem_toFinset, ← hbox.issued]
    exact hbox.castCommitments_subset (List.mem_toFinset.mp hx)
  calc
    s.spentNullifiers.card = (castCommitments h).length := by
      rw [hbox.spent.card_eq, castCommitments, List.length_map]
    _ = (castCommitments h).toFinset.card :=
      (List.toFinset_card_of_nodup (hbox.castCommitments_nodup hH)).symm
    _ ≤ (issuedCommitments h).toFinset.card := Finset.card_le_card hsubset

omit [DecidableEq B] in
/-- A vote that passes the assertions proves an issued commitment that no earlier vote has proved, so
the ballot tree has a free position. -/
theorem room (hH : H.CollisionFree) (hbox : BallotBox cfg h s) {w : CastVoteWitness B D}
    (hguards : CastVoteGuards cfg s w) : s.ballotCommitments.leaves.length < 2 ^ 10 := by
  have hfresh : w.voterPath.leaf ∉ castCommitments h := by
    intro hmem
    obtain ⟨v, hv, hsame⟩ := List.mem_map.mp hmem
    rw [(hbox.eligible v hv).1, hguards.leaf] at hsame
    apply hguards.unspent
    rw [← nullifier_eq_of_commitment_eq hH hsame]
    exact (hbox.spent.mem_iff _).mpr (List.mem_map_of_mem hv)
  have hnodup : (w.voterPath.leaf :: castCommitments h).Nodup :=
    List.nodup_cons.mpr ⟨hfresh, hbox.castCommitments_nodup hH⟩
  have heligible : w.voterPath.leaf ∈ s.eligibleVoters.leaves :=
    HistoricTree.mem_leaves_of_checkRoot hH.tree_sound hguards.root
  have hsubset : w.voterPath.leaf :: castCommitments h ⊆ s.eligibleVoters.leaves :=
    List.cons_subset.mpr ⟨heligible, hbox.castCommitments_subset⟩
  have hlength := (List.subperm_of_subset hnodup hsubset).length_le
  have hcapacity := s.eligibleVoters.length_le
  have hvotes : (castCommitments h).length = s.ballotCommitments.leaves.length := by
    rw [hbox.leaves_length, hbox.spent.card_eq, castCommitments, List.length_map]
  rw [List.length_cons] at hlength
  omega

theorem castVote_ne_treeFull (hH : H.CollisionFree) (hbox : BallotBox cfg h s)
    (w : CastVoteWitness B D) (t : Ledger H) : (castVote H cfg w).run s ≠ .error treeFull t := by
  have hassertion {message : String} (hne : message ≠ treeFull) :
      (EStateM.Result.error message s : EStateM.Result String (Ledger H) Unit) ≠ .error treeFull t := by
    intro heq
    injection heq with hmessage
    exact hne hmessage
  simp only [castVote, run_get_bind, run_assert_bind]
  split_ifs with hphase hleaf hroot hspent
  · exact hassertion (by decide)
  · have hroom := hbox.room hH ⟨hphase, hleaf, hroot, hspent⟩
    obtain ⟨ballots, hballots⟩ := HistoricTree.exists_insert?
      (x := ballotCommitment H w.voterChoice w.voteSalt) hroom
    rw [run_modify_bind, run_ofOption_bind hballots, run_modify]
    intro heq
    cases heq
  · exact hassertion (by decide)
  · exact hassertion (by decide)
  · exact hassertion (by decide)

end BallotBox

/-- The counts of the ledger after a run, and why `castVote` never meets a full tree. -/
structure Conserved (cfg : Sealed B) (h : List (Ledger H × Call B D)) (s : Ledger H) : Prop where
  total_eq : tallyTotal s.tally = s.revealedCommitments.card
  revealed_le : s.revealedCommitments.card ≤ s.ballotCommitments.leaves.length
  leaves_eq : s.ballotCommitments.leaves.length = s.spentNullifiers.card
  spent_le : s.spentNullifiers.card ≤ (issuedCommitments h).toFinset.card
  distinct_le : (issuedCommitments h).toFinset.card ≤ s.issuedVoters
  capacity : s.issuedVoters ≤ 2 ^ 10
  one_vote_each : (castCommitments h).Nodup
  insert_fits : ∀ w, CastVoteGuards cfg s w → ∃ s', step H cfg s (.castVote w) = .ok s'
  never_full : ∀ w t, (castVote H cfg w).run s ≠ .error treeFull t

theorem referendum_conserved (hH : H.CollisionFree) (cfg : Sealed B) (calls : List (Call B D)) :
    Conserved cfg (history H cfg (initialState H) calls) (runCalls H cfg (initialState H) calls) := by
  have hbox : BallotBox cfg (history H cfg (initialState H) calls)
      (runCalls H cfg (initialState H) calls) := run_ballotBox hH calls
  exact {
    total_eq := hbox.counted.tallyTotal_eq
    revealed_le := hbox.counted.card_revealed_le
    leaves_eq := hbox.leaves_length
    spent_le := hbox.spent_le hH
    distinct_le := by
      rw [hbox.count, hbox.issued]
      exact List.toFinset_card_le _
    capacity := by
      rw [hbox.count]
      exact (runCalls H cfg (initialState H) calls).eligibleVoters.length_le
    one_vote_each := hbox.castCommitments_nodup hH
    insert_fits := by
      intro w hguards
      obtain ⟨ballots, hballots⟩ := HistoricTree.exists_insert?
        (x := ballotCommitment H w.voterChoice w.voteSalt) (hbox.room hH hguards)
      exact ⟨_, castVote_ok.mpr ⟨hguards, ballots, hballots, rfl⟩⟩
    never_full := hbox.castVote_ne_treeFull hH }

/-! ## A concrete referendum -/

/-- The issuer secret is the number one and the organizer secret is the number two. -/
def sampleSealed : Sealed Term := contractConstructor symbolic (.uint 1) (.uint 2) (.uint 5)

def sampleEligible : List Term :=
  [eligibilityCommitment symbolic (.uint 100), eligibilityCommitment symbolic (.uint 101)]

/-- The vote of the holder of a secret. -/
def sampleVote (secret : ℕ) (choice : Choice) (salt : ℕ) : Call Term Digest :=
  .castVote
    { voterSecret := .uint secret
      voterPath := symbolicPath 10 sampleEligible (eligibilityCommitment symbolic (.uint secret))
      voterChoice := choice
      voteSalt := .uint salt }

/-- Two voters are made eligible, the first one votes twice, and the ballot is revealed. -/
def sampleCalls : List (Call Term Digest) :=
  sampleEligible.map (fun c ↦ .issue c (.uint 1)) ++
    [sampleVote 100 .yes 50, sampleVote 100 .no 51, .closeVote (.uint 2),
      .revealVote .yes (.uint 50) (symbolicPath 10 [commitmentOf symbolic (.yes, .uint 50)]
        (commitmentOf symbolic (.yes, .uint 50)))]

theorem referendum_conserved_sample :
    Conserved sampleSealed (history symbolic sampleSealed (initialState symbolic) sampleCalls)
        (runCalls symbolic sampleSealed (initialState symbolic) sampleCalls) ∧
      (runCalls symbolic sampleSealed (initialState symbolic) sampleCalls).issuedVoters = 2 ∧
      tallyTotal (runCalls symbolic sampleSealed (initialState symbolic) sampleCalls).tally = 1 :=
  ⟨referendum_conserved symbolic_collisionFree sampleSealed sampleCalls, by decide +kernel,
    by decide +kernel⟩

end MidnightReferendum.Referendum
