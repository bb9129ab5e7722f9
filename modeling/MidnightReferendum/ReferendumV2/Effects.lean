import MidnightReferendum.ReferendumV2.Contract

/-!
# What the referendum's circuits check and change

For each circuit the conditions under which a transaction is accepted, stated on the ledger before
the transaction and on its inputs, and the ledger that it leaves behind. Everything later in this
directory argues from these statements and not from the circuits.
-/

namespace MidnightReferendum.ReferendumV2

open MidnightReferendum.Compact Execution Merkle

variable {B D : Type} {H : Hashing B D} {cfg : Sealed B D}

/-! ## Acceptance conditions -/

/-- The schedule and the role keys that the constructor accepts. -/
structure ScheduleGuards (cfg : Sealed B D) : Prop where
  roles : cfg.organizerKey ≠ cfg.rootPublisherKey
  enrollment_after_opening : cfg.opensAtUnix ≤ cfg.enrollmentClosesAtUnix
  closing_after_enrollment : cfg.enrollmentClosesAtUnix ≤ cfg.closesAtUnix
  voting_window : cfg.opensAtUnix < cfg.closesAtUnix
  reveal_window : cfg.closesAtUnix < cfg.revealClosesAtUnix

/-- The checks of `castVote` on the prover's answers alone. -/
structure WitnessGuards (H : Hashing B D) (cfg : Sealed B D) (w : CastVoteWitness B D) : Prop where
  binding : holderBindingFromVoter H w = w.assertedHolderBinding
  leaf : w.voterPath.leaf = credentialLeaf H cfg w
  epoch : w.checkedClaimEpoch = cfg.credentialEpoch
  validity : cfg.validityReference ≤ w.checkedValidUntil
  country : cfg.countryPolicyEnabled = true → w.checkedCountry = cfg.countryPolicy
  adult : cfg.requireAdult = true → w.checkedAgeClass = 2
  assurance : 0 < cfg.minimumAssurance → cfg.minimumAssurance ≤ w.checkedAssurance

structure CastVoteGuards (cfg : Sealed B D) (s : Ledger H) (now : UInt64)
    (w : CastVoteWitness B D) : Prop where
  phase : s.phase = .commit
  closed : s.closed = false
  opened : cfg.opensAtUnix ≤ now
  open_still : now < cfg.closesAtUnix
  witness : WitnessGuards H cfg w
  root : pathRoot H.tree w.voterPath ∈ s.acceptedCredentialRoots
  unspent : voteNullifier H cfg w.nullifierVoterSecret ∉ s.spentVoteNullifiers
  room : s.ballotCommitments.leaves.length < 2 ^ 16

structure PublishGuards (cfg : Sealed B D) (s : Ledger H) (now : UInt64) (root : D)
    (secret : B) : Prop where
  publisher : IsRootPublisher H cfg secret
  phase : s.phase = .commit
  closed : s.closed = false
  enrollment_open : s.enrollmentClosed = false
  time : now < cfg.enrollmentClosesAtUnix
  fresh : root ∉ s.acceptedCredentialRoots
  unrevoked : root ∉ s.revokedCredentialRoots

structure RevealGuards (cfg : Sealed B D) (s : Ledger H) (choice : Choice) (salt : B)
    (path : Path B D 16) [DecidableEq D] : Prop where
  phase : s.phase = .reveal
  closed : s.closed = true
  leaf : path.leaf = ballotCommitment H cfg choice salt
  root : s.ballotCommitments.checkRoot (pathRoot H.tree path) = true
  unrevealed : ballotCommitment H cfg choice salt ∉ s.revealedCommitments

variable [DecidableEq B] [DecidableEq D]

structure RevokeGuards (cfg : Sealed B D) (s : Ledger H) (now : UInt64) (root : D)
    (secret : B) : Prop where
  organizer : IsOrganizer H cfg secret
  time : now < cfg.enrollmentClosesAtUnix
  accepted : root ∈ s.acceptedCredentialRoots
  others : s.acceptedCredentialRoots.erase root ≠ ∅

/-! ## Accepted transactions -/

theorem initialState_ok {s : Ledger H} :
    initialState H cfg = .ok s ↔ ScheduleGuards cfg ∧
      s = { defaultLedger H with acceptedCredentialRoots := {cfg.initialCredentialRoot} } := by
  have htally : Function.update (Function.update (Function.update (fun _ ↦ 0) Choice.yes 0)
      .no 0) .abstain 0 = fun _ ↦ (0 : UInt32) := by
    funext c
    cases c <;> rfl
  simp only [initialState, transact_eq_ok, contractConstructor, accepts_assert_bind,
    accepts_modify_bind, accepts_modify, defaultLedger, insert_empty_eq, htally]
  constructor
  · rintro ⟨hroles, henrollment, hclosing, hvoting, hreveal, rfl⟩
    exact ⟨⟨hroles, henrollment, hclosing, hvoting, hreveal⟩, rfl⟩
  · rintro ⟨⟨hroles, henrollment, hclosing, hvoting, hreveal⟩, rfl⟩
    exact ⟨hroles, henrollment, hclosing, hvoting, hreveal, rfl⟩

theorem castVote_ok {s s' : Ledger H} {now : UInt64} {w : CastVoteWitness B D} :
    step H cfg s ⟨now, .castVote w⟩ = .ok s' ↔ CastVoteGuards cfg s now w ∧
      ∃ ballots, s.ballotCommitments.insert? (ballotCommitment H cfg w.voterChoice w.voteSalt) =
          some ballots ∧
        s' = { s with
          spentVoteNullifiers :=
            insert (voteNullifier H cfg w.nullifierVoterSecret) s.spentVoteNullifiers
          ballotCommitments := ballots
          issuedVotes := s.issuedVotes + 1 } := by
  simp only [step, transact_eq_ok, circuit, castVote, accepts_get_bind, accepts_assert_bind,
    accepts_onlyIf_bind, accepts_ofOption_bind, accepts_modify_bind, accepts_modify,
    Bool.not_eq_true', blockTimeGte_eq_true, blockTimeLt_eq_true, decide_eq_true_eq,
    Tree.isFull_eq_false]
  constructor
  · rintro ⟨hphase, hclosed, hopened, hopen, hbinding, hleaf, hroot, hepoch, hvalidity, hcountry,
      hadult, hassurance, hunspent, hroom, ballots, hballots, rfl⟩
    exact ⟨⟨hphase, hclosed, hopened, hopen, ⟨hbinding, hleaf, hepoch, hvalidity, hcountry, hadult,
      hassurance⟩, hroot, hunspent, hroom⟩, ballots, hballots, rfl⟩
  · rintro ⟨⟨hphase, hclosed, hopened, hopen, ⟨hbinding, hleaf, hepoch, hvalidity, hcountry, hadult,
      hassurance⟩, hroot, hunspent, hroom⟩, ballots, hballots, rfl⟩
    exact ⟨hphase, hclosed, hopened, hopen, hbinding, hleaf, hroot, hepoch, hvalidity, hcountry,
      hadult, hassurance, hunspent, hroom, ballots, hballots, rfl⟩

theorem publishCredentialRoot_ok {s s' : Ledger H} {now : UInt64} {root : D} {secret : B} :
    step H cfg s ⟨now, .publishCredentialRoot root secret⟩ = .ok s' ↔
      PublishGuards cfg s now root secret ∧
        s' = { s with acceptedCredentialRoots := insert root s.acceptedCredentialRoots } := by
  simp only [step, transact_eq_ok, circuit, publishCredentialRoot, accepts_get_bind,
    accepts_assert_bind, accepts_modify, Bool.not_eq_true', blockTimeLt_eq_true]
  constructor
  · rintro ⟨hpublisher, hphase, hclosed, henrollment, htime, hfresh, hunrevoked, rfl⟩
    exact ⟨⟨hpublisher, hphase, hclosed, henrollment, htime, hfresh, hunrevoked⟩, rfl⟩
  · rintro ⟨⟨hpublisher, hphase, hclosed, henrollment, htime, hfresh, hunrevoked⟩, rfl⟩
    exact ⟨hpublisher, hphase, hclosed, henrollment, htime, hfresh, hunrevoked, rfl⟩

theorem revokeCredentialRoot_ok {s s' : Ledger H} {now : UInt64} {root : D} {secret : B} :
    step H cfg s ⟨now, .revokeCredentialRoot root secret⟩ = .ok s' ↔
      RevokeGuards cfg s now root secret ∧
        s' = { s with
          revokedCredentialRoots := insert root s.revokedCredentialRoots
          acceptedCredentialRoots := s.acceptedCredentialRoots.erase root } := by
  simp only [step, transact_eq_ok, circuit, revokeCredentialRoot, accepts_get_bind,
    accepts_assert_bind, accepts_modify_bind, accepts_pure, blockTimeLt_eq_true, true_and]
  constructor
  · rintro ⟨horganizer, htime, haccepted, hothers, rfl⟩
    exact ⟨⟨horganizer, htime, haccepted, hothers⟩, rfl⟩
  · rintro ⟨⟨horganizer, htime, haccepted, hothers⟩, rfl⟩
    exact ⟨horganizer, htime, haccepted, hothers, rfl⟩

theorem closeEnrollment_ok {s s' : Ledger H} {now : UInt64} {secret : B} :
    step H cfg s ⟨now, .closeEnrollment secret⟩ = .ok s' ↔
      IsOrganizer H cfg secret ∧ s.enrollmentClosed = false ∧
        s' = { s with enrollmentClosed := true } := by
  simp only [step, transact_eq_ok, circuit, closeEnrollment, accepts_get_bind,
    accepts_assert_bind, accepts_modify, Bool.not_eq_true', eq_comm (b := s')]

theorem closeVote_ok {s s' : Ledger H} {now : UInt64} :
    step H cfg s ⟨now, .closeVote⟩ = .ok s' ↔
      s.phase = .commit ∧ s.closed = false ∧ cfg.closesAtUnix ≤ now ∧
        s' = { s with phase := .reveal, closed := true } := by
  simp only [step, transact_eq_ok, circuit, closeVote, accepts_get_bind, accepts_assert_bind,
    accepts_modify_bind, accepts_modify, Bool.not_eq_true', blockTimeGte_eq_true, eq_comm (b := s')]

theorem revealVote_ok {s s' : Ledger H} {now : UInt64} {choice : Choice} {salt : B}
    {path : Path B D 16} :
    step H cfg s ⟨now, .revealVote choice salt path⟩ = .ok s' ↔
      RevealGuards cfg s choice salt path ∧
        ∃ next, asUint32 ((s.tally choice).toNat + 1) = some next ∧
          s' = { s with
            revealedCommitments :=
              insert (ballotCommitment H cfg choice salt) s.revealedCommitments
            tally := Function.update s.tally choice next } := by
  simp only [step, transact_eq_ok, circuit, revealVote, accepts_get_bind, accepts_assert_bind,
    accepts_ofOption_bind, accepts_modify_bind, accepts_modify]
  constructor
  · rintro ⟨hphase, hclosed, hleaf, hroot, hunrevealed, next, hnext, rfl⟩
    exact ⟨⟨hphase, hclosed, hleaf, hroot, hunrevealed⟩, next, hnext, rfl⟩
  · rintro ⟨⟨hphase, hclosed, hleaf, hroot, hunrevealed⟩, next, hnext, rfl⟩
    exact ⟨hphase, hclosed, hleaf, hroot, hunrevealed, next, hnext, rfl⟩

theorem finalizeVote_ok {s s' : Ledger H} {now : UInt64} :
    step H cfg s ⟨now, .finalizeVote⟩ = .ok s' ↔
      s.phase = .reveal ∧ s.closed = true ∧ cfg.revealClosesAtUnix ≤ now ∧
        s' = { s with phase := .finalized } := by
  simp only [step, transact_eq_ok, circuit, finalizeVote, accepts_get_bind, accepts_assert_bind,
    accepts_modify, blockTimeGte_eq_true, eq_comm (b := s')]

/-- All that an accepted transaction can do to the ledger, one case for each circuit. -/
inductive Effect (cfg : Sealed B D) (s : Ledger H) : Tx B D → Ledger H → Prop where
  | castVote {now : UInt64} {w : CastVoteWitness B D} {ballots : HistoricTree H.tree 16}
      (guards : CastVoteGuards cfg s now w)
      (inserted : s.ballotCommitments.insert? (ballotCommitment H cfg w.voterChoice w.voteSalt) =
        some ballots) :
      Effect cfg s ⟨now, .castVote w⟩ { s with
        spentVoteNullifiers :=
          insert (voteNullifier H cfg w.nullifierVoterSecret) s.spentVoteNullifiers
        ballotCommitments := ballots
        issuedVotes := s.issuedVotes + 1 }
  | publishCredentialRoot {now : UInt64} {root : D} {secret : B}
      (guards : PublishGuards cfg s now root secret) :
      Effect cfg s ⟨now, .publishCredentialRoot root secret⟩
        { s with acceptedCredentialRoots := insert root s.acceptedCredentialRoots }
  | revokeCredentialRoot {now : UInt64} {root : D} {secret : B}
      (guards : RevokeGuards cfg s now root secret) :
      Effect cfg s ⟨now, .revokeCredentialRoot root secret⟩ { s with
        revokedCredentialRoots := insert root s.revokedCredentialRoots
        acceptedCredentialRoots := s.acceptedCredentialRoots.erase root }
  | closeEnrollment {now : UInt64} {secret : B} (organizer : IsOrganizer H cfg secret)
      (enrollment_open : s.enrollmentClosed = false) :
      Effect cfg s ⟨now, .closeEnrollment secret⟩ { s with enrollmentClosed := true }
  | closeVote {now : UInt64} (phase : s.phase = .commit) (open_still : s.closed = false)
      (time : cfg.closesAtUnix ≤ now) :
      Effect cfg s ⟨now, .closeVote⟩ { s with phase := .reveal, closed := true }
  | revealVote {now : UInt64} {choice : Choice} {salt : B} {path : Path B D 16} {next : UInt32}
      (guards : RevealGuards cfg s choice salt path)
      (increment : asUint32 ((s.tally choice).toNat + 1) = some next) :
      Effect cfg s ⟨now, .revealVote choice salt path⟩ { s with
        revealedCommitments := insert (ballotCommitment H cfg choice salt) s.revealedCommitments
        tally := Function.update s.tally choice next }
  | finalizeVote {now : UInt64} (phase : s.phase = .reveal) (closed : s.closed = true)
      (time : cfg.revealClosesAtUnix ≤ now) :
      Effect cfg s ⟨now, .finalizeVote⟩ { s with phase := .finalized }

theorem effect_of_step {s s' : Ledger H} {tx : Tx B D} (h : step H cfg s tx = .ok s') :
    Effect cfg s tx s' := by
  obtain ⟨now, call⟩ := tx
  cases call with
  | castVote w =>
    obtain ⟨hguards, ballots, hballots, rfl⟩ := castVote_ok.mp h
    exact .castVote hguards hballots
  | publishCredentialRoot root secret =>
    obtain ⟨hguards, rfl⟩ := publishCredentialRoot_ok.mp h
    exact .publishCredentialRoot hguards
  | revokeCredentialRoot root secret =>
    obtain ⟨hguards, rfl⟩ := revokeCredentialRoot_ok.mp h
    exact .revokeCredentialRoot hguards
  | closeEnrollment secret =>
    obtain ⟨horganizer, hopen, rfl⟩ := closeEnrollment_ok.mp h
    exact .closeEnrollment horganizer hopen
  | closeVote =>
    obtain ⟨hphase, hopen, htime, rfl⟩ := closeVote_ok.mp h
    exact .closeVote hphase hopen htime
  | revealVote choice salt path =>
    obtain ⟨hguards, next, hnext, rfl⟩ := revealVote_ok.mp h
    exact .revealVote hguards hnext
  | finalizeVote =>
    obtain ⟨hphase, hclosed, htime, rfl⟩ := finalizeVote_ok.mp h
    exact .finalizeVote hphase hclosed htime

end MidnightReferendum.ReferendumV2
