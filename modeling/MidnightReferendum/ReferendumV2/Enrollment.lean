import MidnightReferendum.ReferendumV2.Roots
import MidnightReferendum.ReferendumV2.Schedule

/-!
# The electorate after enrollment

Enrollment ends by the organizer's `closeEnrollment` or by the clock. `publishCredentialRoot` looks at
both, `revokeCredentialRoot` at the clock only. So the accepted roots are frozen from the end of
enrollment on exactly when nobody uses the gap between the flag and the deadline.
-/

namespace MidnightReferendum.ReferendumV2

open MidnightReferendum.Compact Execution Merkle

variable {B D : Type} {H : Hashing B D} {cfg : Sealed B D}

/-- Enrollment has ended, by the organizer's flag or by the published deadline. -/
def EnrollmentOver (cfg : Sealed B D) (s : Ledger H) (now : UInt64) : Prop :=
  s.enrollmentClosed = true ∨ cfg.enrollmentClosesAtUnix ≤ now

/-- The organizer names one of several accepted roots for revocation between `closeEnrollment` and
the enrollment deadline. -/
def LateRevocation (H : Hashing B D) (cfg : Sealed B D) (s : Ledger H) (tx : Tx B D) : Prop :=
  ∃ root secret, tx.call = .revokeCredentialRoot root secret ∧ IsOrganizer H cfg secret ∧
    s.enrollmentClosed = true ∧ tx.blockTime < cfg.enrollmentClosesAtUnix ∧
    root ∈ s.acceptedCredentialRoots ∧ ∃ other ∈ s.acceptedCredentialRoots, other ≠ root

theorem EnrollmentOver.mono {s : Ledger H} {now later : UInt64} (h : EnrollmentOver cfg s now)
    (hle : now ≤ later) : EnrollmentOver cfg s later :=
  h.imp_right fun htime ↦ UInt64.le_trans htime hle

variable [DecidableEq B] [DecidableEq D]

/-- The electorate after the transactions `pre` stays frozen while `rest` is submitted. -/
structure ElectorateFrozen (H : Hashing B D) (cfg : Sealed B D) (s₀ : Ledger H)
    (pre rest : List (Tx B D)) : Prop where
  unchanged : ∀ mid, mid <+: rest → (runTxs H cfg s₀ (pre ++ mid)).acceptedCredentialRoots =
    (runTxs H cfg s₀ pre).acceptedCredentialRoots
  no_publish : ∀ e ∈ history H cfg (runTxs H cfg s₀ pre) rest, ∀ root secret,
    e.2.call ≠ .publishCredentialRoot root secret
  no_revoke : ∀ e ∈ history H cfg (runTxs H cfg s₀ pre) rest, ∀ root secret,
    e.2.call ≠ .revokeCredentialRoot root secret
  can_vote : ∀ mid, mid <+: rest → ∀ now w, (∀ tx ∈ pre ++ mid, tx.blockTime ≤ now) →
    cfg.opensAtUnix ≤ now → now < cfg.closesAtUnix → WitnessGuards H cfg w →
    pathRoot H.tree w.voterPath ∈ (runTxs H cfg s₀ pre).acceptedCredentialRoots →
    voteNullifier H cfg w.nullifierVoterSecret ∉ (runTxs H cfg s₀ (pre ++ mid)).spentVoteNullifiers →
    (runTxs H cfg s₀ (pre ++ mid)).ballotCommitments.leaves.length < 2 ^ 16 →
    ∃ s', step H cfg (runTxs H cfg s₀ (pre ++ mid)) ⟨now, .castVote w⟩ = .ok s'

theorem step_enrollmentOver {s s' : Ledger H} {tx : Tx B D} {now : UInt64}
    (hs : EnrollmentOver cfg s now) (h : step H cfg s tx = .ok s') : EnrollmentOver cfg s' now := by
  apply hs.imp_left
  intro hclosed
  rcases enrollmentClosed_of_step h with ⟨_, hclosed'⟩ | ⟨_, hsame⟩
  · exact hclosed'
  · rw [hsame, hclosed]

/-- No publication is accepted after enrollment. -/
theorem not_publish_of_over {s s' : Ledger H} {tx : Tx B D} (hs : EnrollmentOver cfg s tx.blockTime)
    (h : step H cfg s tx = .ok s') (root : D) (secret : B) :
    tx.call ≠ .publishCredentialRoot root secret := by
  intro hcall
  obtain ⟨now, call⟩ := tx
  obtain rfl : call = .publishCredentialRoot root secret := hcall
  have hguards := (publishCredentialRoot_ok.mp h).1
  rcases hs with hclosed | htime
  · rw [hguards.enrollment_open] at hclosed
    cases hclosed
  · exact UInt64.not_le.mpr hguards.time htime

/-- A revocation is accepted after enrollment only in the gap between the flag and the deadline. -/
theorem not_revoke_of_over {s s' : Ledger H} {tx : Tx B D} (hs : EnrollmentOver cfg s tx.blockTime)
    (hlate : ¬ LateRevocation H cfg s tx) (h : step H cfg s tx = .ok s') (root : D) (secret : B) :
    tx.call ≠ .revokeCredentialRoot root secret := by
  intro hcall
  obtain ⟨now, call⟩ := tx
  obtain rfl : call = .revokeCredentialRoot root secret := hcall
  have hguards := (revokeCredentialRoot_ok.mp h).1
  rcases hs with hclosed | htime
  · obtain ⟨other, hother⟩ := Finset.nonempty_iff_ne_empty.mpr hguards.others
    obtain ⟨hne, hmem⟩ := Finset.mem_erase.mp hother
    exact hlate ⟨root, secret, rfl, hguards.organizer, hclosed, hguards.time, hguards.accepted,
      other, hmem, hne⟩
  · exact UInt64.not_le.mpr hguards.time htime

theorem acceptedRoots_of_over {s s' : Ledger H} {tx : Tx B D}
    (hs : EnrollmentOver cfg s tx.blockTime) (hlate : ¬ LateRevocation H cfg s tx)
    (h : step H cfg s tx = .ok s') : s'.acceptedCredentialRoots = s.acceptedCredentialRoots := by
  cases rootMove_of_step h with
  | stay haccepted _ => exact haccepted
  | publish root secret hcall _ _ _ => exact absurd hcall (not_publish_of_over hs h root secret)
  | revoke root secret hcall _ _ _ => exact absurd hcall (not_revoke_of_over hs hlate h root secret)

/-- Without late revocations a run keeps the accepted roots. -/
theorem run_frozen {s : Ledger H} {now : UInt64} (hs : EnrollmentOver cfg s now)
    {rest : List (Tx B D)} (htimes : ∀ tx ∈ rest, now ≤ tx.blockTime)
    (hlate : ∀ e ∈ trace (step H cfg) s rest, ¬ LateRevocation H cfg e.1 e.2) :
    (runTxs H cfg s rest).acceptedCredentialRoots = s.acceptedCredentialRoots ∧
      EnrollmentOver cfg (runTxs H cfg s rest) now := by
  apply run_history (I := fun _ t ↦
    t.acceptedCredentialRoots = s.acceptedCredentialRoots ∧ EnrollmentOver cfg t now)
    (P := fun e ↦ now ≤ e.2.blockTime ∧ ¬ LateRevocation H cfg e.1 e.2)
  · rintro _ t tx t' ⟨hroots, hover⟩ ⟨htime, hnot⟩ hok
    have hkeep := acceptedRoots_of_over (hover.mono htime) hnot hok
    exact ⟨hkeep.trans hroots, step_enrollmentOver hover hok⟩
  · exact ⟨rfl, hs⟩
  · intro e he
    have htrace := (mem_accepted_iff.mp he).1
    exact ⟨htimes e.2 (snd_mem_of_mem_trace htrace), hlate e htrace⟩

/-- Before the voting deadline the run is still in the commit phase. -/
theorem commit_of_times {s₀ : Ledger H} (h₀ : initialState H cfg = .ok s₀) {txs : List (Tx B D)}
    {now : UInt64} (htimes : ∀ tx ∈ txs, tx.blockTime ≤ now) (hopen : now < cfg.closesAtUnix) :
    (runTxs H cfg s₀ txs).phase = .commit ∧ (runTxs H cfg s₀ txs).closed = false := by
  have hphase : (runTxs H cfg s₀ txs).phase = .commit := by
    by_contra hne
    obtain ⟨tx, hmem, htime⟩ := exists_closing (initialState_phase h₀) txs hne
    exact UInt64.not_le.mpr hopen (UInt64.le_trans htime (htimes tx hmem))
  exact ⟨hphase, (runTxs_phaseConsistent h₀ txs).closed_eq_false hphase⟩

/-- A late revocation is accepted. -/
theorem revoke_of_lateRevocation {s : Ledger H} {tx : Tx B D} (h : LateRevocation H cfg s tx) :
    ∃ root secret s', tx.call = .revokeCredentialRoot root secret ∧ step H cfg s tx = .ok s' := by
  obtain ⟨root, secret, hcall, horganizer, _, htime, hroot, other, hother, hne⟩ := h
  obtain ⟨now, call⟩ := tx
  obtain rfl : call = .revokeCredentialRoot root secret := hcall
  have hothers : s.acceptedCredentialRoots.erase root ≠ ∅ :=
    Finset.nonempty_iff_ne_empty.mp ⟨other, Finset.mem_erase.mpr ⟨hne, hother⟩⟩
  exact ⟨root, secret, _, rfl,
    revokeCredentialRoot_ok.mpr ⟨⟨horganizer, htime, hroot, hothers⟩, rfl⟩⟩

theorem electorate_frozen_iff {s₀ : Ledger H} (h₀ : initialState H cfg = .ok s₀)
    {pre rest : List (Tx B D)} {now : UInt64} (hover : EnrollmentOver cfg (runTxs H cfg s₀ pre) now)
    (htimes : ∀ tx ∈ rest, now ≤ tx.blockTime) :
    ElectorateFrozen H cfg s₀ pre rest ↔
      ∀ e ∈ trace (step H cfg) (runTxs H cfg s₀ pre) rest, ¬ LateRevocation H cfg e.1 e.2 := by
  constructor
  · intro hfrozen e he hlate
    obtain ⟨root, secret, s', hcall, hok⟩ := revoke_of_lateRevocation hlate
    exact hfrozen.no_revoke e (mem_accepted_iff.mpr ⟨he, s', hok⟩) root secret hcall
  · intro hlate
    have hinit : ∀ mid, mid <+: rest →
        (runTxs H cfg s₀ (pre ++ mid)).acceptedCredentialRoots =
          (runTxs H cfg s₀ pre).acceptedCredentialRoots ∧
        EnrollmentOver cfg (runTxs H cfg s₀ (pre ++ mid)) now := by
      rintro mid ⟨post, rfl⟩
      rw [runTxs, run_append]
      exact run_frozen hover (fun tx htx ↦ htimes tx (List.mem_append_left _ htx))
        fun e he ↦ hlate e (mem_trace_append_left he)
    have hover' : ∀ e ∈ history H cfg (runTxs H cfg s₀ pre) rest,
        EnrollmentOver cfg e.1 e.2.blockTime := by
      intro e he
      obtain ⟨mid, post, _, hsplit, hstate, _⟩ := mem_accepted he
      have hmid := (hinit mid ⟨_, hsplit.symm⟩).2
      rw [runTxs, run_append, ← hstate] at hmid
      exact hmid.mono (htimes e.2 (snd_mem_of_mem_trace (mem_accepted_iff.mp he).1))
    exact {
      unchanged := fun mid hmid ↦ (hinit mid hmid).1
      no_publish := by
        intro e he
        obtain ⟨_, s', hok⟩ := mem_accepted_iff.mp he
        exact not_publish_of_over (hover' e he) hok
      no_revoke := by
        intro e he
        obtain ⟨htrace, s', hok⟩ := mem_accepted_iff.mp he
        exact not_revoke_of_over (hover' e he) (hlate e htrace) hok
      can_vote := by
        intro mid hmid t w hbefore hopened hopen hwitness hroot hunspent hroom
        obtain ⟨hphase, hclosed⟩ := commit_of_times h₀ hbefore hopen
        obtain ⟨ballots, hballots⟩ := HistoricTree.exists_insert?
          (x := ballotCommitment H cfg w.voterChoice w.voteSalt) hroom
        rw [← (hinit mid hmid).1] at hroot
        exact ⟨_, castVote_ok.mpr ⟨⟨hphase, hclosed, hopened, hopen, hwitness, hroot, hunspent, hroom⟩,
          ballots, hballots, rfl⟩⟩ }

/-- The publisher admits a third voter and the organizer closes enrollment early. -/
def sampleEnrollmentTxs : List (Tx Term Digest) :=
  [⟨110, .publishCredentialRoot (sampleRoot 3) (.uint 2)⟩, ⟨120, .closeEnrollment (.uint 1)⟩]

theorem electorate_frozen_iff_sample :
    (ElectorateFrozen symbolic sampleSealed sampleInitial sampleEnrollmentTxs [sampleVote 130 2 3 .yes 50]
      ↔ ∀ e ∈ trace (step symbolic sampleSealed)
          (runTxs symbolic sampleSealed sampleInitial sampleEnrollmentTxs)
          [sampleVote 130 2 3 .yes 50], ¬ LateRevocation symbolic sampleSealed e.1 e.2) ∧
      (runTxs symbolic sampleSealed sampleInitial
        (sampleEnrollmentTxs ++ [sampleVote 130 2 3 .yes 50])).issuedVotes = 1 :=
  have hover : EnrollmentOver sampleSealed
      (runTxs symbolic sampleSealed sampleInitial sampleEnrollmentTxs) 120 := Or.inl (by decide +kernel)
  ⟨electorate_frozen_iff sampleInitial_ok hover (by decide), by decide +kernel⟩

/-- After `closeEnrollment` the organizer removes the third voter, who can no longer vote. -/
theorem electorate_not_frozen :
    initialState symbolic sampleSealed = .ok sampleInitial ∧
      (runTxs symbolic sampleSealed sampleInitial sampleEnrollmentTxs).enrollmentClosed = true ∧
      ¬ ElectorateFrozen symbolic sampleSealed sampleInitial sampleEnrollmentTxs
        [⟨125, .revokeCredentialRoot (sampleRoot 3) (.uint 1)⟩] ∧
      (runTxs symbolic sampleSealed sampleInitial (sampleEnrollmentTxs ++
        [⟨125, .revokeCredentialRoot (sampleRoot 3) (.uint 1)⟩,
          sampleVote 130 2 3 .yes 50])).issuedVotes = 0 := by
  refine ⟨sampleInitial_ok, by decide +kernel, ?_, by decide +kernel⟩
  intro hfrozen
  have hsame := hfrozen.unchanged _ List.prefix_rfl
  exact absurd hsame (by decide +kernel)

end MidnightReferendum.ReferendumV2
