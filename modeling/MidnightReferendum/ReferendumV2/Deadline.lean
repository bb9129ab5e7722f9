import MidnightReferendum.ReferendumV2.Schedule

/-!
# The reveal deadline

`finalizeVote` waits for the reveal deadline, but `revealVote` does not look at the clock. Between the
deadline and the first `finalizeVote` a ballot can still be revealed, and the tally that is finalized
depends on who calls first. The count ends at the deadline exactly in the runs without such a reveal.
-/

namespace MidnightReferendum.ReferendumV2

open MidnightReferendum.Compact Execution Merkle

variable {B D : Type} {H : Hashing B D} {cfg : Sealed B D} [DecidableEq B] [DecidableEq D]

/-- A reveal that passes the checks of `revealVote` after the reveal deadline. -/
def LateReveal (H : Hashing B D) (cfg : Sealed B D) (s : Ledger H) (tx : Tx B D) : Prop :=
  cfg.revealClosesAtUnix ≤ tx.blockTime ∧
    ∃ choice salt path, tx.call = .revealVote choice salt path ∧ RevealGuards cfg s choice salt path

/-- No transaction of the run changes the tally after the reveal deadline. -/
def TallyFixed (H : Hashing B D) (cfg : Sealed B D) (s₀ : Ledger H) (txs : List (Tx B D)) : Prop :=
  ∀ e ∈ trace (step H cfg) s₀ txs, cfg.revealClosesAtUnix ≤ e.2.blockTime →
    (apply (step H cfg) e.1 e.2).tally = e.1.tally

/-- Two runs share the transactions `pre` and go on with `post₁` and `post₂`: neither changes the
tally after the deadline, and if both are finalized they are finalized with the same tally. -/
structure DeadlineEndsCount (H : Hashing B D) (cfg : Sealed B D) (s₀ : Ledger H)
    (pre post₁ post₂ : List (Tx B D)) : Prop where
  fixed₁ : TallyFixed H cfg s₀ (pre ++ post₁)
  fixed₂ : TallyFixed H cfg s₀ (pre ++ post₂)
  agree : (runTxs H cfg s₀ (pre ++ post₁)).phase = .finalized →
    (runTxs H cfg s₀ (pre ++ post₂)).phase = .finalized →
    (runTxs H cfg s₀ (pre ++ post₁)).tally = (runTxs H cfg s₀ (pre ++ post₂)).tally

/-- Only an accepted reveal changes the tally. -/
theorem tally_of_step {s s' : Ledger H} {tx : Tx B D} (h : step H cfg s tx = .ok s') :
    s'.tally = s.tally ∨
      ∃ choice salt path, tx.call = .revealVote choice salt path ∧ RevealGuards cfg s choice salt path := by
  cases effect_of_step h with
  | revealVote hguards _ => exact Or.inr ⟨_, _, _, rfl, hguards⟩
  | _ => exact Or.inl rfl

theorem tally_apply_of_not_late {s : Ledger H} {tx : Tx B D}
    (htime : cfg.revealClosesAtUnix ≤ tx.blockTime) (hlate : ¬ LateReveal H cfg s tx) :
    (apply (step H cfg) s tx).tally = s.tally := by
  cases hok : step H cfg s tx with
  | ok s' =>
    rw [apply_of_ok hok]
    rcases tally_of_step hok with hsame | hreveal
    · exact hsame
    · exact absurd ⟨htime, hreveal⟩ hlate
  | error message => rw [apply_of_error hok]

/-- In a reachable state the increment of a reveal always fits, so a reveal that passes the checks
changes the tally. -/
theorem tally_apply_of_late {h : List (Ledger H × Tx B D)} {s : Ledger H} (hbox : BallotBox cfg h s)
    {tx : Tx B D} (hlate : LateReveal H cfg s tx) : (apply (step H cfg) s tx).tally ≠ s.tally := by
  obtain ⟨_, choice, salt, path, hcall, hguards⟩ := hlate
  obtain ⟨now, call⟩ := tx
  obtain rfl : call = .revealVote choice salt path := hcall
  have hnext := hbox.increment_fits choice
  rw [apply_of_ok (revealVote_ok.mpr ⟨hguards, _, hnext, rfl⟩)]
  intro heq
  have hchoice := congrArg UInt32.toNat (congrFun heq choice)
  simp only [Function.update_self] at hchoice
  rw [toNat_of_asUint32 hnext] at hchoice
  omega

theorem tallyFixed_iff (hH : H.CollisionFree) {s₀ : Ledger H} (h₀ : initialState H cfg = .ok s₀)
    (txs : List (Tx B D)) :
    TallyFixed H cfg s₀ txs ↔ ∀ e ∈ trace (step H cfg) s₀ txs, ¬ LateReveal H cfg e.1 e.2 := by
  constructor
  · intro hfixed e he hlate
    obtain ⟨pre, _, _, hstate⟩ := mem_trace.mp he
    have hbox := run_ballotBox hH h₀ pre
    rw [runTxs, ← hstate] at hbox
    exact tally_apply_of_late hbox hlate (hfixed e he hlate.1)
  · intro hlate e he htime
    exact tally_apply_of_not_late htime (hlate e he)

/-- A run after the deadline without late reveals keeps the tally. -/
theorem tally_run {s : Ledger H} {post : List (Tx B D)}
    (htimes : ∀ tx ∈ post, cfg.revealClosesAtUnix ≤ tx.blockTime)
    (hlate : ∀ e ∈ trace (step H cfg) s post, ¬ LateReveal H cfg e.1 e.2) :
    (runTxs H cfg s post).tally = s.tally := by
  apply run_history (I := fun _ t ↦ t.tally = s.tally)
    (P := fun e ↦ cfg.revealClosesAtUnix ≤ e.2.blockTime ∧ ¬ LateReveal H cfg e.1 e.2)
  · rintro _ t tx t' hsame ⟨htime, hnot⟩ hok
    have hkeep := tally_apply_of_not_late htime hnot
    rw [apply_of_ok hok] at hkeep
    exact hkeep.trans hsame
  · rfl
  · intro e he
    have htrace := (mem_accepted_iff.mp he).1
    exact ⟨htimes e.2 (snd_mem_of_mem_trace htrace), hlate e htrace⟩

theorem tally_run_append {s₀ : Ledger H} {pre post : List (Tx B D)}
    (htimes : ∀ tx ∈ post, cfg.revealClosesAtUnix ≤ tx.blockTime)
    (hlate : ∀ e ∈ trace (step H cfg) s₀ (pre ++ post), ¬ LateReveal H cfg e.1 e.2) :
    (runTxs H cfg s₀ (pre ++ post)).tally = (runTxs H cfg s₀ pre).tally := by
  rw [runTxs, run_append]
  exact tally_run htimes fun e he ↦ hlate e (mem_trace_append_right he)

theorem deadline_ends_count_iff (hH : H.CollisionFree) {s₀ : Ledger H}
    (h₀ : initialState H cfg = .ok s₀) {pre post₁ post₂ : List (Tx B D)}
    (htimes₁ : ∀ tx ∈ post₁, cfg.revealClosesAtUnix ≤ tx.blockTime)
    (htimes₂ : ∀ tx ∈ post₂, cfg.revealClosesAtUnix ≤ tx.blockTime) :
    DeadlineEndsCount H cfg s₀ pre post₁ post₂ ↔
      (∀ e ∈ trace (step H cfg) s₀ (pre ++ post₁), ¬ LateReveal H cfg e.1 e.2) ∧
        ∀ e ∈ trace (step H cfg) s₀ (pre ++ post₂), ¬ LateReveal H cfg e.1 e.2 := by
  constructor
  · intro hcount
    exact ⟨(tallyFixed_iff hH h₀ _).mp hcount.fixed₁, (tallyFixed_iff hH h₀ _).mp hcount.fixed₂⟩
  · rintro ⟨hlate₁, hlate₂⟩
    constructor
    · exact (tallyFixed_iff hH h₀ _).mpr hlate₁
    · exact (tallyFixed_iff hH h₀ _).mpr hlate₂
    · intro _ _
      calc
        (runTxs H cfg s₀ (pre ++ post₁)).tally = (runTxs H cfg s₀ pre).tally :=
          tally_run_append htimes₁ hlate₁
        _ = (runTxs H cfg s₀ (pre ++ post₂)).tally := (tally_run_append htimes₂ hlate₂).symm

/-! ## When the count is decided at the deadline -/

/-- After the deadline no ballot is added to the tree and no reveal is taken back. -/
theorem run_late_ballots (hcfg : ScheduleGuards cfg) {s : Ledger H} {post : List (Tx B D)}
    (htimes : ∀ tx ∈ post, cfg.revealClosesAtUnix ≤ tx.blockTime) :
    (runTxs H cfg s post).ballotCommitments = s.ballotCommitments ∧
      s.revealedCommitments ⊆ (runTxs H cfg s post).revealedCommitments := by
  apply run_history (I := fun _ (t : Ledger H) ↦ t.ballotCommitments = s.ballotCommitments ∧
    s.revealedCommitments ⊆ t.revealedCommitments)
    (P := fun e : Ledger H × Tx B D ↦ cfg.revealClosesAtUnix ≤ e.2.blockTime)
  · rintro _ t tx t' ⟨hballots, hrevealed⟩ htime hok
    cases effect_of_step hok with
    | castVote hguards _ =>
      have hlate := UInt64.lt_of_lt_of_le hcfg.reveal_window htime
      exact absurd (UInt64.lt_trans hlate hguards.open_still) (UInt64.lt_irrefl _)
    | revealVote _ _ => exact ⟨hballots, hrevealed.trans (Finset.subset_insert _ _)⟩
    | _ => exact ⟨hballots, hrevealed⟩
  · exact ⟨rfl, Finset.Subset.rfl⟩
  · exact fun e he ↦ htimes e.2 (snd_mem_of_mem_trace (mem_accepted_iff.mp he).1)

/-- Once every ballot of the tree is revealed, no later transaction is a late reveal. -/
theorem not_late_of_all_revealed (hH : H.CollisionFree) (hcfg : ScheduleGuards cfg) {s : Ledger H}
    (hall : ∀ x ∈ s.ballotCommitments.leaves, x ∈ s.revealedCommitments) {post : List (Tx B D)}
    (htimes : ∀ tx ∈ post, cfg.revealClosesAtUnix ≤ tx.blockTime) :
    ∀ e ∈ trace (step H cfg) s post, ¬ LateReveal H cfg e.1 e.2 := by
  intro e he hlate
  obtain ⟨mid, rest, hsplit, hstate⟩ := mem_trace.mp he
  have hbefore : ∀ tx ∈ mid, cfg.revealClosesAtUnix ≤ tx.blockTime :=
    fun tx htx ↦ htimes tx (hsplit ▸ List.mem_append_left _ htx)
  obtain ⟨hballots, hrevealed⟩ := run_late_ballots (H := H) (s := s) hcfg hbefore
  rw [runTxs, ← hstate] at hballots hrevealed
  obtain ⟨_, choice, salt, path, _, hguards⟩ := hlate
  have hmem := hguards.mem_leaves hH
  rw [hballots] at hmem
  exact hguards.unrevealed (hrevealed (hall _ hmem))

/-- `closeVote` after the deadline leads to the reveal phase, or finds it already there. -/
theorem reveal_phase_of_closeVote {s : Ledger H} (hs : PhaseConsistent s)
    (hopen : s.phase ≠ .finalized) {now : UInt64} (htime : cfg.closesAtUnix ≤ now) :
    let t := apply (step H cfg) s ⟨now, .closeVote⟩
    t.phase = .reveal ∧ t.closed = true ∧ t.ballotCommitments = s.ballotCommitments ∧
      t.revealedCommitments = s.revealedCommitments := by
  cases hphase : s.phase with
  | commit =>
    rw [apply_of_ok (closeVote_ok.mpr ⟨hphase, hs.closed_eq_false hphase, htime, rfl⟩)]
    exact ⟨rfl, rfl, rfl, rfl⟩
  | reveal =>
    have hclosed : s.closed = true := hs.mpr (by simp [hphase])
    cases hok : step H cfg s ⟨now, .closeVote⟩ with
    | ok s' => simp [(closeVote_ok.mp hok).1] at hphase
    | error message =>
      rw [apply_of_error hok]
      exact ⟨hphase, hclosed, rfl, rfl⟩
  | finalized => exact absurd hphase hopen

/-- All continuations after the deadline that finalize the referendum finalize the same tally. -/
def TallyDecided (H : Hashing B D) (cfg : Sealed B D) (s₀ : Ledger H) (pre : List (Tx B D)) : Prop :=
  ∀ post₁ post₂ : List (Tx B D), (∀ tx ∈ post₁, cfg.revealClosesAtUnix ≤ tx.blockTime) →
    (∀ tx ∈ post₂, cfg.revealClosesAtUnix ≤ tx.blockTime) →
    (runTxs H cfg s₀ (pre ++ post₁)).phase = .finalized →
    (runTxs H cfg s₀ (pre ++ post₂)).phase = .finalized →
    (runTxs H cfg s₀ (pre ++ post₁)).tally = (runTxs H cfg s₀ (pre ++ post₂)).tally

omit [DecidableEq B] in
/-- A ballot that is still hidden can be revealed after the deadline. -/
theorem exists_lateReveal (hH : H.CollisionFree) {h : List (Ledger H × Tx B D)} {s : Ledger H}
    (hbox : BallotBox cfg h s) (hphase : s.phase = .reveal) (hclosed : s.closed = true) {x : B}
    (hx : x ∈ s.ballotCommitments.leaves) (hhidden : x ∉ s.revealedCommitments) :
    ∃ choice salt path,
      LateReveal H cfg s ⟨cfg.revealClosesAtUnix, .revealVote choice salt path⟩ := by
  obtain ⟨path, hleaf, hroot⟩ := HistoricTree.exists_path_of_mem hH.tree_sound hx
  rw [hbox.counted.leaves_eq] at hx
  obtain ⟨o, _, rfl⟩ := List.mem_map.mp hx
  exact ⟨o.1, o.2, path, UInt64.le_refl _, o.1, o.2, path, rfl, hphase, hclosed, hleaf, hroot, hhidden⟩

variable (cfg) in
/-- `finalizeVote` at the deadline ends the reveal phase with the tally as it is. -/
theorem finalizeVote_at_deadline {s : Ledger H} (hs : PhaseConsistent s) (hne : s.phase ≠ .commit) :
    (apply (step H cfg) s ⟨cfg.revealClosesAtUnix, .finalizeVote⟩).phase = .finalized ∧
      (apply (step H cfg) s ⟨cfg.revealClosesAtUnix, .finalizeVote⟩).tally = s.tally := by
  constructor
  · exact finalizeVote_ends_reveal hs hne (UInt64.le_refl _)
  · apply tally_apply_of_not_late (UInt64.le_refl _)
    rintro ⟨_, choice, salt, path, hcall, _⟩
    cases hcall

/-- With a hidden ballot two continuations at the deadline finalize different tallies. -/
theorem exists_two_tallies (hH : H.CollisionFree) {h : List (Ledger H × Tx B D)} {s : Ledger H}
    (hbox : BallotBox cfg h s) (hs : PhaseConsistent s) (hphase : s.phase = .reveal)
    {x : B} (hx : x ∈ s.ballotCommitments.leaves) (hhidden : x ∉ s.revealedCommitments) :
    ∃ reveal : Tx B D, reveal.blockTime = cfg.revealClosesAtUnix ∧
      (runTxs H cfg s [⟨cfg.revealClosesAtUnix, .finalizeVote⟩]).phase = .finalized ∧
      (runTxs H cfg s [reveal, ⟨cfg.revealClosesAtUnix, .finalizeVote⟩]).phase = .finalized ∧
      (runTxs H cfg s [⟨cfg.revealClosesAtUnix, .finalizeVote⟩]).tally ≠
        (runTxs H cfg s [reveal, ⟨cfg.revealClosesAtUnix, .finalizeVote⟩]).tally := by
  have hne : s.phase ≠ .commit := by simp [hphase]
  obtain ⟨choice, salt, path, hlate⟩ := exists_lateReveal hH hbox hphase (hs.mpr hne) hx hhidden
  refine ⟨⟨cfg.revealClosesAtUnix, .revealVote choice salt path⟩, rfl, ?_⟩
  have hchange := tally_apply_of_late hbox hlate
  have hs' : PhaseConsistent (runTxs H cfg s [⟨cfg.revealClosesAtUnix, .revealVote choice salt path⟩]) :=
    run_phaseConsistent hs _
  have hne' : (runTxs H cfg s [⟨cfg.revealClosesAtUnix, .revealVote choice salt path⟩]).phase ≠
      .commit := run_phase_ne_commit hne _
  obtain ⟨hphase₁, htally₁⟩ := finalizeVote_at_deadline cfg hs hne
  obtain ⟨hphase₂, htally₂⟩ := finalizeVote_at_deadline cfg hs' hne'
  refine ⟨hphase₁, hphase₂, ?_⟩
  intro hsame
  apply hchange
  calc
    (apply (step H cfg) s ⟨cfg.revealClosesAtUnix, .revealVote choice salt path⟩).tally =
        (runTxs H cfg s [⟨cfg.revealClosesAtUnix, .revealVote choice salt path⟩,
          ⟨cfg.revealClosesAtUnix, .finalizeVote⟩]).tally := htally₂.symm
    _ = (runTxs H cfg s [⟨cfg.revealClosesAtUnix, .finalizeVote⟩]).tally := hsame.symm
    _ = s.tally := htally₁

/-- The finalized tally is decided at the deadline exactly when every ballot has been revealed. -/
theorem tallyDecided_iff (hH : H.CollisionFree) {s₀ : Ledger H} (h₀ : initialState H cfg = .ok s₀)
    {pre : List (Tx B D)} (hopen : (runTxs H cfg s₀ pre).phase ≠ .finalized) :
    TallyDecided H cfg s₀ pre ↔ ∀ x ∈ (runTxs H cfg s₀ pre).ballotCommitments.leaves,
      x ∈ (runTxs H cfg s₀ pre).revealedCommitments := by
  have hcfg := (initialState_ok.mp h₀).1
  constructor
  · intro hdecided x hx
    by_contra hhidden
    obtain ⟨hphase, _, hballots, hrevealed⟩ := reveal_phase_of_closeVote
      (runTxs_phaseConsistent h₀ pre) hopen (UInt64.le_of_lt hcfg.reveal_window)
    rw [← run_concat] at hphase hballots hrevealed
    rw [← hballots] at hx
    rw [← hrevealed] at hhidden
    obtain ⟨reveal, htime, hphase₁, hphase₂, hne⟩ := exists_two_tallies hH (run_ballotBox hH h₀ _)
      (runTxs_phaseConsistent h₀ _) hphase hx hhidden
    simp only [runTxs, ← run_append, List.append_assoc] at hphase₁ hphase₂ hne
    exact hne (hdecided _ _ (by simp) (by simp [htime]) hphase₁ hphase₂)
  · intro hall post₁ post₂ htimes₁ htimes₂ _ _
    rw [runTxs, runTxs, run_append, run_append]
    calc
      (run (step H cfg) (runTxs H cfg s₀ pre) post₁).tally = (runTxs H cfg s₀ pre).tally :=
        tally_run htimes₁ (not_late_of_all_revealed hH hcfg hall htimes₁)
      _ = (run (step H cfg) (runTxs H cfg s₀ pre) post₂).tally :=
        (tally_run htimes₂ (not_late_of_all_revealed hH hcfg hall htimes₂)).symm

/-- Two votes are cast and the vote is closed, but nothing is revealed before the deadline. -/
def sampleUnrevealedTxs : List (Tx Term Digest) :=
  [sampleVote 110 0 2 .yes 50, sampleVote 130 1 2 .no 51, ⟨300, .closeVote⟩]

theorem deadline_ends_count_iff_sample :
    (DeadlineEndsCount symbolic sampleSealed sampleInitial sampleUnrevealedTxs
        [⟨400, .finalizeVote⟩] [⟨410, .closeVote⟩, ⟨420, .finalizeVote⟩] ↔
      (∀ e ∈ trace (step symbolic sampleSealed) sampleInitial
          (sampleUnrevealedTxs ++ [⟨400, .finalizeVote⟩]), ¬ LateReveal symbolic sampleSealed e.1 e.2) ∧
        ∀ e ∈ trace (step symbolic sampleSealed) sampleInitial
          (sampleUnrevealedTxs ++ [⟨410, .closeVote⟩, ⟨420, .finalizeVote⟩]),
          ¬ LateReveal symbolic sampleSealed e.1 e.2) ∧
      (runTxs symbolic sampleSealed sampleInitial
        (sampleUnrevealedTxs ++ [⟨400, .finalizeVote⟩])).phase = .finalized :=
  ⟨deadline_ends_count_iff symbolic_collisionFree sampleInitial_ok (by decide) (by decide),
    by decide +kernel⟩

/-- Whoever finalizes at once counts no ballot, whoever reveals first counts one. -/
theorem deadline_does_not_end_count :
    initialState symbolic sampleSealed = .ok sampleInitial ∧
      Chronological (sampleUnrevealedTxs ++
        [sampleReveal 410 sampleOpenings (.yes, .uint 50), ⟨420, .finalizeVote⟩]) ∧
      ¬ DeadlineEndsCount symbolic sampleSealed sampleInitial sampleUnrevealedTxs
        [⟨400, .finalizeVote⟩]
        [sampleReveal 410 sampleOpenings (.yes, .uint 50), ⟨420, .finalizeVote⟩] := by
  refine ⟨sampleInitial_ok, by unfold Chronological; decide, ?_⟩
  intro hcount
  have htally := congrFun (hcount.agree (by decide +kernel) (by decide +kernel)) Choice.yes
  exact absurd htally (by decide +kernel)

end MidnightReferendum.ReferendumV2
