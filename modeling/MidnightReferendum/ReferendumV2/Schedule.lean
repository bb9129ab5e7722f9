import MidnightReferendum.ReferendumV2.Conservation

/-!
# The phases and the published schedule

The phase and the redundant `closed` flag move together, and only `closeVote` and `finalizeVote` move
them, each behind its block-time gate. Neither circuit asks for a secret, so nobody can keep a
referendum from being finalized once the reveal deadline has passed.
-/

namespace MidnightReferendum.ReferendumV2

open MidnightReferendum.Compact Execution Merkle

variable {B D : Type} {H : Hashing B D} {cfg : Sealed B D}

/-- Block times never decrease. -/
def Chronological (txs : List (Tx B D)) : Prop :=
  txs.Pairwise fun a b ↦ a.blockTime ≤ b.blockTime

def Tx.IsCastVote (tx : Tx B D) : Prop := ∃ w, tx.call = .castVote w

def Tx.IsRevealVote (tx : Tx B D) : Prop := ∃ choice salt path, tx.call = .revealVote choice salt path

/-- What an accepted transaction may do to the phase and to the closed flag. -/
inductive PhaseMove (cfg : Sealed B D) (s : Ledger H) (tx : Tx B D) (s' : Ledger H) : Prop where
  | stay (phase_eq : s'.phase = s.phase) (closed_eq : s'.closed = s.closed)
  | close (before : s.phase = .commit) (after : s'.phase = .reveal) (closed : s'.closed = true)
      (time : cfg.closesAtUnix ≤ tx.blockTime)
  | finalize (before : s.phase = .reveal) (after : s'.phase = .finalized)
      (closed : s'.closed = true) (time : cfg.revealClosesAtUnix ≤ tx.blockTime)

/-- The closed flag repeats the phase. -/
def PhaseConsistent (s : Ledger H) : Prop := s.closed = true ↔ s.phase ≠ .commit

theorem PhaseConsistent.closed_eq_false {s : Ledger H} (hs : PhaseConsistent s)
    (hcommit : s.phase = .commit) : s.closed = false := by
  simpa [PhaseConsistent, hcommit] using hs

variable [DecidableEq B] [DecidableEq D]

theorem phaseMove_of_step {s s' : Ledger H} {tx : Tx B D} (h : step H cfg s tx = .ok s') :
    PhaseMove cfg s tx s' := by
  cases effect_of_step h with
  | closeVote hphase _ htime => exact .close hphase rfl rfl htime
  | finalizeVote hphase hclosed htime => exact .finalize hphase rfl hclosed htime
  | _ => exact .stay rfl rfl

theorem initialState_phase {s : Ledger H} (h : initialState H cfg = .ok s) : s.phase = .commit := by
  rw [(initialState_ok.mp h).2]
  rfl

theorem initialState_phaseConsistent {s : Ledger H} (h : initialState H cfg = .ok s) :
    PhaseConsistent s := by
  rw [(initialState_ok.mp h).2]
  simp [PhaseConsistent, defaultLedger]

theorem step_phaseConsistent (s : Ledger H) (tx : Tx B D) (s' : Ledger H)
    (hs : PhaseConsistent s) (h : step H cfg s tx = .ok s') : PhaseConsistent s' := by
  unfold PhaseConsistent at hs ⊢
  cases phaseMove_of_step h with
  | stay hphase hclosed => rwa [hphase, hclosed]
  | close _ hafter hclosed _ => simp [hafter, hclosed]
  | finalize _ hafter hclosed _ => simp [hafter, hclosed]

theorem run_phaseConsistent {s : Ledger H} (hs : PhaseConsistent s) (txs : List (Tx B D)) :
    PhaseConsistent (runTxs H cfg s txs) :=
  run_invariant step_phaseConsistent hs txs

/-- In every run from the constructor the flag repeats the phase. -/
theorem runTxs_phaseConsistent {s₀ : Ledger H} (h₀ : initialState H cfg = .ok s₀)
    (txs : List (Tx B D)) : PhaseConsistent (runTxs H cfg s₀ txs) :=
  run_phaseConsistent (initialState_phaseConsistent h₀) txs

theorem step_phase_ne_commit (s : Ledger H) (tx : Tx B D) (s' : Ledger H)
    (hs : s.phase ≠ .commit) (h : step H cfg s tx = .ok s') : s'.phase ≠ .commit := by
  cases phaseMove_of_step h with
  | stay hphase _ => rwa [hphase]
  | close hbefore _ _ _ => exact absurd hbefore hs
  | finalize _ hafter _ _ => simp [hafter]

/-- The commit phase is never entered again. -/
theorem run_phase_ne_commit {s : Ledger H} (hs : s.phase ≠ .commit) (txs : List (Tx B D)) :
    (runTxs H cfg s txs).phase ≠ .commit :=
  run_invariant (I := fun s : Ledger H ↦ s.phase ≠ .commit) step_phase_ne_commit hs txs

/-! ## Votes come before reveals -/

/-- No vote of the history comes after a reveal, and there are no reveals in the commit phase. -/
structure VotesFirst (h : List (Ledger H × Tx B D)) (s : Ledger H) : Prop where
  pairwise : h.Pairwise fun a b ↦ a.2.IsRevealVote → ¬ b.2.IsCastVote
  commit_phase : s.phase = .commit → ∀ e ∈ h, ¬ e.2.IsRevealVote

theorem step_votesFirst (h : List (Ledger H × Tx B D)) (s : Ledger H) (tx : Tx B D) (s' : Ledger H)
    (hs : VotesFirst h s) (hok : step H cfg s tx = .ok s') : VotesFirst (h ++ [(s, tx)]) s' := by
  constructor
  · apply List.pairwise_append.mpr
    refine ⟨hs.pairwise, List.pairwise_singleton _ _, ?_⟩
    intro a ha b hb hreveal hcast
    rw [List.mem_singleton.mp hb] at hcast
    obtain ⟨w, hcall⟩ := hcast
    obtain ⟨now, call⟩ := tx
    obtain rfl : call = .castVote w := hcall
    exact hs.commit_phase (castVote_ok.mp hok).1.phase a ha hreveal
  · intro hphase e he hreveal
    have hcommit : s.phase = .commit := by
      by_contra hne
      exact step_phase_ne_commit s tx s' hne hok hphase
    rcases List.mem_append.mp he with he | he
    · exact hs.commit_phase hcommit e he hreveal
    · rw [List.mem_singleton.mp he] at hreveal
      obtain ⟨choice, salt, path, hcall⟩ := hreveal
      obtain ⟨now, call⟩ := tx
      obtain rfl : call = .revealVote choice salt path := hcall
      have hrevealing := (revealVote_ok.mp hok).1.phase
      rw [hcommit] at hrevealing
      cases hrevealing

theorem run_votesFirst (s₀ : Ledger H) (txs : List (Tx B D)) :
    VotesFirst (history H cfg s₀ txs) (runTxs H cfg s₀ txs) :=
  run_history_unconditional step_votesFirst ⟨List.Pairwise.nil, fun _ _ he ↦ absurd he List.not_mem_nil⟩ txs

/-- The commit phase has ended by a transaction after the voting deadline. -/
theorem exists_closing {s₀ : Ledger H} (h₀ : s₀.phase = .commit) (txs : List (Tx B D)) :
    (runTxs H cfg s₀ txs).phase ≠ .commit → ∃ tx ∈ txs, cfg.closesAtUnix ≤ tx.blockTime := by
  induction txs using List.reverseRecOn with
  | nil => exact fun hne ↦ absurd h₀ hne
  | append_singleton txs tx ih =>
    intro hne
    rw [runTxs, run_concat] at hne
    by_cases hcommit : (runTxs H cfg s₀ txs).phase = .commit
    · cases hok : step H cfg (runTxs H cfg s₀ txs) tx with
      | ok s' =>
        rw [apply_of_ok hok] at hne
        cases phaseMove_of_step hok with
        | stay hphase _ => exact absurd (hphase.trans hcommit) hne
        | close _ _ _ htime => exact ⟨tx, by simp, htime⟩
        | finalize hbefore _ _ _ => simp [hcommit] at hbefore
      | error message =>
        rw [apply_of_error hok] at hne
        exact absurd hcommit hne
    · obtain ⟨tx', hmem, htime⟩ := ih hcommit
      exact ⟨tx', List.mem_append_left _ hmem, htime⟩

/-- Reveals are accepted after the voting deadline only. -/
theorem closesAtUnix_le_of_reveal {s₀ : Ledger H} (h₀ : s₀.phase = .commit) {txs : List (Tx B D)}
    (htxs : Chronological txs) {e : Ledger H × Tx B D} (he : e ∈ history H cfg s₀ txs)
    (hreveal : e.2.IsRevealVote) : cfg.closesAtUnix ≤ e.2.blockTime := by
  obtain ⟨pre, post, s', rfl, hstate, hok⟩ := mem_accepted he
  obtain ⟨s, now, call⟩ := e
  obtain ⟨choice, salt, path, rfl⟩ : ∃ choice salt path, call = .revealVote choice salt path := hreveal
  have hphase := (revealVote_ok.mp hok).1.phase
  have hne : (runTxs H cfg s₀ pre).phase ≠ .commit := by
    rw [runTxs, ← hstate, hphase]
    simp
  obtain ⟨tx, hmem, htime⟩ := exists_closing h₀ pre hne
  have hlater := (List.pairwise_append.mp htxs).2.2 tx hmem _ List.mem_cons_self
  exact UInt64.le_trans htime hlater

/-! ## Finalization -/

/-- After the voting deadline `closeVote` ends the commit phase, whoever calls it. -/
theorem closeVote_ends_commit {s : Ledger H} (hs : PhaseConsistent s) {now : UInt64}
    (htime : cfg.closesAtUnix ≤ now) : (apply (step H cfg) s ⟨now, .closeVote⟩).phase ≠ .commit := by
  by_cases hcommit : s.phase = .commit
  · rw [apply_of_ok (closeVote_ok.mpr ⟨hcommit, hs.closed_eq_false hcommit, htime, rfl⟩)]
    simp
  · exact run_phase_ne_commit hcommit [_]

/-- After the reveal deadline `finalizeVote` ends the reveal phase, whoever calls it. -/
theorem finalizeVote_ends_reveal {s : Ledger H} (hs : PhaseConsistent s) (hne : s.phase ≠ .commit)
    {now : UInt64} (htime : cfg.revealClosesAtUnix ≤ now) :
    (apply (step H cfg) s ⟨now, .finalizeVote⟩).phase = .finalized := by
  cases hphase : s.phase with
  | commit => exact absurd hphase hne
  | reveal =>
    rw [apply_of_ok (finalizeVote_ok.mpr ⟨hphase, hs.mpr hne, htime, rfl⟩)]
  | finalized =>
    cases hok : step H cfg s ⟨now, .finalizeVote⟩ with
    | ok s' => simp [(finalizeVote_ok.mp hok).1] at hphase
    | error message => rw [apply_of_error hok, hphase]

/-- The phase machine along a run. -/
structure PhaseMachine (H : Hashing B D) (cfg : Sealed B D) (s₀ : Ledger H) (txs : List (Tx B D)) :
    Prop where
  closed_iff : (runTxs H cfg s₀ txs).closed = true ↔ (runTxs H cfg s₀ txs).phase ≠ .commit
  moves : ∀ e ∈ history H cfg s₀ txs, ∀ s', step H cfg e.1 e.2 = .ok s' →
    s'.phase = e.1.phase ∨
    (e.1.phase = .commit ∧ s'.phase = .reveal ∧ cfg.closesAtUnix ≤ e.2.blockTime) ∨
    (e.1.phase = .reveal ∧ s'.phase = .finalized ∧ cfg.revealClosesAtUnix ≤ e.2.blockTime)
  cast_window : ∀ e ∈ history H cfg s₀ txs, e.2.IsCastVote →
    cfg.opensAtUnix ≤ e.2.blockTime ∧ e.2.blockTime < cfg.closesAtUnix
  cast_before_reveal : (history H cfg s₀ txs).Pairwise fun a b ↦ a.2.IsRevealVote → ¬ b.2.IsCastVote
  cast_earlier : ∀ e ∈ history H cfg s₀ txs, e.2.IsCastVote →
    ∀ e' ∈ history H cfg s₀ txs, e'.2.IsRevealVote → e.2.blockTime < e'.2.blockTime
  finalizable : ∀ t₁ t₂ between, cfg.revealClosesAtUnix ≤ t₁ → cfg.revealClosesAtUnix ≤ t₂ →
    (runTxs H cfg (runTxs H cfg s₀ txs)
      (⟨t₁, .closeVote⟩ :: between ++ [⟨t₂, .finalizeVote⟩])).phase = .finalized

theorem cast_window_of_accepted {s₀ : Ledger H} {txs : List (Tx B D)} {e : Ledger H × Tx B D}
    (he : e ∈ history H cfg s₀ txs) (hcast : e.2.IsCastVote) :
    cfg.opensAtUnix ≤ e.2.blockTime ∧ e.2.blockTime < cfg.closesAtUnix := by
  obtain ⟨_, _, s', _, _, hok⟩ := mem_accepted he
  obtain ⟨s, now, call⟩ := e
  obtain ⟨w, rfl⟩ : ∃ w, call = .castVote w := hcast
  have hguards := (castVote_ok.mp hok).1
  exact ⟨hguards.opened, hguards.open_still⟩

theorem finalized_of_close_finalize (hcfg : ScheduleGuards cfg) {s : Ledger H}
    (hs : PhaseConsistent s) {t₁ t₂ : UInt64} (h₁ : cfg.revealClosesAtUnix ≤ t₁)
    (h₂ : cfg.revealClosesAtUnix ≤ t₂) (between : List (Tx B D)) :
    (runTxs H cfg s (⟨t₁, .closeVote⟩ :: between ++ [⟨t₂, .finalizeVote⟩])).phase = .finalized := by
  have hcloses : cfg.closesAtUnix ≤ t₁ :=
    UInt64.le_trans (UInt64.le_of_lt hcfg.reveal_window) h₁
  rw [runTxs, run_concat, run_cons]
  apply finalizeVote_ends_reveal _ _ h₂
  · exact run_phaseConsistent (run_phaseConsistent hs [⟨t₁, .closeVote⟩]) between
  · exact run_phase_ne_commit (closeVote_ends_commit hs hcloses) between

theorem phase_machine {s₀ : Ledger H} (h₀ : initialState H cfg = .ok s₀) {txs : List (Tx B D)}
    (htxs : Chronological txs) : PhaseMachine H cfg s₀ txs := by
  have hconsistent : PhaseConsistent (runTxs H cfg s₀ txs) := runTxs_phaseConsistent h₀ txs
  exact {
    closed_iff := hconsistent
    moves := by
      intro e _ s' hok
      cases phaseMove_of_step hok with
      | stay hphase _ => exact Or.inl hphase
      | close hbefore hafter _ htime => exact Or.inr (Or.inl ⟨hbefore, hafter, htime⟩)
      | finalize hbefore hafter _ htime => exact Or.inr (Or.inr ⟨hbefore, hafter, htime⟩)
    cast_window := fun e he hcast ↦ cast_window_of_accepted he hcast
    cast_before_reveal := (run_votesFirst s₀ txs).pairwise
    cast_earlier := by
      intro e he hcast e' he' hreveal
      have hopen := (cast_window_of_accepted he hcast).2
      have hclosed := closesAtUnix_le_of_reveal (initialState_phase h₀) htxs he' hreveal
      exact UInt64.lt_of_lt_of_le hopen hclosed
    finalizable := fun t₁ t₂ between h₁ h₂ ↦
      finalized_of_close_finalize (initialState_ok.mp h₀).1 hconsistent h₁ h₂ between }

theorem phase_machine_sample :
    PhaseMachine symbolic sampleSealed sampleInitial sampleTxs ∧
      (runTxs symbolic sampleSealed sampleInitial sampleTxs).phase = .reveal :=
  ⟨phase_machine sampleInitial_ok (by unfold Chronological; decide), by decide +kernel⟩

end MidnightReferendum.ReferendumV2
