import MidnightReferendum.ReferendumV2.Conservation

/-!
# Accepted and revoked roots

Two roles change the sets of roots: the publisher accepts a root and the organizer moves one to the
revoked set. The sets stay disjoint and the electorate never becomes empty, a revoked root stays
revoked, and every accepted root is the constructor's or has a publication in the history.
-/

namespace MidnightReferendum.ReferendumV2

open MidnightReferendum.Compact Execution Merkle

variable {B D : Type} {H : Hashing B D} {cfg : Sealed B D} [DecidableEq B] [DecidableEq D]

def Tx.IsCloseEnrollment (tx : Tx B D) : Prop := ∃ secret, tx.call = .closeEnrollment secret

/-- What an accepted transaction may do to the two sets of roots. -/
inductive RootMove (cfg : Sealed B D) (s : Ledger H) (tx : Tx B D) (s' : Ledger H) : Prop where
  | stay (accepted_eq : s'.acceptedCredentialRoots = s.acceptedCredentialRoots)
      (revoked_eq : s'.revokedCredentialRoots = s.revokedCredentialRoots)
  | publish (root : D) (secret : B) (call_eq : tx.call = .publishCredentialRoot root secret)
      (guards : PublishGuards cfg s tx.blockTime root secret)
      (accepted_eq : s'.acceptedCredentialRoots = insert root s.acceptedCredentialRoots)
      (revoked_eq : s'.revokedCredentialRoots = s.revokedCredentialRoots)
  | revoke (root : D) (secret : B) (call_eq : tx.call = .revokeCredentialRoot root secret)
      (guards : RevokeGuards cfg s tx.blockTime root secret)
      (accepted_eq : s'.acceptedCredentialRoots = s.acceptedCredentialRoots.erase root)
      (revoked_eq : s'.revokedCredentialRoots = insert root s.revokedCredentialRoots)

theorem rootMove_of_step {s s' : Ledger H} {tx : Tx B D} (h : step H cfg s tx = .ok s') :
    RootMove cfg s tx s' := by
  cases effect_of_step h with
  | publishCredentialRoot hguards => exact .publish _ _ rfl hguards rfl rfl
  | revokeCredentialRoot hguards => exact .revoke _ _ rfl hguards rfl rfl
  | _ => exact .stay rfl rfl

/-! ## The two sets -/

/-- The electorate is not empty and no accepted root is revoked. -/
structure RootSets (s : Ledger H) : Prop where
  nonempty : s.acceptedCredentialRoots.Nonempty
  disjoint : Disjoint s.acceptedCredentialRoots s.revokedCredentialRoots

theorem initialState_rootSets {s : Ledger H} (h : initialState H cfg = .ok s) : RootSets s := by
  rw [(initialState_ok.mp h).2]
  exact ⟨Finset.singleton_nonempty _, Finset.disjoint_empty_right _⟩

theorem step_rootSets (s : Ledger H) (tx : Tx B D) (s' : Ledger H) (hs : RootSets s)
    (h : step H cfg s tx = .ok s') : RootSets s' := by
  cases rootMove_of_step h with
  | stay haccepted hrevoked =>
    constructor
    · rw [haccepted]
      exact hs.nonempty
    · rw [haccepted, hrevoked]
      exact hs.disjoint
  | publish root secret _ hguards haccepted hrevoked =>
    constructor
    · rw [haccepted]
      exact Finset.insert_nonempty _ _
    · rw [haccepted, hrevoked]
      exact Finset.disjoint_insert_left.mpr ⟨hguards.unrevoked, hs.disjoint⟩
  | revoke root secret _ hguards haccepted hrevoked =>
    constructor
    · rw [haccepted]
      exact Finset.nonempty_iff_ne_empty.mpr hguards.others
    · rw [haccepted, hrevoked]
      apply Finset.disjoint_insert_right.mpr
      exact ⟨Finset.notMem_erase _ _, hs.disjoint.mono_left (Finset.erase_subset _ _)⟩

theorem step_revoked_subset (s : Ledger H) (tx : Tx B D) (s' : Ledger H)
    (h : step H cfg s tx = .ok s') : s.revokedCredentialRoots ⊆ s'.revokedCredentialRoots := by
  cases rootMove_of_step h with
  | stay _ hrevoked => rw [hrevoked]
  | publish _ _ _ _ _ hrevoked => rw [hrevoked]
  | revoke _ _ _ _ _ hrevoked =>
    rw [hrevoked]
    exact Finset.subset_insert _ _

variable (H cfg) in
theorem run_revoked_subset (s : Ledger H) (txs : List (Tx B D)) :
    s.revokedCredentialRoots ⊆ (runTxs H cfg s txs).revokedCredentialRoots :=
  run_relation (R := fun s t : Ledger H ↦ s.revokedCredentialRoots ⊆ t.revokedCredentialRoots)
    (fun _ ↦ Finset.Subset.rfl) Finset.Subset.trans step_revoked_subset s txs

theorem notMem_accepted_of_revoked {s : Ledger H} (hs : RootSets s) {root : D}
    (hroot : root ∈ s.revokedCredentialRoots) (later : List (Tx B D)) :
    root ∉ (runTxs H cfg s later).acceptedCredentialRoots := by
  have hlater : RootSets (runTxs H cfg s later) := run_invariant step_rootSets hs later
  exact Finset.disjoint_right.mp hlater.disjoint (run_revoked_subset H cfg s later hroot)

/-- No vote is accepted with a path into a revoked root. -/
theorem pathRoot_ne_of_revoked {s : Ledger H} (hs : RootSets s) {root : D}
    (hroot : root ∈ s.revokedCredentialRoots) {later : List (Tx B D)} {e : Ledger H × Tx B D}
    (he : e ∈ history H cfg s later) {w : CastVoteWitness B D} (hcall : e.2.call = .castVote w) :
    pathRoot H.tree w.voterPath ≠ root := by
  obtain ⟨pre, post, s', _, hstate, hok⟩ := mem_accepted he
  obtain ⟨t, now, call⟩ := e
  obtain rfl : call = .castVote w := hcall
  have hpath := (castVote_ok.mp hok).1.root
  intro heq
  have hnot : root ∉ (runTxs H cfg s pre).acceptedCredentialRoots :=
    notMem_accepted_of_revoked hs hroot pre
  rw [runTxs, ← hstate] at hnot
  exact hnot (heq ▸ hpath)

/-! ## Where accepted roots come from -/

/-- The root was published in the history, by the publisher and before enrollment closed. -/
def PublishedIn (H : Hashing B D) (cfg : Sealed B D) (h : List (Ledger H × Tx B D)) (root : D) :
    Prop :=
  ∃ pre e post secret, h = pre ++ e :: post ∧ e.2.call = .publishCredentialRoot root secret ∧
    IsRootPublisher H cfg secret ∧ e.2.blockTime < cfg.enrollmentClosesAtUnix ∧
    ∀ e' ∈ pre, ¬ e'.2.IsCloseEnrollment

structure RootProvenance (cfg : Sealed B D) (h : List (Ledger H × Tx B D)) (s : Ledger H) :
    Prop where
  published : ∀ root ∈ s.acceptedCredentialRoots,
    root = cfg.initialCredentialRoot ∨ PublishedIn H cfg h root
  enrollment : s.enrollmentClosed = false → ∀ e ∈ h, ¬ e.2.IsCloseEnrollment

omit [DecidableEq B] [DecidableEq D] in
theorem PublishedIn.concat {h : List (Ledger H × Tx B D)} {root : D}
    (hroot : PublishedIn H cfg h root) (e : Ledger H × Tx B D) : PublishedIn H cfg (h ++ [e]) root := by
  obtain ⟨pre, e', post, secret, rfl, hpublished⟩ := hroot
  exact ⟨pre, e', post ++ [e], secret, by simp, hpublished⟩

theorem enrollmentClosed_of_step {s s' : Ledger H} {tx : Tx B D} (h : step H cfg s tx = .ok s') :
    (tx.IsCloseEnrollment ∧ s'.enrollmentClosed = true) ∨
      (¬ tx.IsCloseEnrollment ∧ s'.enrollmentClosed = s.enrollmentClosed) := by
  cases effect_of_step h with
  | closeEnrollment _ _ => exact Or.inl ⟨⟨_, rfl⟩, rfl⟩
  | _ => exact Or.inr ⟨by simp [Tx.IsCloseEnrollment], rfl⟩

theorem initialState_rootProvenance {s : Ledger H} (h : initialState H cfg = .ok s) :
    RootProvenance cfg [] s := by
  rw [(initialState_ok.mp h).2]
  exact ⟨fun root hroot ↦ Or.inl (Finset.mem_singleton.mp hroot),
    fun _ e he ↦ absurd he List.not_mem_nil⟩

theorem step_rootProvenance (h : List (Ledger H × Tx B D)) (s : Ledger H) (tx : Tx B D)
    (s' : Ledger H) (hs : RootProvenance cfg h s) (hok : step H cfg s tx = .ok s') :
    RootProvenance cfg (h ++ [(s, tx)]) s' := by
  have hkept : ∀ root ∈ s.acceptedCredentialRoots,
      root = cfg.initialCredentialRoot ∨ PublishedIn H cfg (h ++ [(s, tx)]) root :=
    fun root hroot ↦ (hs.published root hroot).imp_right fun hpublished ↦ hpublished.concat _
  constructor
  · intro root hroot
    cases rootMove_of_step hok with
    | stay haccepted _ => exact hkept root (haccepted ▸ hroot)
    | publish new secret hcall hguards haccepted _ =>
      rw [haccepted, Finset.mem_insert] at hroot
      rcases hroot with rfl | hroot
      · exact Or.inr ⟨h, (s, tx), [], secret, rfl, hcall, hguards.publisher, hguards.time,
          hs.enrollment hguards.enrollment_open⟩
      · exact hkept root hroot
    | revoke _ _ _ _ haccepted _ =>
      rw [haccepted] at hroot
      exact hkept root (Finset.mem_of_mem_erase hroot)
  · intro hopen e he
    rcases enrollmentClosed_of_step hok with ⟨_, hclosed⟩ | ⟨hother, hsame⟩
    · rw [hclosed] at hopen
      cases hopen
    · rcases List.mem_append.mp he with he | he
      · exact hs.enrollment (hsame ▸ hopen) e he
      · rw [List.mem_singleton.mp he]
        exact hother

/-! ## Failed transactions -/

theorem runTxs_of_error {s t : Ledger H} {tx : Tx B D} {message : String}
    (h : (circuit H cfg tx).run s = .error message t) : runTxs H cfg s [tx] = s :=
  apply_of_error (transact_of_error h)

/-- Revoking the only accepted root fails after both sets have been written. -/
theorem revokeCredentialRoot_last {s : Ledger H} {now : UInt64} {root : D} {secret : B}
    (horganizer : IsOrganizer H cfg secret) (htime : now < cfg.enrollmentClosesAtUnix)
    (honly : s.acceptedCredentialRoots = {root}) :
    (circuit H cfg ⟨now, .revokeCredentialRoot root secret⟩).run s =
      .error "The last accepted root cannot be revoked"
        { s with
          revokedCredentialRoots := insert root s.revokedCredentialRoots
          acceptedCredentialRoots := ∅ } := by
  have htime' : blockTimeLt now cfg.enrollmentClosesAtUnix = true := blockTimeLt_eq_true.mpr htime
  have hmem : root ∈ s.acceptedCredentialRoots := by simp [honly]
  have herase : s.acceptedCredentialRoots.erase root = ∅ := by simp [honly]
  simp only [circuit, revokeCredentialRoot, run_assert_bind, run_get_bind, run_modify_bind,
    if_pos horganizer, if_pos htime', if_pos hmem, herase, ne_eq, not_true_eq_false, if_false]

/-- The sets of roots in the last state of a run, and what becomes of them later. -/
structure RootsGoverned (H : Hashing B D) (cfg : Sealed B D) (s₀ : Ledger H) (txs : List (Tx B D)) :
    Prop where
  nonempty : (runTxs H cfg s₀ txs).acceptedCredentialRoots.Nonempty
  disjoint : Disjoint (runTxs H cfg s₀ txs).acceptedCredentialRoots
    (runTxs H cfg s₀ txs).revokedCredentialRoots
  revoked_grows : ∀ later, (runTxs H cfg s₀ txs).revokedCredentialRoots ⊆
    (runTxs H cfg (runTxs H cfg s₀ txs) later).revokedCredentialRoots
  revoked_final : ∀ root ∈ (runTxs H cfg s₀ txs).revokedCredentialRoots, ∀ later,
    root ∉ (runTxs H cfg (runTxs H cfg s₀ txs) later).acceptedCredentialRoots
  revoked_unusable : ∀ root ∈ (runTxs H cfg s₀ txs).revokedCredentialRoots, ∀ later,
    ∀ e ∈ history H cfg (runTxs H cfg s₀ txs) later, ∀ w, e.2.call = .castVote w →
      pathRoot H.tree w.voterPath ≠ root
  provenance : ∀ root ∈ (runTxs H cfg s₀ txs).acceptedCredentialRoots,
    root = cfg.initialCredentialRoot ∨ PublishedIn H cfg (history H cfg s₀ txs) root
  failed_unchanged : ∀ tx message t, (circuit H cfg tx).run (runTxs H cfg s₀ txs) = .error message t →
    runTxs H cfg (runTxs H cfg s₀ txs) [tx] = runTxs H cfg s₀ txs
  last_root_kept : ∀ now root secret, IsOrganizer H cfg secret → now < cfg.enrollmentClosesAtUnix →
    (runTxs H cfg s₀ txs).acceptedCredentialRoots = {root} →
    ∃ t, (circuit H cfg ⟨now, .revokeCredentialRoot root secret⟩).run (runTxs H cfg s₀ txs) =
        .error "The last accepted root cannot be revoked" t ∧ t ≠ runTxs H cfg s₀ txs ∧
      runTxs H cfg (runTxs H cfg s₀ txs) [⟨now, .revokeCredentialRoot root secret⟩] =
        runTxs H cfg s₀ txs

theorem roots_governed {s₀ : Ledger H} (h₀ : initialState H cfg = .ok s₀) (txs : List (Tx B D)) :
    RootsGoverned H cfg s₀ txs := by
  have hsets : RootSets (runTxs H cfg s₀ txs) :=
    run_invariant step_rootSets (initialState_rootSets h₀) txs
  have hprovenance : RootProvenance cfg (history H cfg s₀ txs) (runTxs H cfg s₀ txs) :=
    run_history_unconditional step_rootProvenance (initialState_rootProvenance h₀) txs
  exact {
    nonempty := hsets.nonempty
    disjoint := hsets.disjoint
    revoked_grows := fun later ↦ run_revoked_subset H cfg _ later
    revoked_final := fun root hroot later ↦ notMem_accepted_of_revoked hsets hroot later
    revoked_unusable := fun root hroot later e he w hcall ↦ pathRoot_ne_of_revoked hsets hroot he hcall
    provenance := hprovenance.published
    failed_unchanged := fun tx message t herror ↦ runTxs_of_error herror
    last_root_kept := by
      intro now root secret horganizer htime honly
      have herror := revokeCredentialRoot_last horganizer htime honly
      refine ⟨_, herror, ?_, runTxs_of_error herror⟩
      intro heq
      have hempty := congrArg Ledger.acceptedCredentialRoots heq
      exact hsets.nonempty.ne_empty hempty.symm }

/-- A third voter's root is published and the opening root is revoked; the root that is left stays. -/
def sampleRootTxs : List (Tx Term Digest) :=
  [⟨110, .publishCredentialRoot (sampleRoot 3) (.uint 2)⟩,
    ⟨120, .revokeCredentialRoot (sampleRoot 2) (.uint 1)⟩,
    ⟨130, .revokeCredentialRoot (sampleRoot 3) (.uint 1)⟩, sampleVote 140 2 3 .yes 50]

theorem roots_governed_sample :
    RootsGoverned symbolic sampleSealed sampleInitial sampleRootTxs ∧
      (runTxs symbolic sampleSealed sampleInitial sampleRootTxs).acceptedCredentialRoots =
        {sampleRoot 3} ∧
      (runTxs symbolic sampleSealed sampleInitial sampleRootTxs).revokedCredentialRoots =
        {sampleRoot 2} ∧
      (runTxs symbolic sampleSealed sampleInitial sampleRootTxs).issuedVotes = 1 :=
  ⟨roots_governed sampleInitial_ok sampleRootTxs, by decide +kernel, by decide +kernel,
    by decide +kernel⟩

end MidnightReferendum.ReferendumV2
