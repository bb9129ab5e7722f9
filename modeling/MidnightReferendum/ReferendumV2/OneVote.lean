import MidnightReferendum.Registry.AppendOnly
import MidnightReferendum.ReferendumV2.Policy
import MidnightReferendum.ReferendumV2.Roots

/-!
# One vote per credential

The registry and the referendum run side by side, and the referendum is given roots that were once
current in the registry. Every accepted vote then proves a leaf of the registry. A referendum spends a
nullifier of the voter secret and not of the leaf, so two votes with one leaf are excluded as long as
the prover answers both calls of `voterSecret` and both calls of `holderBinding` alike.
-/

namespace MidnightReferendum.ReferendumV2

open MidnightReferendum.Compact Execution Merkle

/-- The ledgers of the two contracts. -/
structure World {B D : Type} (H : Hashing B D) where
  registry : CredentialRegistryV1.Ledger B D
  referendum : Ledger H

/-- A transaction of one of the two contracts. -/
inductive Action (B D : Type) where
  | registry (call : CredentialRegistryV1.Call B D)
  | referendum (tx : Tx B D)

variable {B D : Type} [DecidableEq B] [DecidableEq D] (H : Hashing B D)
  (reg : CredentialRegistryV1.Sealed B) (cfg : Sealed B D)

def worldStep (w : World H) : Action B D → Except String (World H)
  | .registry call =>
    (CredentialRegistryV1.step H reg w.registry call).map fun s ↦ { w with registry := s }
  | .referendum tx => (step H cfg w.referendum tx).map fun s ↦ { w with referendum := s }

/-- The two ledgers when the referendum is deployed after the given registry calls. -/
def deployed (setup : List (CredentialRegistryV1.Call B D)) (s₀ : Ledger H) : World H where
  registry := CredentialRegistryV1.runCalls H reg (CredentialRegistryV1.initialState H) setup
  referendum := s₀

abbrev runWorld (w : World H) (acts : List (Action B D)) : World H := run (worldStep H reg cfg) w acts

abbrev worldHistory (w : World H) (acts : List (Action B D)) : List (World H × Action B D) :=
  accepted (worldStep H reg cfg) w acts

/-- The initial root and every root handed to `publishCredentialRoot` was the current root of the
registry at some earlier point of the run. -/
structure RegistryRoots (s₀ : Ledger H) (setup : List (CredentialRegistryV1.Call B D))
    (acts : List (Action B D)) : Prop where
  initial : ∃ past, past <+: setup ∧
    CredentialRegistryV1.currentRoot H
      (CredentialRegistryV1.runCalls H reg (CredentialRegistryV1.initialState H) past) =
      cfg.initialCredentialRoot
  published : ∀ pre time root secret post,
    acts = pre ++ .referendum ⟨time, .publishCredentialRoot root secret⟩ :: post →
    (∃ past, past <+: setup ∧ CredentialRegistryV1.currentRoot H
      (CredentialRegistryV1.runCalls H reg (CredentialRegistryV1.initialState H) past) = root) ∨
    ∃ past, past <+: pre ∧ CredentialRegistryV1.currentRoot H
      (runWorld H reg cfg (deployed H reg setup s₀) past).registry = root

variable {H reg cfg}

/-- The answers of the prover of a vote. -/
def Action.castWitness : Action B D → Option (CastVoteWitness B D)
  | .registry _ => none
  | .referendum tx => tx.castWitness

/-- The answers of the provers of the accepted votes. -/
def worldCasts (h : List (World H × Action B D)) : List (CastVoteWitness B D) :=
  h.filterMap fun e ↦ e.2.castWitness

/-- The credential leaves of the accepted votes. -/
def castLeaves (h : List (World H × Action B D)) : List B :=
  (worldCasts h).map fun w ↦ w.voterPath.leaf

/-- The accepted votes use different credentials of the registry. -/
structure OneVotePerCredential (h : List (World H × Action B D)) (w : World H) : Prop where
  distinct : (castLeaves h).Nodup
  registered : ∀ leaf ∈ castLeaves h, leaf ∈ w.registry.credentials.leaves
  bounded : (castLeaves h).length ≤ w.registry.credentialCount

/-- A root of the registry in its present or an earlier state. -/
def IsRegistryRoot (H : Hashing B D) (s : CredentialRegistryV1.Ledger B D) (root : D) : Prop :=
  ∃ leaves, leaves <+: s.credentials.leaves ∧ Merkle.root H.tree 16 leaves = root

omit [DecidableEq B] [DecidableEq D] in
theorem IsRegistryRoot.extends {s t : CredentialRegistryV1.Ledger B D} {root : D}
    (h : IsRegistryRoot H s root) (hst : CredentialRegistryV1.Extends H s t) :
    IsRegistryRoot H t root := by
  obtain ⟨leaves, hleaves, hroot⟩ := h
  exact ⟨leaves, hleaves.trans hst.leaves, hroot⟩

/-- The invariant of the two contracts after the history `h`. -/
structure WorldInvariant (cfg : Sealed B D) (h : List (World H × Action B D)) (w : World H) :
    Prop where
  consistent : CredentialRegistryV1.Consistent H w.registry
  roots : ∀ root ∈ w.referendum.acceptedCredentialRoots, IsRegistryRoot H w.registry root
  spent : Register (fun cw : CastVoteWitness B D ↦ voteNullifier H cfg cw.nullifierVoterSecret)
    (worldCasts h) w.referendum.spentVoteNullifiers
  proven : ∀ cw ∈ worldCasts h,
    WitnessGuards H cfg cw ∧ cw.voterPath.leaf ∈ w.registry.credentials.leaves

omit [DecidableEq B] [DecidableEq D] in
theorem worldCasts_concat (h : List (World H × Action B D)) (e : World H × Action B D) :
    worldCasts (h ++ [e]) = worldCasts h ++ e.2.castWitness.toList :=
  filterMap_concat _ h e

/-- A registry call keeps the invariant. -/
theorem WorldInvariant.registry {h : List (World H × Action B D)} {w : World H}
    {call : CredentialRegistryV1.Call B D} {s : CredentialRegistryV1.Ledger B D}
    (hw : WorldInvariant cfg h w) (hok : CredentialRegistryV1.step H reg w.registry call = .ok s) :
    WorldInvariant cfg (h ++ [(w, .registry call)]) { w with registry := s } := by
  have hcasts : worldCasts (h ++ [(w, .registry call)]) = worldCasts h := by
    rw [worldCasts_concat]
    exact List.append_nil _
  have hextends := CredentialRegistryV1.step_extends w.registry call s hok
  constructor
  · exact CredentialRegistryV1.step_consistent w.registry call s hw.consistent hok
  · exact fun root hroot ↦ (hw.roots root hroot).extends hextends
  · rw [hcasts]
    exact hw.spent
  · rw [hcasts]
    intro cw hcw
    obtain ⟨hguards, hleaf⟩ := hw.proven cw hcw
    exact ⟨hguards, hextends.leaves.subset hleaf⟩

/-- An accepted vote keeps the invariant. -/
theorem WorldInvariant.castVote (hH : H.CollisionFree) {h : List (World H × Action B D)}
    {w : World H} {now : UInt64} {cw : CastVoteWitness B D} {s : Ledger H}
    (hw : WorldInvariant cfg h w) (hok : step H cfg w.referendum ⟨now, .castVote cw⟩ = .ok s) :
    WorldInvariant cfg (h ++ [(w, .referendum ⟨now, .castVote cw⟩)]) { w with referendum := s } := by
  obtain ⟨hguards, ballots, _, rfl⟩ := castVote_ok.mp hok
  have hcasts : worldCasts (h ++ [(w, .referendum ⟨now, .castVote cw⟩)]) =
      worldCasts h ++ [cw] := worldCasts_concat _ _
  constructor
  · exact hw.consistent
  · exact hw.roots
  · rw [hcasts]
    exact hw.spent.concat hguards.unspent
  · intro cw' hcw
    rw [hcasts, List.mem_append, List.mem_singleton] at hcw
    rcases hcw with hcw | rfl
    · exact hw.proven cw' hcw
    · obtain ⟨leaves, hleaves, hroot⟩ := hw.roots _ hguards.root
      have hmem := mem_of_foldPath_eq_root hH.tree_sound cw'.voterPath.length_path hroot.symm
      exact ⟨hguards.witness, hleaves.subset hmem⟩

/-- A transaction that is no vote keeps the nullifiers. -/
theorem spent_of_step {s s' : Ledger H} {tx : Tx B D} (h : step H cfg s tx = .ok s') :
    (∃ cw, tx.call = .castVote cw) ∨ s'.spentVoteNullifiers = s.spentVoteNullifiers := by
  cases effect_of_step h with
  | castVote _ _ => exact Or.inl ⟨_, rfl⟩
  | _ => exact Or.inr rfl

/-- A referendum transaction keeps the invariant if the root that it publishes is a registry root. -/
theorem WorldInvariant.referendum (hH : H.CollisionFree) {h : List (World H × Action B D)}
    {w : World H} {tx : Tx B D} {s : Ledger H} (hw : WorldInvariant cfg h w)
    (hroot : ∀ root secret, tx.call = .publishCredentialRoot root secret →
      IsRegistryRoot H w.registry root)
    (hok : step H cfg w.referendum tx = .ok s) :
    WorldInvariant cfg (h ++ [(w, .referendum tx)]) { w with referendum := s } := by
  obtain ⟨now, call⟩ := tx
  rcases spent_of_step hok with ⟨cw, rfl⟩ | hspent
  · exact hw.castVote hH hok
  have hcasts : worldCasts (h ++ [(w, .referendum ⟨now, call⟩)]) = worldCasts h := by
    rw [worldCasts_concat]
    cases call with
    | castVote cw =>
      obtain ⟨hguards, ballots, _, rfl⟩ := castVote_ok.mp hok
      exact absurd (hspent ▸ Finset.mem_insert_self _ _) hguards.unspent
    | _ => exact List.append_nil _
  constructor
  · exact hw.consistent
  · intro root hmem
    cases rootMove_of_step hok with
    | stay haccepted _ => exact hw.roots root (haccepted ▸ hmem)
    | publish new secret hcall _ haccepted _ =>
      rcases Finset.mem_insert.mp (haccepted ▸ hmem) with rfl | hmem
      · exact hroot root secret hcall
      · exact hw.roots root hmem
    | revoke _ _ _ _ haccepted _ =>
      exact hw.roots root (Finset.mem_of_mem_erase (haccepted ▸ hmem))
  · change Register _ _ s.spentVoteNullifiers
    rw [hcasts, hspent]
    exact hw.spent
  · rw [hcasts]
    exact hw.proven

/-! ## Runs of the two contracts -/

theorem worldStep_ok {w w' : World H} {a : Action B D} (h : worldStep H reg cfg w a = .ok w') :
    (∃ call s, a = .registry call ∧ CredentialRegistryV1.step H reg w.registry call = .ok s ∧
      w' = { w with registry := s }) ∨
    ∃ tx s, a = .referendum tx ∧ step H cfg w.referendum tx = .ok s ∧
      w' = { w with referendum := s } := by
  cases a with
  | registry call =>
    cases hok : CredentialRegistryV1.step H reg w.registry call with
    | ok s =>
      simp only [worldStep, hok, Except.map, Except.ok.injEq] at h
      exact Or.inl ⟨call, s, rfl, hok, h.symm⟩
    | error message => simp [worldStep, hok, Except.map] at h
  | referendum tx =>
    cases hok : step H cfg w.referendum tx with
    | ok s =>
      simp only [worldStep, hok, Except.map, Except.ok.injEq] at h
      exact Or.inr ⟨tx, s, rfl, hok, h.symm⟩
    | error message => simp [worldStep, hok, Except.map] at h

variable (H reg cfg) in
/-- The registry of a run extends the registry that the run began with. -/
theorem runWorld_extends (w : World H) (acts : List (Action B D)) :
    CredentialRegistryV1.Extends H w.registry (runWorld H reg cfg w acts).registry := by
  apply run_relation (R := fun a b : World H ↦ CredentialRegistryV1.Extends H a.registry b.registry)
  · exact fun w ↦ CredentialRegistryV1.extends_refl w.registry
  · exact CredentialRegistryV1.extends_trans
  · intro w a w' hok
    rcases worldStep_ok hok with ⟨call, s, rfl, hcall, rfl⟩ | ⟨tx, s, rfl, _, rfl⟩
    · exact CredentialRegistryV1.step_extends w.registry call s hcall
    · exact CredentialRegistryV1.extends_refl w.registry

omit [DecidableEq B] [DecidableEq D] in
theorem isRegistryRoot_currentRoot (s : CredentialRegistryV1.Ledger B D) :
    IsRegistryRoot H s (CredentialRegistryV1.currentRoot H s) :=
  ⟨s.credentials.leaves, List.prefix_rfl, rfl⟩

/-- A root that was current before the deployment is a root of the deployed registry. -/
theorem isRegistryRoot_of_setup {past setup : List (CredentialRegistryV1.Call B D)}
    (hpast : past <+: setup) (s₀ : Ledger H) :
    IsRegistryRoot H (deployed H reg setup s₀).registry (CredentialRegistryV1.currentRoot H
      (CredentialRegistryV1.runCalls H reg (CredentialRegistryV1.initialState H) past)) := by
  obtain ⟨rest, rfl⟩ := hpast
  rw [deployed, CredentialRegistryV1.runCalls, CredentialRegistryV1.runCalls, run_append]
  exact (isRegistryRoot_currentRoot _).extends (CredentialRegistryV1.run_extends H reg _ rest)

/-- A root handed to `publishCredentialRoot` is a root of the registry at that point of the run. -/
theorem isRegistryRoot_of_published {s₀ : Ledger H} {setup : List (CredentialRegistryV1.Call B D)}
    {acts : List (Action B D)} (hroots : RegistryRoots H reg cfg s₀ setup acts)
    {e : World H × Action B D} (he : e ∈ worldHistory H reg cfg (deployed H reg setup s₀) acts)
    {time : UInt64} {root : D} {secret : B}
    (hcall : e.2 = .referendum ⟨time, .publishCredentialRoot root secret⟩) :
    IsRegistryRoot H e.1.registry root := by
  obtain ⟨pre, post, _, hsplit, hstate, _⟩ := mem_accepted he
  rw [hcall] at hsplit
  rw [hstate]
  rcases hroots.published pre time root secret post hsplit with ⟨past, hpast, rfl⟩ | ⟨past, ⟨rest, rfl⟩, rfl⟩
  · exact (isRegistryRoot_of_setup hpast s₀).extends (runWorld_extends H reg cfg _ pre)
  · rw [run_append]
    exact (isRegistryRoot_currentRoot _).extends (runWorld_extends H reg cfg _ rest)

theorem deployed_worldInvariant {s₀ : Ledger H} (h₀ : initialState H cfg = .ok s₀)
    {setup : List (CredentialRegistryV1.Call B D)} {acts : List (Action B D)}
    (hroots : RegistryRoots H reg cfg s₀ setup acts) :
    WorldInvariant cfg [] (deployed H reg setup s₀) := by
  have hs₀ := (initialState_ok.mp h₀).2
  obtain ⟨past, hpast, hroot⟩ := hroots.initial
  constructor
  · exact run_invariant CredentialRegistryV1.step_consistent
      CredentialRegistryV1.initialState_consistent setup
  · intro root hmem
    rw [deployed, hs₀] at hmem
    rw [Finset.mem_singleton.mp hmem, ← hroot]
    exact isRegistryRoot_of_setup hpast s₀
  · rw [deployed, hs₀]
    exact Register.empty _
  · exact fun cw hcw ↦ absurd hcw List.not_mem_nil

theorem run_worldInvariant (hH : H.CollisionFree) {s₀ : Ledger H} (h₀ : initialState H cfg = .ok s₀)
    {setup : List (CredentialRegistryV1.Call B D)} {acts : List (Action B D)}
    (hroots : RegistryRoots H reg cfg s₀ setup acts) :
    WorldInvariant cfg (worldHistory H reg cfg (deployed H reg setup s₀) acts)
      (runWorld H reg cfg (deployed H reg setup s₀) acts) := by
  apply run_history (P := fun e ↦ ∀ time root secret,
    e.2 = .referendum ⟨time, .publishCredentialRoot root secret⟩ → IsRegistryRoot H e.1.registry root)
  · intro h w a w' hw hpublished hok
    rcases worldStep_ok hok with ⟨call, s, rfl, hcall, rfl⟩ | ⟨tx, s, rfl, htx, rfl⟩
    · exact hw.registry hcall
    · obtain ⟨now, call⟩ := tx
      exact hw.referendum hH (fun root secret hcall ↦ hpublished now root secret (hcall ▸ rfl)) htx
  · exact deployed_worldInvariant h₀ hroots
  · exact fun e he time root secret hcall ↦ isRegistryRoot_of_published hroots he hcall

omit [DecidableEq B] [DecidableEq D] in
/-- Two votes with one leaf spend one nullifier, if each of them is answered consistently. -/
theorem nullifier_eq_of_leaf_eq (hH : H.CollisionFree) {v w : CastVoteWitness B D}
    (hv : WitnessGuards H cfg v) (hw : WitnessGuards H cfg w) (hvagree : VoterAnswersAgree v)
    (hwagree : VoterAnswersAgree w) (hleaf : v.voterPath.leaf = w.voterPath.leaf) :
    voteNullifier H cfg v.nullifierVoterSecret = voteNullifier H cfg w.nullifierVoterSecret := by
  rw [hv.leaf, hw.leaf] at hleaf
  have hclaims := (credentialCommitment_injective hH hleaf).2
  have hbinding := congrArg CredentialClaims.holderBinding hclaims
  rw [leaf_binding hv hvagree, leaf_binding hw hwagree] at hbinding
  rw [(holderCommitment_injective hH hbinding).1]

theorem one_vote_per_credential (hH : H.CollisionFree) {s₀ : Ledger H}
    (h₀ : initialState H cfg = .ok s₀) {setup : List (CredentialRegistryV1.Call B D)}
    {acts : List (Action B D)} (hroots : RegistryRoots H reg cfg s₀ setup acts)
    (hagree : ∀ cw ∈ worldCasts (worldHistory H reg cfg (deployed H reg setup s₀) acts),
      VoterAnswersAgree cw) :
    OneVotePerCredential (worldHistory H reg cfg (deployed H reg setup s₀) acts)
      (runWorld H reg cfg (deployed H reg setup s₀) acts) := by
  have hworld := run_worldInvariant hH h₀ hroots
  generalize worldHistory H reg cfg (deployed H reg setup s₀) acts = h at hworld hagree
  generalize runWorld H reg cfg (deployed H reg setup s₀) acts = w at hworld
  have hdistinct : (castLeaves h).Nodup := by
    apply hworld.spent.nodup_map
    intro v hv cw hcw hleaf
    exact nullifier_eq_of_leaf_eq hH (hworld.proven v hv).1 (hworld.proven cw hcw).1
      (hagree v hv) (hagree cw hcw) hleaf
  have hregistered : ∀ leaf ∈ castLeaves h, leaf ∈ w.registry.credentials.leaves := by
    intro leaf hleaf
    obtain ⟨cw, hcw, rfl⟩ := List.mem_map.mp hleaf
    exact (hworld.proven cw hcw).2
  refine ⟨hdistinct, hregistered, ?_⟩
  rw [hworld.consistent.count]
  exact (List.subperm_of_subset hdistinct hregistered).length_le

/-! ## A concrete run -/

/-- The registry call that enrolls voter `n`. -/
def sampleEnroll (n : ℕ) : CredentialRegistryV1.Call Term Digest :=
  .addCredential (.uint 1)
    { holderBinding := (sampleClaims n).holderBinding
      credentialCountry := (sampleClaims n).country
      credentialAgeClass := (sampleClaims n).ageClass
      credentialAssurance := (sampleClaims n).assurance
      credentialValidUntil := (sampleClaims n).validUntil
      credentialBlind := (sampleClaims n).blind }

/-- Two voters are enrolled when the referendum is deployed. -/
def sampleSetup : List (CredentialRegistryV1.Call Term Digest) := [sampleEnroll 0, sampleEnroll 1]

def sampleWorld : World symbolic :=
  deployed symbolic CredentialRegistryV1.sampleSealed sampleSetup sampleInitial

/-- A third voter is enrolled and admitted while the first one has already voted. -/
def sampleActs : List (Action Term Digest) :=
  [.referendum (sampleVote 110 0 2 .yes 50), .registry (sampleEnroll 2),
    .referendum ⟨120, .publishCredentialRoot (sampleRoot 3) (.uint 2)⟩,
    .referendum (sampleVote 130 2 3 .no 51)]

theorem sampleActs_roots : RegistryRoots symbolic CredentialRegistryV1.sampleSealed sampleSealed
    sampleInitial sampleSetup sampleActs where
  initial := ⟨sampleSetup, List.prefix_rfl, by decide +kernel⟩
  published := by
    intro pre time root secret post hsplit
    rcases pre with _ | ⟨a, _ | ⟨b, _ | ⟨c, _ | ⟨d, pre⟩⟩⟩⟩ <;>
      simp [sampleActs, sampleVote] at hsplit
    obtain ⟨rfl, rfl, ⟨_, rfl, _⟩, _⟩ := hsplit
    exact Or.inr ⟨_, List.prefix_rfl, by decide +kernel⟩

theorem one_vote_per_credential_sample :
    OneVotePerCredential
        (worldHistory symbolic CredentialRegistryV1.sampleSealed sampleSealed sampleWorld sampleActs)
        (runWorld symbolic CredentialRegistryV1.sampleSealed sampleSealed sampleWorld sampleActs) ∧
      (castLeaves (worldHistory symbolic CredentialRegistryV1.sampleSealed sampleSealed sampleWorld
        sampleActs)).length = 2 :=
  ⟨one_vote_per_credential symbolic_collisionFree sampleInitial_ok sampleActs_roots
    (by decide +kernel), by decide +kernel⟩

/-- The first voter votes twice with one credential, answering the last call of `voterSecret` with
another secret the second time. -/
def doubleVote : List (Action Term Digest) :=
  [.referendum (sampleVote 110 0 2 .yes 50),
    .referendum ⟨120, .castVote { sampleWitness 0 2 .yes 51 with nullifierVoterSecret := .uint 999 }⟩]

theorem two_votes_with_one_credential :
    initialState symbolic sampleSealed = .ok sampleInitial ∧
      RegistryRoots symbolic CredentialRegistryV1.sampleSealed sampleSealed sampleInitial sampleSetup
        doubleVote ∧
      ¬ OneVotePerCredential
        (worldHistory symbolic CredentialRegistryV1.sampleSealed sampleSealed sampleWorld doubleVote)
        (runWorld symbolic CredentialRegistryV1.sampleSealed sampleSealed sampleWorld doubleVote) := by
  refine ⟨sampleInitial_ok, ⟨⟨sampleSetup, List.prefix_rfl, by decide +kernel⟩, ?_⟩, ?_⟩
  · intro pre time root secret post hsplit
    rcases pre with _ | ⟨a, _ | ⟨b, pre⟩⟩ <;> simp [doubleVote, sampleVote] at hsplit
  · intro hone
    exact absurd hone.distinct (by decide +kernel)

end MidnightReferendum.ReferendumV2
