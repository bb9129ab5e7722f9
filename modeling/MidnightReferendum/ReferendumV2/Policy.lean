import MidnightReferendum.ReferendumV2.Conservation

/-!
# The credential policy against an adversarial prover

`castVote` asks for the claims twice: once to rebuild the credential leaf and once to compare them
with the sealed policy. It also asks twice for the voter secret and for the holder binding. Nothing
ties the two answers of one witness together, so the policy holds of the proven leaf when the prover
answers alike, and only then is the nullifier that of the credential's holder.
-/

namespace MidnightReferendum.ReferendumV2

open MidnightReferendum.Compact Execution Merkle

variable {B D : Type} {H : Hashing B D} {cfg : Sealed B D}

/-- Both calls of `voterSecret` and both calls of `holderBinding` are answered alike. -/
structure VoterAnswersAgree (w : CastVoteWitness B D) : Prop where
  secret : w.nullifierVoterSecret = w.boundVoterSecret
  binding : w.leafClaims.holderBinding = w.assertedHolderBinding

instance [DecidableEq B] (w : CastVoteWitness B D) : Decidable (VoterAnswersAgree w) :=
  decidable_of_iff (w.nullifierVoterSecret = w.boundVoterSecret ∧
      w.leafClaims.holderBinding = w.assertedHolderBinding)
    ⟨fun h ↦ ⟨h.1, h.2⟩, fun h ↦ ⟨h.1, h.2⟩⟩

/-- The claims that the policy checks ask for again are answered as in the leaf. -/
structure ClaimAnswersAgree (cfg : Sealed B D) (w : CastVoteWitness B D) : Prop where
  epoch : w.leafClaims.epoch = w.checkedClaimEpoch
  validUntil : w.leafClaims.validUntil = w.checkedValidUntil
  country : cfg.countryPolicyEnabled = true → w.leafClaims.country = w.checkedCountry
  ageClass : cfg.requireAdult = true → w.leafClaims.ageClass = w.checkedAgeClass
  assurance : 0 < cfg.minimumAssurance → w.leafClaims.assurance = w.checkedAssurance

/-- The sealed policy of a referendum. -/
structure MeetsPolicy (cfg : Sealed B D) (c : CredentialClaims B) : Prop where
  epoch : c.epoch = cfg.credentialEpoch
  validity : cfg.validityReference ≤ c.validUntil
  country : cfg.countryPolicyEnabled = true → c.country = cfg.countryPolicy
  adult : cfg.requireAdult = true → c.ageClass = 2
  assurance : 0 < cfg.minimumAssurance → cfg.minimumAssurance ≤ c.assurance

/-- The leaf that a vote proves to lie under an accepted root is a credential that meets the policy,
however it is opened, and it is bound to the secret whose nullifier the vote spends. -/
structure PolicySound (H : Hashing B D) (cfg : Sealed B D) (s : Ledger H) (w : CastVoteWitness B D) :
    Prop where
  root : pathRoot H.tree w.voterPath ∈ s.acceptedCredentialRoots
  opened : ∃ claims, w.voterPath.leaf = credentialCommitment H cfg.issuerId claims
  policy : ∀ issuer claims, w.voterPath.leaf = credentialCommitment H issuer claims →
    issuer = cfg.issuerId ∧ MeetsPolicy cfg claims ∧
      ∃ blind, claims.holderBinding = holderCommitment H w.nullifierVoterSecret blind

theorem meetsPolicy_leafClaims {w : CastVoteWitness B D} (hguards : WitnessGuards H cfg w)
    (hclaims : ClaimAnswersAgree cfg w) : MeetsPolicy cfg w.leafClaims where
  epoch := hclaims.epoch.trans hguards.epoch
  validity := hclaims.validUntil ▸ hguards.validity
  country h := (hclaims.country h).trans (hguards.country h)
  adult h := (hclaims.ageClass h).trans (hguards.adult h)
  assurance h := hclaims.assurance h ▸ hguards.assurance h

/-- The proven leaf is bound to the secret of the nullifier. -/
theorem leaf_binding {w : CastVoteWitness B D} (hguards : WitnessGuards H cfg w)
    (hvoter : VoterAnswersAgree w) :
    w.leafClaims.holderBinding = holderCommitment H w.nullifierVoterSecret w.holderBlind := by
  rw [hvoter.binding, ← hguards.binding, hvoter.secret, holderBindingFromVoter]

theorem policySound_of_guards (hH : H.CollisionFree) {s : Ledger H} {now : UInt64}
    {w : CastVoteWitness B D} (hguards : CastVoteGuards cfg s now w)
    (hvoter : VoterAnswersAgree w) (hclaims : ClaimAnswersAgree cfg w) : PolicySound H cfg s w := by
  have hleaf : w.voterPath.leaf = credentialCommitment H cfg.issuerId w.leafClaims :=
    hguards.witness.leaf
  constructor
  · exact hguards.root
  · exact ⟨w.leafClaims, hleaf⟩
  · intro issuer claims hopened
    obtain ⟨hissuer, hsame⟩ := credentialCommitment_injective hH (hleaf.symm.trans hopened)
    rw [← hissuer, ← hsame]
    exact ⟨rfl, meetsPolicy_leafClaims hguards.witness hclaims, w.holderBlind,
      leaf_binding hguards.witness hvoter⟩

variable [DecidableEq B] [DecidableEq D]

/-- In every run, an accepted vote whose repeated witness calls are answered alike is sound. -/
theorem policy_sound (hH : H.CollisionFree) (s₀ : Ledger H) (txs : List (Tx B D)) :
    ∀ e ∈ history H cfg s₀ txs, ∀ w, e.2.call = .castVote w → VoterAnswersAgree w →
      ClaimAnswersAgree cfg w → PolicySound H cfg e.1 w := by
  intro e he w hcall hvoter hclaims
  obtain ⟨_, _, s', _, _, hok⟩ := mem_accepted he
  obtain ⟨s, now, call⟩ := e
  obtain rfl : call = .castVote w := hcall
  exact policySound_of_guards hH (castVote_ok.mp hok).1 hvoter hclaims

theorem policy_sound_sample :
    PolicySound symbolic sampleSealed sampleInitial (sampleWitness 0 2 .yes 50) :=
  have hmem : (sampleInitial, sampleVote 110 0 2 .yes 50) ∈
      history symbolic sampleSealed sampleInitial [sampleVote 110 0 2 .yes 50] :=
    mem_accepted_concat [] (by decide +kernel)
  policy_sound symbolic_collisionFree sampleInitial _ _ hmem _ rfl ⟨rfl, rfl⟩
    ⟨rfl, rfl, fun _ ↦ rfl, fun _ ↦ rfl, fun _ ↦ rfl⟩

/-- A referendum for the voters of another country. -/
def foreignSealed : Sealed Term Digest := { sampleSealed with countryPolicy := .text "076" }

/-- The answers of voter zero, except that the country is answered as the policy wants it the second
time, and the nullifier is that of another secret. -/
def untiedWitness : CastVoteWitness Term Digest :=
  { sampleWitness 0 2 .yes 50 with
    checkedCountry := .text "076"
    nullifierVoterSecret := .uint 999 }

/-- The vote is accepted, but its credential is of the wrong country and is not bound to the secret
whose nullifier it spends. -/
theorem policy_unsound :
    initialState symbolic foreignSealed = .ok sampleInitial ∧
      (sampleInitial, ⟨110, .castVote untiedWitness⟩) ∈
        history symbolic foreignSealed sampleInitial [⟨110, .castVote untiedWitness⟩] ∧
      ¬ PolicySound symbolic foreignSealed sampleInitial untiedWitness := by
  refine ⟨initialState_ok.mpr ⟨⟨by decide, by decide, by decide, by decide, by decide⟩, rfl⟩,
    mem_accepted_concat [] (by decide +kernel), ?_⟩
  intro hsound
  have hpolicy := (hsound.policy (.uint 4) (sampleClaims 0) (by decide +kernel)).2.1
  exact absurd (hpolicy.country rfl) (by decide)

end MidnightReferendum.ReferendumV2
