import MidnightReferendum.Compact.Runtime

/-!
# Credential commitments

The registry and the referendum build the same commitments from their own witnesses: a credential
leaf commits to the claims of a holder and a holder binding commits to the holder's voter secret.
-/

namespace MidnightReferendum.Compact

variable {B D : Type} (H : Hashing B D)

/-- The opening of a credential leaf, apart from its issuer. -/
structure CredentialClaims (B : Type) where
  holderBinding : B
  country : B
  ageClass : UInt8
  assurance : UInt8
  epoch : UInt64
  validUntil : UInt64
  blind : B
  deriving DecidableEq

/-- `roleKey(domain, secret)` -/
def roleKey (domain secret : B) : B := H.persistentHash [domain, secret]

/-- The commitment to the claims of one credential. -/
def credentialCommitment (issuerId : B) (c : CredentialClaims B) : B :=
  H.persistentCommit
    [H.pad "cico:credential:v1", c.holderBinding, issuerId, c.country,
      H.asBytes32 c.ageClass.toNat, H.asBytes32 c.assurance.toNat, H.asBytes32 c.epoch.toNat,
      H.asBytes32 c.validUntil.toNat] c.blind

/-- The commitment to a voter secret. -/
def holderCommitment (voterSecret holderBlind : B) : B :=
  H.persistentCommit [H.pad "cico:holder-bind:v1", voterSecret] holderBlind

variable {H}

/-- A credential leaf opens to one issuer and one record of claims. -/
theorem credentialCommitment_injective (hH : H.CollisionFree) {i i' : B}
    {c c' : CredentialClaims B} (h : credentialCommitment H i c = credentialCommitment H i' c') :
    i = i' ∧ c = c' := by
  obtain ⟨hvector, hblind⟩ := hH.persistentCommit_injective h
  simp only [List.cons.injEq, true_and, and_true] at hvector
  obtain ⟨hholder, hissuer, hcountry, hage, hassurance, hepoch, hvalid⟩ := hvector
  have hage' := hH.asBytes32_injective (by have := c.ageClass.toNat_lt; omega)
    (by have := c'.ageClass.toNat_lt; omega) hage
  have hassurance' := hH.asBytes32_injective (by have := c.assurance.toNat_lt; omega)
    (by have := c'.assurance.toNat_lt; omega) hassurance
  have hepoch' := hH.asBytes32_injective c.epoch.toNat_lt c'.epoch.toNat_lt hepoch
  have hvalid' := hH.asBytes32_injective c.validUntil.toNat_lt c'.validUntil.toNat_lt hvalid
  refine ⟨hissuer, ?_⟩
  cases c
  cases c'
  simp_all only [UInt8.toNat_inj, UInt64.toNat_inj]

theorem holderCommitment_injective (hH : H.CollisionFree) {s s' b b' : B}
    (h : holderCommitment H s b = holderCommitment H s' b') : s = s' ∧ b = b' := by
  obtain ⟨hvector, hblind⟩ := hH.persistentCommit_injective h
  simp only [List.cons.injEq, true_and, and_true] at hvector
  exact ⟨hvector, hblind⟩

end MidnightReferendum.Compact
