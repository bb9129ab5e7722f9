import MidnightReferendum.Passport.RuntimeConfig
import MidnightReferendum.ReferendumV2.Effects

/-!
# The catalog of referenda

`passport-v2-catalog.ts` says of each configured referendum whether a credential may vote in it, and
`midnight-civic-action-adapter.ts` derives the answers to the witness calls of `castVote` from the claims of the
credential.
-/

namespace MidnightReferendum.Catalog

open Js Cico RuntimeConfig ReferendumV2 MidnightReferendum.Compact Merkle

/-! ## Items -/

inductive PassportReferendumScope where
  | global
  | country
  deriving DecidableEq

structure PassportV2CatalogItem where
  referendumId : JsString
  title : JsString
  question : JsString
  description : Option JsString
  opened : Option JsString
  deadline : Option JsString
  opensAt : Option JsString
  closesAt : Option JsString
  eligible : Option JsString
  participation : Option JsString
  scope : PassportReferendumScope
  source : Option PassportV2RuntimeReferendum

def toPassportV2CatalogItem (entry : PassportV2RuntimeReferendum) : PassportV2CatalogItem where
  referendumId := entry.referendumId
  title := entry.title
  question := entry.question
  description := entry.description
  opened := entry.opened
  deadline := entry.deadline
  opensAt := entry.opensAt
  closesAt := entry.closesAt
  eligible := entry.eligible
  participation := entry.participation
  scope := if entry.config.countryPolicyEnabled then .country else .global
  source := some entry

def toPassportV2Catalog (referenda : List PassportV2RuntimeReferendum) : List PassportV2CatalogItem :=
  referenda.map toPassportV2CatalogItem

/-! ## Eligibility -/

/-- The claims of a credential, as its summary and its private material hold them. -/
structure CredentialSummary where
  country : JsString
  ageClass : CredentialAgeClass
  assurance : CredentialAssurance
  credentialEpoch : JsNumber
  validUntil : JsString

/-- `new TextDecoder().decode(bytes)`, which drops a byte order mark -/
def textDecode (bytes : List UInt8) : JsString :=
  decodeUtf8 (if bytes.take 3 = [0xEF, 0xBB, 0xBF] then bytes.drop 3 else bytes)

/-- `/^[0-9]{3}$/u` -/
def isCountryCode (text : JsString) : Bool := text.length == 3 && text.all isDecimalDigit

/-- `text.replace(/\0+$/u, '')` -/
def withoutNuls (text : JsString) : JsString := (text.reverse.dropWhile (· == 0)).reverse

def countryPolicyCode (item : PassportV2CatalogItem) : Option JsString :=
  match item.scope, item.source with
  | .country, some source =>
    let decoded := withoutNuls (textDecode source.config.countryPolicy.toList)
    if isCountryCode decoded then some decoded else none
  | _, _ => none

def assuranceLevel : CredentialAssurance → ℕ
  | .selfAsserted => 0
  | .document => 1
  | .documentNfc => 2
  | .passportNative => 3

structure Eligibility where
  available : Bool
  reason : Option String
  deriving DecidableEq

def unavailable (reason : String) : Eligibility := ⟨false, some reason⟩

/-- `Math.floor(milliseconds / 1_000)`, if it is a safe integer -/
def validUntilSeconds (dates : DateParser) (validUntil : JsString) : Option ℤ :=
  (dates.parse validUntil).bind fun milliseconds ↦
    if |milliseconds / 1000| ≤ maxSafeInteger then some (milliseconds / 1000) else none

/-- The checks of a source, which end in the reason of the first that fails. -/
def sourceRefusal (dates : DateParser) (policy : ReferendumV2ExecutorConfig) (credential : CredentialSummary)
    (credentialEpoch : ℤ) : Option Eligibility :=
  if credentialEpoch ≠ policy.registry.credentialEpoch then
    if policy.registry.credentialEpoch < credentialEpoch then
      some (unavailable "Esta consulta usa una cohorte anterior. Tu credencial quedará disponible para una consulta de su propio epoch.")
    else
      some (unavailable "Esta consulta requiere una cohorte más reciente. Renová la credencial para el próximo epoch.")
  else if ¬(validUntilSeconds dates credential.validUntil).any (fun seconds ↦ (policy.validityReference : ℤ) ≤ seconds) then
    some (unavailable "La credencial no cubre la fecha de validez exigida por esta consulta.")
  else if assuranceLevel credential.assurance < policy.minimumAssurance then
    some (unavailable "Esta consulta requiere un nivel de verificación documental superior.")
  else if policy.requireAdult ∧ credential.ageClass ≠ .adult then
    some (unavailable "La credencial no cumple el predicado de edad configurado.")
  else none

/-- The check of the country of an item. -/
def countryEligibility (item : PassportV2CatalogItem) (country : JsString) : Eligibility :=
  match item.scope with
  | .global => ⟨true, none⟩
  | .country =>
    match countryPolicyCode item with
    | none => unavailable "No pudimos comprobar en privado la política territorial. Esta consulta no está disponible."
    | some policyCountry =>
      if policyCountry ≠ country then
        unavailable "Esta consulta requiere otra política territorial; tu país no se comparte."
      else ⟨true, none⟩

/-- `catalogEligibility`, which throws if the epoch is not an integer. -/
def catalogEligibility (dates : DateParser) (item : PassportV2CatalogItem) (credential : Option CredentialSummary) :
    Option Eligibility :=
  match credential with
  | none => some (unavailable "Necesitás una credencial cívica vigente.")
  | some credential =>
    match item.source with
    | none => some (countryEligibility item credential.country)
    | some source => do
      let credentialEpoch ← JsNumber.bigint? credential.credentialEpoch
      return (sourceRefusal dates source.config credential credentialEpoch).getD
        (countryEligibility item credential.country)

/-! ## Witnesses -/

section Witnesses

variable {D : Type}

/-- `CivicCredentialPrivateMaterial`, as far as it is read for a vote. -/
structure CivicCredentialPrivateMaterial where
  voterSecret : Bytes32
  holderBinding : Bytes32
  holderBlind : Bytes32
  credentialBlind : Bytes32
  claims : CredentialSummary

/-- `ReferendumV2PrivateState` of a voter -/
structure VoterPrivateState (D : Type) where
  voterSecret : Bytes32
  holderBinding : Bytes32
  holderBlind : Bytes32
  credentialBlind : Bytes32
  credentialCountry : Bytes32
  credentialAgeClass : ℕ
  credentialAssurance : ℕ
  credentialClaimEpoch : ℤ
  credentialValidUntil : ℤ
  voterPath : Path Bytes32 D 16
  voterChoice : Choice
  voteSalt : Bytes32

def buildReferendumV2VoterPrivateState (dates : DateParser) (material : CivicCredentialPrivateMaterial)
    (voterPath : Path Bytes32 D 16) (choice : Choice) (voteSalt : Bytes32) : Option (VoterPrivateState D) := do
  let credentialCountry ← padBytes32 material.claims.country
  let credentialClaimEpoch ← JsNumber.bigint? material.claims.credentialEpoch
  let credentialValidUntil ← isoTimestampSeconds dates.parse material.claims.validUntil
  return {
    voterSecret := material.voterSecret
    holderBinding := material.holderBinding
    holderBlind := material.holderBlind
    credentialBlind := material.credentialBlind
    credentialCountry
    credentialAgeClass := ageClassCode material.claims.ageClass
    credentialAssurance := assuranceCode material.claims.assurance
    credentialClaimEpoch
    credentialValidUntil
    voterPath
    voterChoice := choice
    voteSalt }

/-- The values that the runtime takes for a `Uint<64>`. -/
def IsUint64 (value : ℤ) : Prop := 0 ≤ value ∧ value < 2 ^ 64

instance (value : ℤ) : Decidable (IsUint64 value) := inferInstanceAs (Decidable (_ ∧ _))

/-- The answers to the witness calls of `castVote` from a private state. -/
def castVoteWitness (state : VoterPrivateState D) : Option (CastVoteWitness Bytes32 D) :=
  if IsUint64 state.credentialClaimEpoch ∧ IsUint64 state.credentialValidUntil then
    some {
      boundVoterSecret := state.voterSecret
      holderBlind := state.holderBlind
      assertedHolderBinding := state.holderBinding
      leafClaims := {
        holderBinding := state.holderBinding
        country := state.credentialCountry
        ageClass := state.credentialAgeClass.toUInt8
        assurance := state.credentialAssurance.toUInt8
        epoch := state.credentialClaimEpoch.toNat.toUInt64
        validUntil := state.credentialValidUntil.toNat.toUInt64
        blind := state.credentialBlind }
      voterPath := state.voterPath
      checkedClaimEpoch := state.credentialClaimEpoch.toNat.toUInt64
      checkedValidUntil := state.credentialValidUntil.toNat.toUInt64
      checkedCountry := state.credentialCountry
      checkedAgeClass := state.credentialAgeClass.toUInt8
      checkedAssurance := state.credentialAssurance.toUInt8
      nullifierVoterSecret := state.voterSecret
      voterChoice := state.voterChoice
      voteSalt := state.voteSalt }
  else none

/-- The referendum is deployed with the policy of a configuration. -/
structure DeployedWith (cfg : Sealed Bytes32 D) (policy : ReferendumV2ExecutorConfig) : Prop where
  credentialEpoch : cfg.credentialEpoch.toNat = policy.registry.credentialEpoch
  countryPolicy : cfg.countryPolicy = policy.countryPolicy
  countryPolicyEnabled : cfg.countryPolicyEnabled = policy.countryPolicyEnabled
  minimumAssurance : cfg.minimumAssurance.toNat = policy.minimumAssurance
  requireAdult : cfg.requireAdult = policy.requireAdult
  validityReference : cfg.validityReference.toNat = policy.validityReference

/-- The checks of `castVote` on epoch, validity, country, age and assurance. -/
structure PassesPolicy {B : Type} (cfg : Sealed B D) (w : CastVoteWitness B D) : Prop where
  epoch : w.checkedClaimEpoch = cfg.credentialEpoch
  validity : cfg.validityReference ≤ w.checkedValidUntil
  country : cfg.countryPolicyEnabled = true → w.checkedCountry = cfg.countryPolicy
  adult : cfg.requireAdult = true → w.checkedAgeClass = 2
  assurance : 0 < cfg.minimumAssurance → cfg.minimumAssurance ≤ w.checkedAssurance

/-- They are the checks of the circuit on the prover's answers, beside those on the leaf and the holder. -/
theorem witnessGuards_iff {B : Type} {H : Hashing B D} {cfg : Sealed B D} {w : CastVoteWitness B D} :
    WitnessGuards H cfg w ↔ holderBindingFromVoter H w = w.assertedHolderBinding ∧
      w.voterPath.leaf = credentialLeaf H cfg w ∧ PassesPolicy cfg w := by
  constructor
  · intro h
    exact ⟨h.binding, h.leaf, h.epoch, h.validity, h.country, h.adult, h.assurance⟩
  · intro ⟨hbinding, hleaf, h⟩
    exact ⟨hbinding, hleaf, h.epoch, h.validity, h.country, h.adult, h.assurance⟩

end Witnesses

end MidnightReferendum.Catalog
