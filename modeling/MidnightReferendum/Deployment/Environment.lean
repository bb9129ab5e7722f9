import MidnightReferendum.Deployment.RoundTrip

/-!
# The environment of a manifest

`passportV2ManifestRuntimeEnvironment` writes a complete manifest as the environment of the browser's build, which
`parsePassportV2RuntimeConfig` reads. Two validators of their own stand at the two ends.
-/

namespace MidnightReferendum.Deployment

open Js Checks Cico RuntimeConfig

/-! ## Writing -/

/-- `String(value)` of a number. The texts of the infinities are no numerals either. -/
def stringOfNumber (value : Option ℚ) : JsString := value.elim (js "NaN") numberText

def textOrNull (value : Option JsString) : Json := value.elim .null .string

/-- A referendum as it stands in the environment, without its description. -/
def ManifestReferendum.fields (referendum : ManifestReferendum) : List (JsString × Json) :=
  [(js "referendumId", .string referendum.referendumId),
    (js "contractAddress", textOrNull referendum.contractAddress),
    (js "registryContractBindingHex", textOrNull referendum.registryContractBindingHex),
    (js "registryContractAddress", textOrNull referendum.registryContractAddress),
    (js "eventIdHex", .string referendum.eventIdHex),
    (js "organizerKeyHex", .string referendum.organizerKeyHex),
    (js "rootPublisherKeyHex", .string referendum.rootPublisherKeyHex),
    (js "initialRootField", .string referendum.initialRootField),
    (js "acceptedRoots", .array (referendum.acceptedRoots.map .string)),
    (js "opensAtUnix", .string referendum.opensAtUnix),
    (js "enrollmentClosesAtUnix", .string referendum.enrollmentClosesAtUnix),
    (js "closesAtUnix", .string referendum.closesAtUnix),
    (js "revealClosesAtUnix", .string referendum.revealClosesAtUnix),
    (js "countryPolicy", textOrNull referendum.countryPolicy),
    (js "minimumAssurance", .string referendum.minimumAssurance),
    (js "requireAdult", .bool referendum.requireAdult),
    (js "validityReference", .string referendum.validityReference),
    (js "title", .string referendum.title),
    (js "question", .string referendum.question)]

/-- A description that is not empty. -/
def ManifestReferendum.descriptionFields (referendum : ManifestReferendum) : List (JsString × Json) :=
  (present referendum.description).elim [] fun description ↦ [(js "description", .string description)]

def ManifestReferendum.wire (referendum : ManifestReferendum) : Json :=
  .object (referendum.fields ++ referendum.descriptionFields)

def DeploymentManifest.wire (manifest : DeploymentManifest) : Json :=
  .array (manifest.referenda.map ManifestReferendum.wire)

/-- The variables of the environment. -/
def DeploymentManifest.variables (manifest : DeploymentManifest) : List (JsString × JsString) :=
  let registry := manifest.registry
  [(js "VITE_PASSPORT_V2_API_URL", manifest.runtime.apiUrl),
    (js "VITE_MIDNIGHT_NETWORK", js (networkName manifest.network)),
    (js "VITE_CICO_ISSUER_ID", registry.issuerId),
    (js "VITE_CICO_CREDENTIAL_EPOCH", registry.credentialEpoch),
    (js "VITE_CICO_CREDENTIAL_TTL_MS", stringOfNumber manifest.runtime.credentialTtlMs),
    (js "VITE_RARIMO_UNIQUENESS_TIMESTAMP_UPPER_BOUND", manifest.runtime.uniquenessTimestampUpperBoundUnixSeconds),
    (js "VITE_CICO_REGISTRY_ADDRESS", registry.contractAddress.getD []),
    (js "VITE_CICO_REGISTRY_CONTRACT_BINDING_HEX", registry.registryContractBindingHex.getD []),
    (js "VITE_CICO_REGISTRY_ID_HEX", registry.registryIdHex),
    (js "VITE_CICO_ISSUER_ID_HEX", registry.issuerIdHex),
    (js "VITE_CICO_FROZEN_ROOT_FIELD", registry.frozenRootField.getD []),
    (js "VITE_CICO_ENROLLMENT_MODEL", registry.enrollmentModel),
    (js "VITE_CICO_REFERENDA_JSON", manifest.wire.stringify)]

def passportV2ManifestRuntimeEnvironment (p : Platform) (manifest : Manifest) : Except JsString RuntimeEnv := do
  assertCompletePassportV2DeploymentManifest p manifest.record manifest.digestInput
  return fun name ↦ manifest.record.variables.lookup name

/-! ## What is to be configured -/

/-- The configuration has the values of the referendum. -/
structure ManifestReferendum.AgreesWith (referendum : ManifestReferendum) (entry : PassportV2RuntimeReferendum) : Prop where
  referendumId : entry.referendumId = referendum.referendumId
  contractAddress : some entry.contractAddress = referendum.contractAddress
  eventId : entry.config.eventId = hexBytes32 referendum.eventIdHex
  organizerKey : entry.config.organizerKey = hexBytes32 referendum.organizerKeyHex
  rootPublisherKey : entry.config.rootPublisherKey = hexBytes32 referendum.rootPublisherKeyHex
  opensAtUnix : entry.config.opensAtUnix = numeral referendum.opensAtUnix
  enrollmentClosesAtUnix : entry.config.enrollmentClosesAtUnix = numeral referendum.enrollmentClosesAtUnix
  closesAtUnix : entry.config.closesAtUnix = numeral referendum.closesAtUnix
  revealClosesAtUnix : entry.config.revealClosesAtUnix = numeral referendum.revealClosesAtUnix
  countryPolicy : some entry.config.countryPolicy = referendum.countryPolicy.elim (some emptyBytes) padBytes32
  countryPolicyEnabled : entry.config.countryPolicyEnabled = referendum.countryPolicy.isSome
  minimumAssurance : entry.config.minimumAssurance = numeral referendum.minimumAssurance
  requireAdult : entry.config.requireAdult = referendum.requireAdult
  validityReference : entry.config.validityReference = numeral referendum.validityReference

/-- The configuration has the values of the manifest. -/
structure DeploymentManifest.AgreesWith (p : Platform) (manifest : DeploymentManifest) (config : PassportV2RuntimeConfig) :
    Prop where
  network : config.network = manifest.network
  issuerId : config.issuerId = manifest.registry.issuerId
  registryIssuerId : config.registry.issuerId = hexBytes32 manifest.registry.issuerIdHex
  credentialEpoch : config.credentialEpoch = numeral manifest.registry.credentialEpoch
  credentialTtlMs : some (config.credentialTtlMs : ℚ) = manifest.runtime.credentialTtlMs
  registryContractAddress : some config.registry.registryContractAddress = manifest.registry.contractAddress
  registryContractBinding : manifest.registry.registryContractBindingHex.map (stripHexPrefix p) =
    some (bytesToHex config.registry.registryContractBinding.toList)
  referenda : List.Forall₂ ManifestReferendum.AgreesWith manifest.referenda config.referenda

/-- The parser reads the environment of the manifest as a configuration with its values. -/
def Configures (p : Platform) (dates : DateParser) (manifest : Manifest) : Prop :=
  ∃ env config, passportV2ManifestRuntimeEnvironment p manifest = .ok env ∧
    parsePassportV2RuntimeConfig p.persistentHash dates env = .ok (some config) ∧ manifest.record.AgreesWith p config

/-! ## What can be configured -/

/-- A text without white space at its ends. -/
def IsTrimmed (text : JsString) : Prop := trimmed text = text

instance (text : JsString) : Decidable (IsTrimmed text) := inferInstanceAs (Decidable (_ = _))

/-- The ranges of the parser for a referendum. -/
structure ManifestReferendum.Configurable (referendum : ManifestReferendum) : Prop where
  referendumId : IsTrimmed referendum.referendumId
  contractAddress : ∀ address ∈ referendum.contractAddress, IsTrimmed address
  countryPolicy : ∀ policy ∈ referendum.countryPolicy, IsTrimmed policy ∧ policy ≠ [] ∧ (padBytes32 policy).isSome
  minimumAssurance : numeral referendum.minimumAssurance < 2 ^ 8
  revealClosesAtUnix : numeral referendum.revealClosesAtUnix < 2 ^ 64
  validityReference : numeral referendum.validityReference < 2 ^ 64

/-- A whole number that the language represents exactly. -/
def IsSafe (n : ℕ) : Prop := n ≤ maxSafeInteger

instance (n : ℕ) : Decidable (IsSafe n) := inferInstanceAs (Decidable (_ ≤ _))

/-- The registry is frozen, and the texts and the numbers are in the ranges of the parser. -/
structure DeploymentManifest.Configurable (manifest : DeploymentManifest) : Prop where
  frozenRoot : ∃ root, manifest.registry.frozenRootField = some root ∧ numeral root < 2 ^ 256
  issuerId : IsTrimmed manifest.registry.issuerId
  issuerIdHex : padBytes32 manifest.registry.issuerId = some (hexBytes32 manifest.registry.issuerIdHex)
  credentialEpoch : IsSafe (numeral manifest.registry.credentialEpoch)
  credentialTtlMs : ∃ ttl : ℕ, manifest.runtime.credentialTtlMs = some (ttl : ℚ) ∧ 1000 ≤ ttl ∧ ttl ≤ 2592000000
  upperBound : ∃ seconds : ℕ, trimmed manifest.runtime.uniquenessTimestampUpperBoundUnixSeconds ≠ [] ∧
    PrivateState.bigintOf? (trimmed manifest.runtime.uniquenessTimestampUpperBoundUnixSeconds) = some (seconds : ℤ) ∧
    IsSafe seconds
  registryAddress : ∀ address ∈ manifest.registry.contractAddress, IsTrimmed address
  referenda : ∀ referendum ∈ manifest.referenda, referendum.Configurable

end MidnightReferendum.Deployment
