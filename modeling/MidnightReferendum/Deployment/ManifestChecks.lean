import MidnightReferendum.Deployment.Manifest

/-!
# Checks of the manifest

`validatePassportV2DeploymentManifest` for every manifest that is written, and the checks of a complete one, which ends with
the digest over the rest of it. Each check throws its message, and the first that fails decides.
-/

namespace MidnightReferendum.Deployment

open Js Checks Reader RuntimeConfig Cico

/-- A parsed `URL` -/
structure Url where
  protocol : JsString
  username : JsString
  password : JsString
  hostname : JsString
  search : JsString
  hash : JsString

/-- What the checks use of the language and of the packages. -/
structure Platform where
  sha256 : List UInt8 → List UInt8
  persistentHash : List Bytes32 → Bytes32
  /-- `new URL(value)`, or nothing when it throws -/
  parseUrl : JsString → Option Url
  /-- `Date.parse`, with nothing for `NaN` -/
  parseDate : JsString → Option ℤ
  toLowerCase : JsString → JsString

variable (p : Platform)

/-! ## Texts -/

/-- `/^[0-9a-f]{count}$/iu` -/
def isHexOf (count : ℕ) (text : JsString) : Bool := text.length == count && text.all fun u ↦ (hexValue? u).isSome

/-- `/^[0-9]+$/u` -/
def isDecimal (text : JsString) : Bool := !text.isEmpty && text.all isDecimalDigit

def stripHexPrefix (value : JsString) : JsString :=
  p.toLowerCase (if value.take 2 = js "0x" then value.drop 2 else value)

def assertHex32 (value label : JsString) : Except JsString Unit :=
  check (isHex32 value) (label ++ js " must be 32-byte hexadecimal data")

def assertDecimal (value label : JsString) : Except JsString Unit :=
  check (isDecimal value) (label ++ js " must be an unsigned decimal string")

/-- A list goes through its checks one after the other. -/
def assertAll {α : Type} (assert : α → Except JsString Unit) : List α → Except JsString Unit
  | [] => .ok ()
  | item :: items => do
    assert item
    assertAll assert items

/-! ## Parts of every manifest -/

def forbiddenFields : List JsString :=
  ["secret", "seed", "seedphrase", "witness", "proof", "credentialblind", "credentialleaf", "votersecret", "votesalt",
    "capabilitytoken", "holdersecret", "holderblind", "credentialopening", "choice", "passportprofile", "privatestate",
    "rawproof"].map js

/-- `key.toLowerCase().replace(/[^a-z0-9]/gu, '')` -/
def normalizedKey (key : JsString) : JsString :=
  (p.toLowerCase key).filter fun u ↦ (0x61 ≤ u && u ≤ 0x7A) || (0x30 ≤ u && u ≤ 0x39)

def assertNoPrivateManifestFields (value : JsValue) : Except JsString Unit :=
  check (∀ name ∈ value.names, normalizedKey p name ∉ forbiddenFields)
    (js "Manifest contains private fixture material")

/-- The URL names no credentials, query or fragment. -/
def Url.isPlain (url : Url) : Bool :=
  url.username.isEmpty && url.password.isEmpty && url.search.isEmpty && url.hash.isEmpty

def assertPublicUrl (value label : JsString) : Except JsString Unit :=
  match p.parseUrl value with
  | none => .error (label ++ js " must be an absolute public URL")
  | some parsed => do
    check (parsed.protocol ∈ [js "http:", js "https:", js "ws:", js "wss:"])
      (label ++ js " uses an unsupported URL protocol")
    check (parsed.isPlain) (label ++ js " must not contain credentials, query strings, or fragments")

def assertRuntimeApiUrl (value : JsString) (network : RuntimeNetwork) : Except JsString Unit :=
  match p.parseUrl value with
  | none => .error (js "runtime apiUrl must be an absolute public URL")
  | some parsed => do
    check (parsed.protocol = js "http:" ∨ parsed.protocol = js "https:") (js "runtime apiUrl must use HTTP or HTTPS")
    check (parsed.isPlain) (js "runtime apiUrl must not contain credentials, query strings, or fragments")
    let isLocal := decide (p.toLowerCase parsed.hostname ∈ [js "localhost", js "127.0.0.1", js "[::1]"])
    check (¬(network = .preview ∧ parsed.protocol ≠ js "https:")) (js "Preview runtime apiUrl must use HTTPS")
    check (¬(network = .undeployed ∧ parsed.protocol = js "http:" ∧ isLocal = false))
      (js "Undeployed HTTP runtime apiUrl must target a local host")

def assertPublicArtifacts (artifacts : ManifestArtifacts) : Except JsString Unit :=
  assertAll (fun entry ↦ check (¬isBlank entry.2) (js "Manifest artifact " ++ entry.1 ++ js " is required"))
    artifacts.texts

def assertPublicEndpoints (endpoints : ManifestEndpoints) : Except JsString Unit :=
  assertAll (fun entry ↦ entry.2.elim (.ok ()) fun value ↦ assertPublicUrl p value (js "endpoint " ++ entry.1))
    endpoints.entries

def assertAmount (value : Option JsString) (label : String) : Except JsString Unit :=
  value.elim (.ok ()) fun value ↦ assertDecimal value (js label)

def assertInstant (value : Option JsString) (label : String) : Except JsString Unit :=
  value.elim (.ok ()) fun value ↦ check (p.parseDate value).isSome (js label ++ js " must be an ISO timestamp")

def assertDust (dust : ManifestDust) : Except JsString Unit := do
  assertAmount dust.before "dust.before"
  assertAmount dust.after "dust.after"
  assertAmount dust.spent "dust.spent"
  assertInstant p dust.beforeObservedAt "dust.beforeObservedAt"
  assertInstant p dust.afterObservedAt "dust.afterObservedAt"
  assertInstant p dust.valuationAt "dust.valuationAt"
  match dust.before, dust.after, dust.spent with
  | some before, some after, some spent =>
    check (numeral after ≤ numeral before ∧ numeral before - numeral after = numeral spent)
      (js "DUST accounting must satisfy before - after = spent")
  | _, _, _ => .ok ()

/-- The binding of the registry is that of its address, where both are there. -/
def assertBinding (registry : ManifestRegistry) : Except JsString Unit :=
  match registry.registryContractBindingHex with
  | none => .ok ()
  | some binding => do
    assertHex32 binding (js "registryContractBindingHex")
    match registry.contractAddress with
    | none => .ok ()
    | some contractAddress => do
      let expected ← (deriveRegistryContractBinding p.persistentHash contractAddress).mapError js
      check (stripHexPrefix p binding = bytesToHex expected.toList)
        (js "Manifest registry contract binding does not match its address")

/-- The registry is frozen, or it is open and has no frozen root. -/
def assertEnrollmentModel (registry : ManifestRegistry) : Except JsString Unit := do
  check (registry.enrollmentModel = js "open" ∨ registry.enrollmentModel = js "frozen")
    (js "Manifest registry enrollmentModel must be \"open\" or \"frozen\"")
  if registry.enrollmentModel = js "open" then do
    check (registry.frozen = false) (js "Manifest registry with an open enrollmentModel must not be frozen")
    check (registry.frozenRootField = none)
      (js "Manifest registry with an open enrollmentModel must not carry a frozenRootField")
  else check (registry.frozen = true) (js "Manifest registry with a frozen enrollmentModel must be frozen")

def assertRegistry (registry : ManifestRegistry) : Except JsString Unit := do
  assertHex32 registry.registryIdHex (js "registryIdHex")
  assertHex32 registry.issuerIdHex (js "issuerIdHex")
  assertBinding p registry
  check (¬isBlank registry.issuerId) (js "Manifest issuerId is required")
  assertDecimal registry.credentialEpoch (js "credentialEpoch")
  assertEnrollmentModel registry

/-- The accepted roots after those that were seen. -/
def assertRoots (referendumId : JsString) : List JsString → List JsString → Except JsString Unit
  | _, [] => .ok ()
  | seenRoots, root :: roots => do
    assertDecimal root (referendumId ++ js " acceptedRoots entry")
    check (root ∉ seenRoots)
      (js "Manifest referendum " ++ referendumId ++ js " acceptedRoots must not contain duplicates")
    assertRoots referendumId (root :: seenRoots) roots

def assertSchedule (referendum : ManifestReferendum) : Except JsString Unit := do
  let id := referendum.referendumId
  let manifestReferendum := js "Manifest referendum " ++ id
  assertDecimal referendum.opensAtUnix (id ++ js " opensAtUnix")
  assertDecimal referendum.enrollmentClosesAtUnix (id ++ js " enrollmentClosesAtUnix")
  assertDecimal referendum.closesAtUnix (id ++ js " closesAtUnix")
  assertDecimal referendum.revealClosesAtUnix (id ++ js " revealClosesAtUnix")
  let opensAt := numeral referendum.opensAtUnix
  let enrollmentClosesAt := numeral referendum.enrollmentClosesAtUnix
  let closesAt := numeral referendum.closesAtUnix
  check (opensAt ≤ enrollmentClosesAt ∧ enrollmentClosesAt ≤ closesAt)
    (manifestReferendum ++ js " schedule must satisfy opensAtUnix <= enrollmentClosesAtUnix <= closesAtUnix")
  check (opensAt < closesAt) (manifestReferendum ++ js " must satisfy opensAtUnix < closesAtUnix")
  check (closesAt < numeral referendum.revealClosesAtUnix)
    (manifestReferendum ++ js " must satisfy closesAtUnix < revealClosesAtUnix")

/-- The value of the referendum is that of the registry, where both are there. -/
def assertBoundTo (value expected : Option JsString) (label mismatch : JsString) : Except JsString Unit :=
  match value with
  | none => .ok ()
  | some value => do
    assertHex32 value label
    expected.elim (.ok ()) fun expected ↦ check (stripHexPrefix p value = stripHexPrefix p expected) mismatch

def assertReferendum (registry : ManifestRegistry) (referendum : ManifestReferendum) : Except JsString Unit := do
  let id := referendum.referendumId
  let manifestReferendum := js "Manifest referendum " ++ id
  assertHex32 referendum.eventIdHex (id ++ js " eventIdHex")
  assertHex32 referendum.organizerKeyHex (id ++ js " organizerKeyHex")
  assertHex32 referendum.rootPublisherKeyHex (id ++ js " rootPublisherKeyHex")
  check (stripHexPrefix p referendum.rootPublisherKeyHex ≠ stripHexPrefix p referendum.organizerKeyHex)
    (manifestReferendum ++ js " rootPublisherKeyHex must not equal organizerKeyHex")
  assertDecimal referendum.initialRootField (id ++ js " initialRootField")
  check (referendum.acceptedRoots ≠ []) (manifestReferendum ++ js " acceptedRoots must be non-empty")
  assertRoots id [] referendum.acceptedRoots
  check (referendum.initialRootField ∈ referendum.acceptedRoots)
    (manifestReferendum ++ js " acceptedRoots must contain initialRootField")
  assertSchedule referendum
  assertBoundTo p referendum.registryContractBindingHex registry.registryContractBindingHex
    (id ++ js " registryContractBindingHex") (manifestReferendum ++ js " registry binding does not match the registry")
  assertBoundTo p referendum.registryContractAddress registry.contractAddress (id ++ js " registryContractAddress")
    (manifestReferendum ++ js " registryContractAddress does not match the registry")
  assertDecimal referendum.minimumAssurance (id ++ js " minimumAssurance")
  assertDecimal referendum.validityReference (id ++ js " validityReference")
  check (¬isBlank referendum.title ∧ ¬isBlank referendum.question)
    (manifestReferendum ++ js " needs title and question")

/-- The referenda after those whose ids were seen. -/
def assertReferenda (registry : ManifestRegistry) : List JsString → List ManifestReferendum → Except JsString Unit
  | _, [] => .ok ()
  | ids, referendum :: referenda => do
    check (¬isBlank referendum.referendumId ∧ referendum.referendumId ∉ ids)
      (js "Manifest referendum IDs must be non-empty and unique")
    assertReferendum p registry referendum
    assertReferenda registry (referendum.referendumId :: ids) referenda

def assertObservation (observation : ManifestObservation) : Except JsString Unit := do
  let stage := js observation.stage.name
  check (observation.observedAt ≠ []) (js "Manifest observations need a stage and timestamp")
  observation.source.elim (.ok ()) fun source ↦ assertPublicUrl p source (js "indexer source")
  observation.transactionId.elim (.ok ()) fun transactionId ↦
    check (¬isBlank transactionId) (stage ++ js " transactionId must not be empty")
  observation.registry.elim (.ok ()) fun registry ↦ do
    assertHex32 registry.contractAddress (stage ++ js " registry address")
    assertDecimal registry.currentRootField (stage ++ js " currentRootField")
    assertDecimal registry.frozenRootField (stage ++ js " frozenRootField")
    assertDecimal registry.credentialCount (stage ++ js " credentialCount")
  observation.referendum.elim (.ok ()) fun referendum ↦ do
    assertHex32 referendum.contractAddress (stage ++ js " referendum address")
    assertDecimal referendum.issuedVotes (stage ++ js " issuedVotes")
    assertDecimal referendum.yes (stage ++ js " YES tally")
    assertDecimal referendum.no (stage ++ js " NO tally")
    assertDecimal referendum.abstain (stage ++ js " ABSTAIN tally")

end MidnightReferendum.Deployment
