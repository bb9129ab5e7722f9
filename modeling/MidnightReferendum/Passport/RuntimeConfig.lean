import MidnightReferendum.Cico.Issuance
import MidnightReferendum.Js.Calendar
import MidnightReferendum.Js.Utf8
import MidnightReferendum.Passport.StateCodec
import MidnightReferendum.Systems.Checks

/-!
# The configuration of the browser

`passport-v2-runtime-config.ts`: the registry and the referenda that the environment of a build names. Whatever is
missing or out of range throws, and only an empty API URL turns the whole of it off.
-/

namespace MidnightReferendum.RuntimeConfig

open Js Checks Cico

/-- `Date.parse` gives the milliseconds of a `Date` or `NaN`. -/
structure DateParser where
  parse : JsString → Option ℤ
  range : ∀ text milliseconds, parse text = some milliseconds → |milliseconds| ≤ 8640000000000000

/-- The network, `undeployed` or `preview`. -/
inductive RuntimeNetwork where
  | undeployed
  | preview
  deriving DecidableEq

structure FrozenCredentialRegistryReference where
  registryContractAddress : JsString
  registryContractBinding : Bytes32
  registryId : Bytes32
  issuerId : Bytes32
  credentialEpoch : ℕ
  frozenRoot : ℕ
  deriving DecidableEq

structure ReferendumV2ExecutorConfig where
  registry : FrozenCredentialRegistryReference
  eventId : Bytes32
  organizerKey : Bytes32
  rootPublisherKey : Bytes32
  opensAtUnix : ℕ
  enrollmentClosesAtUnix : ℕ
  closesAtUnix : ℕ
  revealClosesAtUnix : ℕ
  countryPolicy : Bytes32
  countryPolicyEnabled : Bool
  minimumAssurance : ℕ
  requireAdult : Bool
  validityReference : ℕ
  network : RuntimeNetwork
  explorerBaseUrl : Option JsString
  deriving DecidableEq

structure PassportV2RuntimeReferendum where
  referendumId : JsString
  contractAddress : JsString
  title : JsString
  question : JsString
  description : Option JsString
  opened : Option JsString
  deadline : Option JsString
  opensAt : Option JsString
  closesAt : Option JsString
  eligible : Option JsString
  participation : Option JsString
  config : ReferendumV2ExecutorConfig
  deriving DecidableEq

structure PassportV2RuntimeConfig where
  network : RuntimeNetwork
  apiUrl : JsString
  issuerId : JsString
  credentialEpoch : ℕ
  credentialTtlMs : ℕ
  uniquenessTimestampUpperBoundUnixSeconds : ℕ
  registry : FrozenCredentialRegistryReference
  referenda : List PassportV2RuntimeReferendum
  deriving DecidableEq

/-- `RuntimeEnv` -/
abbrev RuntimeEnv := JsString → Option JsString

/-! ## Fields -/

def required (env : RuntimeEnv) (key : String) : Except String JsString :=
  match (env (js key)).map trimmed with
  | some (u :: rest) => .ok (u :: rest)
  | _ => .error (key ++ " is required when Passport v2 is enabled")

def nonEmptyString (value : Option Json) (label : String) : Except String JsString :=
  match value with
  | some (.string text) => if trimmed text = [] then .error (label ++ " is required") else .ok (trimmed text)
  | _ => .error (label ++ " is required")

def optionalText (value : Option Json) : Option JsString :=
  match value with
  | some (.string text) => if trimmed text = [] then none else some (trimmed text)
  | _ => none

/-- `value.replace(/^0x/iu, '')` -/
def withoutHexPrefix : JsString → JsString
  | u :: v :: rest => if u = 0x30 ∧ (v = 0x78 ∨ v = 0x58) then rest else u :: v :: rest
  | text => text

/-- The bytes of a text of hexadecimal digits. -/
def hexPairs : JsString → List UInt8
  | u :: v :: rest => ((hexValue? u).getD 0 * 16 + (hexValue? v).getD 0).toUInt8 :: hexPairs rest
  | _ => []

/-- `/^(?:0x)?[0-9a-f]{64}$/iu` -/
def isHex32 (text : JsString) : Bool :=
  let digits := if text.length = 66 then withoutHexPrefix text else text
  digits.length == 64 && digits.all fun u ↦ (hexValue? u).isSome

def hexBytes32 (text : JsString) : Bytes32 :=
  Vector.ofFn fun i : Fin 32 ↦ (hexPairs (withoutHexPrefix text)).getD i 0

def bytes32 (value : Option Json) (label : String) : Except String Bytes32 :=
  match value with
  | some (.string text) =>
    if isHex32 text then .ok (hexBytes32 text) else .error (label ++ " must be 32-byte hexadecimal data")
  | _ => .error (label ++ " must be 32-byte hexadecimal data")

/-- `BigInt(value)` of a number -/
def JsNumber.bigint? : JsNumber → Option ℤ
  | .finite value => if value.den = 1 then some value.num else none
  | .infinite _ => none

/-- `BigInt(value)` -/
def bigint? : Json → Option ℤ
  | .string text => PrivateState.bigintOf? text
  | .number value => JsNumber.bigint? value
  | _ => none

/-- A string that is not blank, or a number. -/
def isNumeral : Option Json → Bool
  | some (.string text) => !isBlank text
  | some (.number _) => true
  | _ => false

def uintText (bits : ℕ) : String := "Uint<" ++ toString bits ++ ">"

def unsignedBigInt (value : Option Json) (bits : ℕ) : Except String ℕ :=
  if isNumeral value then
    match value.bind bigint? with
    | none => .error ("Invalid " ++ uintText bits ++ " value")
    | some parsed =>
      if parsed < 0 ∨ 2 ^ bits - 1 < parsed then .error ("Value is outside " ++ uintText bits ++ " range")
      else .ok parsed.toNat
  else .error (uintText bits ++ " value is required")

def unsignedNumber (value : Option Json) (bits : ℕ) : Except String ℕ := do
  let parsed ← unsignedBigInt value bits
  check (parsed ≤ maxSafeInteger) (uintText bits ++ " value is not JS-safe")
  return parsed

def paddedBytes32 (text : JsString) : Except String Bytes32 :=
  match padBytes32 text with
  | some bytes => .ok bytes
  | none => .error "Compact Bytes<32> text value exceeds 32 UTF-8 bytes"

/-! ## Parsing -/

section Parsing

variable (persistentHash : List Bytes32 → Bytes32) (dates : DateParser)

/-- `deriveRegistryContractBinding`. Without its prefix the address is in lower case. -/
def deriveRegistryContractBinding (registryContractAddress : JsString) : Except String Bytes32 :=
  let address := trimmed registryContractAddress
  let normalized := lowerHex (if address.take 2 = js "0x" then address.drop 2 else address)
  if isDigest normalized then
    .ok (persistentHash [(padBytes32 (js "cico:registry:address:v1")).getD emptyBytes,
      Vector.ofFn fun i : Fin 32 ↦ (hexPairs normalized).getD i 0])
  else .error "Registry contract address must be exactly 32-byte hexadecimal data"

/-- Both dates are there or none is, and the second is later. -/
def checkLifecycle (index : ℕ) (opensAt closesAt : Option JsString) : Except String Unit := do
  check (opensAt.isSome = closesAt.isSome) s!"Referendum {index} must configure both opensAt and closesAt"
  match opensAt, closesAt with
  | some opensAt, some closesAt =>
    match dates.parse opensAt, dates.parse closesAt with
    | some openTime, some closeTime => check (openTime < closeTime) s!"Referendum {index} lifecycle dates are invalid"
    | _, _ => .error s!"Referendum {index} lifecycle dates are invalid"
  | _, _ => .ok ()

def parseCountryPolicy (value : Option Json) (index : ℕ) : Except String Bytes32 :=
  match value with
  | some .null => .ok emptyBytes
  | value => do paddedBytes32 (← nonEmptyString value s!"referendum {index} country policy")

/-- `entry.countryPolicy !== null` -/
def isEnabled : Option Json → Bool
  | some .null => false
  | _ => true

def asBoolean (value : Option Json) (index : ℕ) : Except String Bool :=
  match value with
  | some (.bool value) => .ok value
  | _ => .error s!"Referendum {index} requireAdult must be boolean"

def parseReferendum (value : Json) (index : ℕ) (registry : FrozenCredentialRegistryReference)
    (network : RuntimeNetwork) : Except String PassportV2RuntimeReferendum :=
  match value.record? with
  | none => .error s!"Referendum {index} must be an object"
  | some fields => do
    let entry := fun name ↦ field? fields (js name)
    let referendumId ← nonEmptyString (entry "referendumId") s!"referendum {index} ID"
    let contractAddress ← nonEmptyString (entry "contractAddress") s!"referendum {index} address"
    let countryPolicy ← parseCountryPolicy (entry "countryPolicy") index
    let minimumAssurance ← unsignedBigInt (entry "minimumAssurance") 8
    let requireAdult ← asBoolean (entry "requireAdult") index
    let opensAt := optionalText (entry "opensAt")
    let closesAt := optionalText (entry "closesAt")
    checkLifecycle dates index opensAt closesAt
    let title ← nonEmptyString (entry "title") s!"referendum {index} title"
    let question ← nonEmptyString (entry "question") s!"referendum {index} question"
    let eventId ← bytes32 (entry "eventIdHex") s!"referendum {index} event ID"
    let organizerKey ← bytes32 (entry "organizerKeyHex") s!"referendum {index} organizer key"
    let rootPublisherKey ← bytes32 (entry "rootPublisherKeyHex") s!"referendum {index} root publisher key"
    let opensAtUnix ← unsignedBigInt (entry "opensAtUnix") 64
    let enrollmentClosesAtUnix ← unsignedBigInt (entry "enrollmentClosesAtUnix") 64
    let closesAtUnix ← unsignedBigInt (entry "closesAtUnix") 64
    let revealClosesAtUnix ← unsignedBigInt (entry "revealClosesAtUnix") 64
    let validityReference ← unsignedBigInt (entry "validityReference") 64
    return {
      referendumId, contractAddress, title, question, opensAt, closesAt
      description := optionalText (entry "description")
      opened := optionalText (entry "opened")
      deadline := optionalText (entry "deadline")
      eligible := optionalText (entry "eligible")
      participation := optionalText (entry "participation")
      config := {
        registry, eventId, organizerKey, rootPublisherKey, opensAtUnix, enrollmentClosesAtUnix, closesAtUnix
        revealClosesAtUnix, countryPolicy, minimumAssurance, requireAdult, validityReference, network
        countryPolicyEnabled := isEnabled (entry "countryPolicy")
        explorerBaseUrl :=
          match network with
          | .preview => some (js "https://explorer.preview.midnight.network/tx")
          | .undeployed => none } }

/-- The entries of a list, each with its index. -/
def parseReferenda (registry : FrozenCredentialRegistryReference) (network : RuntimeNetwork) :
    ℕ → List Json → Except String (List PassportV2RuntimeReferendum)
  | _, [] => .ok []
  | index, candidate :: rest => do
    let entry ← parseReferendum dates candidate index registry network
    let entries ← parseReferenda registry network (index + 1) rest
    return entry :: entries

def parseNetwork (value : Option JsString) : Except String RuntimeNetwork :=
  match present (value.map trimmed) with
  | none => .ok .preview
  | some network =>
    if network = js "preview" then .ok .preview
    else if network = js "undeployed" then .ok .undeployed
    else .error "Passport v2 runtime requires the Preview or Undeployed network"

def parseWire (env : RuntimeEnv) : Except String Json :=
  match (required env "VITE_CICO_REFERENDA_JSON").toOption.bind Json.parse with
  | some wire => .ok wire
  | none => .error "VITE_CICO_REFERENDA_JSON must be valid JSON"

def requiredNumber (env : RuntimeEnv) (key : String) (bits : ℕ) : Except String ℕ := do
  unsignedNumber (some (.string (← required env key))) bits

def requiredBytes32 (env : RuntimeEnv) (key label : String) : Except String Bytes32 := do
  bytes32 (some (.string (← required env key))) label

def requiredRoot (env : RuntimeEnv) (key : String) : Except String ℕ := do
  unsignedBigInt (some (.string (← required env key))) 256

def parsePassportV2RuntimeConfig (env : RuntimeEnv) : Except String (Option PassportV2RuntimeConfig) :=
  match present ((env (js "VITE_PASSPORT_V2_API_URL")).map trimmed) with
  | none => .ok none
  | some apiUrl => do
    let network ← parseNetwork (env (js "VITE_MIDNIGHT_NETWORK"))
    let issuerId ← required env "VITE_CICO_ISSUER_ID"
    let credentialEpoch ← requiredNumber env "VITE_CICO_CREDENTIAL_EPOCH" 64
    let credentialTtlMs ← requiredNumber env "VITE_CICO_CREDENTIAL_TTL_MS" 53
    check (1000 ≤ credentialTtlMs ∧ credentialTtlMs ≤ 30 * 24 * 60 * 60 * 1000)
      "VITE_CICO_CREDENTIAL_TTL_MS is outside the supported range"
    let uniquenessTimestampUpperBoundUnixSeconds ←
      requiredNumber env "VITE_RARIMO_UNIQUENESS_TIMESTAMP_UPPER_BOUND" 64
    let registryContractAddress ← required env "VITE_CICO_REGISTRY_ADDRESS"
    let registryContractBinding ← deriveRegistryContractBinding persistentHash registryContractAddress
    let registryId ← requiredBytes32 env "VITE_CICO_REGISTRY_ID_HEX" "registry ID"
    let registryIssuerId ← requiredBytes32 env "VITE_CICO_ISSUER_ID_HEX" "issuer ID"
    let frozenRoot ← requiredRoot env "VITE_CICO_FROZEN_ROOT_FIELD"
    let paddedIssuerId ← paddedBytes32 issuerId
    check (registryIssuerId = paddedIssuerId) "CICO issuer text does not match the frozen registry issuer ID"
    let registry : FrozenCredentialRegistryReference := {
      registryContractAddress, registryContractBinding, registryId, credentialEpoch, frozenRoot
      issuerId := registryIssuerId }
    let value ← parseWire env
    match value.array? with
    | none => .error "At least one v2 referendum must be configured"
    | some wire =>
      check (wire ≠ []) "At least one v2 referendum must be configured"
      let referenda ← parseReferenda dates registry network 0 wire
      check ((referenda.map PassportV2RuntimeReferendum.referendumId).Nodup) "V2 referendum IDs must be unique"
      return some {
        network, apiUrl, issuerId, credentialEpoch, credentialTtlMs, uniquenessTimestampUpperBoundUnixSeconds
        registry, referenda }

end Parsing

end MidnightReferendum.RuntimeConfig
