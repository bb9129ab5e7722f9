import MidnightReferendum.Js.Object
import MidnightReferendum.Js.Utf8

/-!
# Issuance requests

The material of a credential as the browser sends it to the issuer, the private state that the issuer
makes of it for the registry, and the fingerprint by which it recognises a request that is repeated.
-/

namespace MidnightReferendum.Cico

open Js

/-! ## Bytes -/

/-- A `Uint8Array` of length 32. -/
abbrev Bytes32 := Vector UInt8 32

/-- `new Uint8Array(32)` -/
def emptyBytes : Bytes32 := Vector.replicate 32 0

/-- `padBytes32`, which throws for a text of more than 32 bytes. -/
def padBytes32 (value : JsString) : Option Bytes32 :=
  if (encodeUtf8 value).length ≤ 32 then
    some (Vector.ofFn fun i : Fin 32 ↦ (encodeUtf8 value).getD i 0)
  else none

/-! ## Claims -/

inductive CredentialProvider where
  | rarimo
  | passportNative
  deriving DecidableEq

inductive CredentialAgeClass where
  | unknown
  | under18
  | adult
  deriving DecidableEq

inductive CredentialAssurance where
  | selfAsserted
  | document
  | documentNfc
  | passportNative
  deriving DecidableEq

def CredentialProvider.text : CredentialProvider → JsString
  | .rarimo => js "rarimo"
  | .passportNative => js "passport-native"

def CredentialAgeClass.text : CredentialAgeClass → JsString
  | .unknown => js "unknown"
  | .under18 => js "under-18"
  | .adult => js "18-plus"

def CredentialAssurance.text : CredentialAssurance → JsString
  | .selfAsserted => js "self-asserted"
  | .document => js "document"
  | .documentNfc => js "document-nfc"
  | .passportNative => js "passport-native"

def ageClassCode : CredentialAgeClass → ℕ
  | .unknown => 0
  | .under18 => 1
  | .adult => 2

def assuranceCode : CredentialAssurance → ℕ
  | .selfAsserted => 0
  | .document => 1
  | .documentNfc => 2
  | .passportNative => 3

/-- `CivicCredentialClaims`, whose epoch is a safe integer. -/
structure CivicCredentialClaims where
  issuerId : JsString
  country : JsString
  ageClass : CredentialAgeClass
  assurance : CredentialAssurance
  credentialEpoch : ℤ
  validFrom : JsString
  validUntil : JsString
  deriving DecidableEq

/-- `CivicCredentialIssuanceRequest` -/
structure IssuanceRequest where
  enrollmentId : JsString
  provider : CredentialProvider
  evidenceAuthorization : JsString
  holderBinding : Bytes32
  claims : CivicCredentialClaims
  deriving DecidableEq

/-- The numeral of an integer. -/
def integerText (n : ℤ) : JsString := (if n < 0 then js "-" else []) ++ decimal n.natAbs

/-- The text of an object with its fields in the order in which they were written. -/
def objectText (fields : List (String × JsString)) : JsString :=
  js "\x7b" ++ (js ",").intercalate (fields.map fun field ↦ quote (js field.1) ++ js ":" ++ field.2) ++
    js "\x7d"

def CivicCredentialClaims.text (claims : CivicCredentialClaims) : JsString := objectText [
  ("issuerId", quote claims.issuerId),
  ("country", quote claims.country),
  ("ageClass", quote claims.ageClass.text),
  ("assurance", quote claims.assurance.text),
  ("credentialEpoch", integerText claims.credentialEpoch),
  ("validFrom", quote claims.validFrom),
  ("validUntil", quote claims.validUntil)]

def requestFingerprint (request : IssuanceRequest) : JsString := objectText [
  ("provider", quote request.provider.text),
  ("evidenceAuthorization", quote request.evidenceAuthorization),
  ("holderBinding", quote (bytesToHex request.holderBinding.toList)),
  ("claims", request.claims.text)]

/-! ## Private states of the registry -/

/-- `CredentialRegistryV1PrivateState` -/
structure RegistryPrivateState where
  issuerSecret : Bytes32
  holderBinding : Bytes32
  credentialBlind : Bytes32
  credentialCountry : Bytes32
  credentialAgeClass : ℕ
  credentialAssurance : ℕ
  credentialClaimEpoch : ℤ
  credentialValidUntil : ℤ
  deriving DecidableEq

/-- `isoTimestampSeconds`, where `dateParse` is `Date.parse` and an invalid date has no number. -/
def isoTimestampSeconds (dateParse : JsString → Option ℤ) (value : JsString) : Option ℤ :=
  (dateParse value).bind fun milliseconds ↦
    if milliseconds % 1000 = 0 ∧ 0 ≤ milliseconds / 1000 then some (milliseconds / 1000) else none

/-- The private state with which a credential is added, if the claims can be encoded. -/
def privateStateFor (dateParse : JsString → Option ℤ) (request : IssuanceRequest)
    (issuerSecret credentialBlind : Bytes32) : Option RegistryPrivateState := do
  let credentialCountry ← padBytes32 request.claims.country
  let credentialValidUntil ← isoTimestampSeconds dateParse request.claims.validUntil
  return {
    issuerSecret
    holderBinding := request.holderBinding
    credentialBlind
    credentialCountry
    credentialAgeClass := ageClassCode request.claims.ageClass
    credentialAssurance := assuranceCode request.claims.assurance
    credentialClaimEpoch := request.claims.credentialEpoch
    credentialValidUntil }

/-- A private state without credential material. -/
def emptyPrivateState (issuerSecret : Bytes32) : RegistryPrivateState where
  issuerSecret := issuerSecret
  holderBinding := emptyBytes
  credentialBlind := emptyBytes
  credentialCountry := emptyBytes
  credentialAgeClass := 0
  credentialAssurance := 0
  credentialClaimEpoch := 0
  credentialValidUntil := 0

/-- `freezePrivateState` of the epoch coordinator -/
def freezePrivateState (issuerSecret : Bytes32) : RegistryPrivateState := emptyPrivateState issuerSecret

/-- `attestationPrivateState` of the root publisher -/
def attestationPrivateState : RegistryPrivateState := emptyPrivateState emptyBytes

end MidnightReferendum.Cico
