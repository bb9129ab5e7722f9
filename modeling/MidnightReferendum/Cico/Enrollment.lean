import MidnightReferendum.Cico.Issuer
import MidnightReferendum.Cico.Verification

/-!
# Enrollments in the browser

A poll of `RarimoCivicCredentialAdapter`: from the status of the verification to the evidence, from the
evidence to the claims and the call of the issuer, and from the issuance to a credential in the browser.
The times of a record are kept in milliseconds where the source keeps their texts.
-/

namespace MidnightReferendum.Cico

open Js CredentialIssuerService

/-! ## Records -/

inductive EnrollmentStatus where
  | pending
  | issued
  | failed
  | expired
  | revoked
  deriving DecidableEq

/-- The codes of `CivicCredentialError` that a poll uses. -/
inductive EnrollmentError where
  | enrollmentExpired
  | invalidCredentialClaims
  | issuanceFailed
  | adapterUnavailable
  deriving DecidableEq

/-- `CredentialPolicy` -/
structure CredentialPolicy where
  allowedCountries : Option (List JsString) := none
  minimumAssurance : Option CredentialAssurance := none
  requireAdult : Option Bool := none

/-- The options of the adapter. -/
structure AdapterOptions where
  issuerId : JsString
  credentialEpoch : ℤ
  countryMapper : RarimoCountryMapper
  uniquenessTimestampUpperBoundUnixSeconds : ℕ
  enrollmentTtlMs : ℤ := 600000
  credentialTtlMs : ℤ := 86400000

/-- `CredentialSummary`, whose provider is the constant `rarimo`. -/
structure CredentialSummary where
  status : EnrollmentStatus
  claims : CivicCredentialClaims
  deriving DecidableEq

/-- `RarimoEnrollmentRecord` -/
structure RarimoEnrollmentRecord where
  enrollmentId : JsString
  requestId : JsString
  userIdHash : JsString
  holderSecret : Bytes32
  holderBlind : Bytes32
  holderBinding : Bytes32
  createdAt : ℤ
  expiresAt : ℤ
  request : RarimoVerificationRequest
  policy : Option CredentialPolicy
  status : EnrollmentStatus
  updatedAt : ℤ
  summary : Option CredentialSummary := none
  credentialBlind : Option Bytes32 := none
  credentialLeaf : Option Bytes32 := none
  actionAuthorizationHandle : Option JsString := none
  proofFingerprint : Option JsString := none
  cleanupRequested : Bool := false

def EnrollmentStatus.isTerminal : EnrollmentStatus → Bool
  | .pending => false
  | .issued => true
  | .failed => true
  | .expired => true
  | .revoked => true

/-! ## The claims -/

/-- `validateEvidenceBinding` lets the evidence pass. -/
def validateEvidenceBinding (record : RarimoEnrollmentRecord) (evidence : RarimoVerifiedEvidence) : Bool :=
  evidence.requestId == record.requestId && evidence.userIdHash == record.userIdHash &&
    evidence.eventId == record.request.eventId &&
    evidence.eventDataDecimal == record.request.eventDataDecimal &&
    evidence.selector == record.request.selector &&
    evidence.timestampUpperBound == record.request.timestampUpperBound &&
    evidence.identityCounterUpperBound == record.request.identityCounterUpperBound &&
    hexToDecimal record.request.birthDateUpperBound == some evidence.birthDateUpperBound &&
    hexToDecimal record.request.expirationDateLowerBound == some evidence.expirationDateLowerBound &&
    !isBlank evidence.evidenceAuthorization && isDigest evidence.evidenceFingerprint &&
    (record.request.birthDateUpperBound == defaultDateHex || evidence.adultPredicateSatisfied)

/-- The country of `deriveClaims`, which throws for one that is unknown or not allowed. -/
def deriveCountry (a : AdapterOptions) (record : RarimoEnrollmentRecord)
    (evidence : RarimoVerifiedEvidence) : Option JsString := do
  let country ← present (a.countryMapper.fromAlpha3 evidence.citizenshipAlpha3)
  match (present record.request.citizenshipMask).bind fun mask ↦ present (a.countryMapper.fromAlpha3 mask) with
  | some requested => if requested = country then pure () else none
  | none => pure ()
  match record.policy.bind CredentialPolicy.allowedCountries with
  | some allowed => if country ∈ allowed then pure () else none
  | none => pure ()
  return country

/-- The age class of `deriveClaims`. -/
def deriveAgeClass (record : RarimoEnrollmentRecord) : CredentialAgeClass :=
  if record.request.birthDateUpperBound = defaultDateHex then .unknown else .adult

/-- The claims of a poll at a moment, whose validity begins with the second. -/
def claimsAt (a : AdapterOptions) (record : RarimoEnrollmentRecord) (country : JsString) (now : ℤ) :
    Option CivicCredentialClaims := do
  let second := now / 1000 * 1000
  let validFrom ← toISOString second
  let validUntil ← toISOString (second + a.credentialTtlMs)
  return {
    issuerId := a.issuerId
    country
    ageClass := deriveAgeClass record
    assurance := .documentNfc
    credentialEpoch := a.credentialEpoch
    validFrom
    validUntil }

/-- The request that a poll sends to the issuer. -/
def issuanceRequest (a : AdapterOptions) (record : RarimoEnrollmentRecord)
    (evidence : RarimoVerifiedEvidence) (now : ℤ) : Option IssuanceRequest := do
  if validateEvidenceBinding record evidence then
    let country ← deriveCountry a record evidence
    let claims ← claimsAt a record country now
    return {
      enrollmentId := record.enrollmentId
      provider := .rarimo
      evidenceAuthorization := evidence.evidenceAuthorization
      holderBinding := record.holderBinding
      claims }
  else none

/-- `validateIssuance` lets the issuance pass, where `leaf` is `deriveCredentialLeaf`. -/
def validateIssuance (leaf : Bytes32 → CivicCredentialClaims → Bytes32 → Option Bytes32)
    (issuance : IssuanceResult) (holderBinding : Bytes32) (claims : CivicCredentialClaims) :
    Except EnrollmentError Unit :=
  if isBlank issuance.issuanceId then .error .issuanceFailed
  else if issuance.receipt.action ≠ .credential ∨ issuance.receipt.circuit ≠ js "addCredential" ∨
      issuance.receipt.network ≠ js "preview" then .error .issuanceFailed
  else
    match leaf holderBinding claims issuance.credentialBlind with
    | none => .error .invalidCredentialClaims
    | some expectedLeaf =>
      if expectedLeaf = issuance.credentialLeaf then .ok () else .error .issuanceFailed

/-! ## A poll -/

/-- What a poll reads from its clock and gets from its calls, where a call that throws has no answer. -/
structure PollAnswers where
  checkedAt : ℤ
  status : Option RarimoVerificationStatus
  evidence : Option (Option RarimoVerifiedEvidence)
  issuedAt : ℤ
  issuance : IssuanceRequest → Option IssuanceResult
  /-- The vault saves the credential. -/
  saved : Bool
  /-- The gateway deletes the verification. -/
  deleted : Bool
  endedAt : ℤ

/-- How a poll ends. An error that is thrown is retryable, and one of the gateway has no code. -/
inductive PollResult where
  | snapshot (status : EnrollmentStatus) (updatedAt : ℤ) (errorCode : Option EnrollmentError)
  | throws (code : Option EnrollmentError)
  deriving DecidableEq

def toStatusSnapshot (record : RarimoEnrollmentRecord) (errorCode : Option EnrollmentError) : PollResult :=
  .snapshot record.status record.updatedAt errorCode

/-- `cleanupProviderRecord` -/
def cleanupProviderRecord (record : RarimoEnrollmentRecord) (deleted : Bool) : RarimoEnrollmentRecord :=
  { record with cleanupRequested := record.cleanupRequested || deleted }

/-- The holder material is overwritten. -/
def zeroize (record : RarimoEnrollmentRecord) : RarimoEnrollmentRecord :=
  { record with holderSecret := emptyBytes, holderBlind := emptyBytes, holderBinding := emptyBytes }

def expireRecord (record : RarimoEnrollmentRecord) (answers : PollAnswers) :
    RarimoEnrollmentRecord × PollResult :=
  let expired := zeroize (cleanupProviderRecord
    { record with status := .expired, updatedAt := answers.endedAt } answers.deleted)
  (expired, if expired.cleanupRequested then toStatusSnapshot expired (some .enrollmentExpired)
    else .throws none)

def failAndCleanup (record : RarimoEnrollmentRecord) (answers : PollAnswers) :
    RarimoEnrollmentRecord × PollResult :=
  let failed := cleanupProviderRecord
    (zeroize { record with status := .failed, updatedAt := answers.endedAt }) answers.deleted
  (failed, toStatusSnapshot failed (some .invalidCredentialClaims))

/-- The record with the material of an issuance. -/
def withIssuance (record : RarimoEnrollmentRecord) (evidence : RarimoVerifiedEvidence)
    (claims : CivicCredentialClaims) (issuance : IssuanceResult) : RarimoEnrollmentRecord :=
  { record with
    credentialBlind := some issuance.credentialBlind
    credentialLeaf := some issuance.credentialLeaf
    actionAuthorizationHandle := some issuance.issuanceId
    summary := some ⟨.issued, claims⟩
    proofFingerprint := some evidence.evidenceFingerprint }

/-- The part of a poll from the evidence on. -/
def pollIssuance (a : AdapterOptions) (leaf : Bytes32 → CivicCredentialClaims → Bytes32 → Option Bytes32)
    (record : RarimoEnrollmentRecord) (evidence : RarimoVerifiedEvidence) (answers : PollAnswers) :
    RarimoEnrollmentRecord × PollResult :=
  match issuanceRequest a record evidence answers.issuedAt with
  | none => failAndCleanup record answers
  | some request =>
    match answers.issuance request with
    | none => (record, .throws (some .issuanceFailed))
    | some issuance =>
      match validateIssuance leaf issuance record.holderBinding request.claims with
      | .error .issuanceFailed => (record, .throws (some .issuanceFailed))
      | .error _ => failAndCleanup record answers
      | .ok () =>
        let material := withIssuance record evidence request.claims issuance
        if answers.saved then
          let issued := { material with
            status := .issued
            updatedAt := answers.issuedAt / 1000 * 1000 }
          (cleanupProviderRecord issued answers.deleted, toStatusSnapshot issued none)
        else failAndCleanup material answers

def pollEnrollmentStatus (a : AdapterOptions)
    (leaf : Bytes32 → CivicCredentialClaims → Bytes32 → Option Bytes32)
    (record : RarimoEnrollmentRecord) (answers : PollAnswers) : RarimoEnrollmentRecord × PollResult :=
  if record.status.isTerminal then (record, toStatusSnapshot record none)
  else if record.expiresAt ≤ answers.checkedAt then expireRecord record answers
  else
    match answers.status with
    | none => (record, .throws (some .adapterUnavailable))
    | some .notVerified =>
      let updated := { record with updatedAt := answers.endedAt }
      (updated, toStatusSnapshot updated none)
    | some .failedVerification => failAndCleanup record answers
    | some .uniquenessCheckFailed => failAndCleanup record answers
    | some .verified =>
      match answers.evidence with
      | none => (record, .throws (some .adapterUnavailable))
      | some none => failAndCleanup record answers
      | some (some evidence) => pollIssuance a leaf record evidence answers

end MidnightReferendum.Cico
