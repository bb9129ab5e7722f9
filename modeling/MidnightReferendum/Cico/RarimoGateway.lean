import MidnightReferendum.Cico.ProofDecoding
import MidnightReferendum.Systems.Execution
import MidnightReferendum.Systems.Tables

/-!
# The verification gateway

`RarimoHttpVerificationGateway`. It remembers the requests for which the verificator has made a link, and for each proof
that it has read the evidence under the hash of the answer. The issuer asks it whether an issuance is what a proof
authorizes. Calls wait for answers of the verificator in between, so calls for one request overlap.

An answer of `request` is an input: any error, or any value that `JSON.parse` returns.
-/

namespace MidnightReferendum.RarimoGateway

open Js Cico Checks Execution

/-- `RarimoCredentialIssuancePolicy` -/
structure CredentialIssuancePolicy where
  issuerId : JsString
  credentialEpoch : ℤ
  credentialTtlMs : ℤ
  countryMapper : RarimoCountryMapper
  maximumIssuanceDelayMs : Option ℤ := none
  clockSkewMs : Option ℤ := none

/-- The platform, and what the deployment configures. -/
structure Options where
  /-- SHA-256 of bytes -/
  sha256 : List UInt8 → Bytes32
  /-- `persistentHash` of the Compact runtime, on vectors of three -/
  persistentHash : Bytes32 → Bytes32 → Bytes32 → Bytes32
  toUpperCase : JsString → JsString
  /-- `Date.parse`, where an invalid date has no number -/
  dateParse : JsString → Option ℤ
  deriveUserIdHash : JsString → Except JsString JsString
  /-- the URL has the scheme and an origin that are allowed -/
  checkProofParamsUrl : JsString → Except JsString Unit
  buildProofRequestUrl : JsString → JsString
  /-- the policy that the issuer validates each issuance with -/
  policy : CredentialIssuancePolicy

inductive GatewayErrorCode where
  | invalidConfiguration
  | timeout
  | upstreamUnavailable
  | upstreamHttpError
  | malformedResponse
  | notFound
  deriving DecidableEq

/-- A `RarimoHttpGatewayError`, or another error, which has no code. -/
structure GatewayError where
  code : Option GatewayErrorCode
  message : JsString

def malformedResponse (message : JsString) : GatewayError := ⟨some .malformedResponse, message⟩

def invalidConfiguration (message : JsString) : GatewayError := ⟨some .invalidConfiguration, message⟩

/-! ## State -/

structure VerificationContext where
  request : RarimoVerificationRequest
  userIdHash : JsString
  deriving DecidableEq

structure IssuanceAuthorizationContext where
  context : VerificationContext
  evidence : RarimoVerifiedEvidence
  verifiedAt : ℤ

structure Gateway where
  contexts : JsString → Option VerificationContext
  issuanceAuthorizations : JsString → Option IssuanceAuthorizationContext

/-- `RarimoVerificationLink` -/
structure RarimoVerificationLink where
  requestId : JsString
  userIdHash : JsString
  proofParamsUrl : JsString
  proofRequestUrl : JsString

/-! ## Requests -/

def requestStrings (request : RarimoVerificationRequest) : List (JsString × JsString) :=
  [(js "requestId", request.requestId), (js "eventId", request.eventId),
    (js "eventDataDecimal", request.eventDataDecimal), (js "selector", request.selector),
    (js "birthDateLowerBound", request.birthDateLowerBound), (js "birthDateUpperBound", request.birthDateUpperBound),
    (js "identityCounterLowerBound", request.identityCounterLowerBound),
    (js "identityCounterUpperBound", request.identityCounterUpperBound),
    (js "expirationDateLowerBound", request.expirationDateLowerBound),
    (js "expirationDateUpperBound", request.expirationDateUpperBound),
    (js "timestampLowerBound", request.timestampLowerBound), (js "timestampUpperBound", request.timestampUpperBound)]

def decimalInteger (value : JsString) : Except GatewayError Unit :=
  check (isDecimalInteger value = true) ⟨none, js "Expected a non-negative decimal integer"⟩

def validateGatewayRequest (request : RarimoVerificationRequest) : Except GatewayError Unit := do
  (requestStrings request).forM fun e ↦
    check (e.2.isEmpty = false ∧ hasControlCharacter e.2 = false)
      (invalidConfiguration (js "Invalid Rarimo request " ++ e.1))
  check (isHexText request.eventData = true) (invalidConfiguration (js "eventData must be hexadecimal"))
  [request.eventDataDecimal, request.selector, request.eventId, request.identityCounterLowerBound,
    request.identityCounterUpperBound, request.timestampLowerBound, request.timestampUpperBound].forM decimalInteger

def validateUserIdHash (value : JsString) : Except JsString Unit :=
  check (value.isEmpty = false ∧ hasControlCharacter value = false ∧ 0x2F ∉ value ∧ 0x5C ∉ value)
    (js "Invalid Rarimo user hash")

/-! ## Issuance -/

/-- The sixteen bytes of an enrollment id, followed by zeros. -/
def paddedEnrollment (enrollmentId : JsString) : Option Bytes32 :=
  if enrollmentId.length = 32 ∧ enrollmentId.all fun u ↦ (hexValue? u).isSome then
    some (Vector.ofFn fun i : Fin 32 ↦ (hexNumber ((enrollmentId.drop (2 * i)).take 2)).toUInt8)
  else none

/-- The vector whose hash binds a proof to an enrollment and a holder. -/
def eventDataInput (request : IssuanceRequest) : Option (Bytes32 × Bytes32) :=
  (paddedEnrollment request.enrollmentId).map fun enrollment ↦ (enrollment, request.holderBinding)

/-- The hash without its first byte. -/
def projectedHash (o : Options) (domain : Bytes32) (input : Bytes32 × Bytes32) : List UInt8 :=
  (o.persistentHash domain input.1 input.2).toList.drop 1

def deriveRarimoIssuanceEventData (o : Options) (request : IssuanceRequest) : Option (List UInt8) := do
  let domain ← padBytes32 (js "cico:rarimo:issuance:v1")
  let input ← eventDataInput request
  return projectedHash o domain input

/-- The request of the context is bound to the event data. -/
def bindsEventData (eventData : List UInt8) (context : VerificationContext) (evidence : RarimoVerifiedEvidence) : Bool :=
  lowerHex context.request.eventData == js "0x" ++ bytesToHex eventData &&
    context.request.eventDataDecimal == decimal (hexNumber (bytesToHex eventData)) &&
    evidence.eventDataDecimal == context.request.eventDataDecimal

/-- The citizenship of the evidence is the one that the request asked for, if any. -/
def meetsMask (o : Options) (context : VerificationContext) (evidence : RarimoVerifiedEvidence) : Bool :=
  match present context.request.citizenshipMask with
  | none => true
  | some mask => o.toUpperCase (trimmed mask) == o.toUpperCase (trimmed evidence.citizenshipAlpha3)

/-- The age class that a request asks for. -/
def expectedAgeClass (request : RarimoVerificationRequest) : CredentialAgeClass :=
  if request.birthDateUpperBound = defaultDateHex then .unknown else .adult

/-- The claims are those that the policy and the request give. -/
def meetsPolicy (claims : CivicCredentialClaims) (policy : CredentialIssuancePolicy)
    (request : RarimoVerificationRequest) : Bool :=
  claims.issuerId == policy.issuerId && claims.ageClass == expectedAgeClass request &&
    claims.assurance == .documentNfc && claims.credentialEpoch == policy.credentialEpoch

/-- The validity of the claims begins with the issuance and lasts as long as the policy says. -/
def meetsValidity (o : Options) (claims : CivicCredentialClaims) (policy : CredentialIssuancePolicy)
    (verifiedAt now : ℤ) : Bool :=
  let maximumDelay := policy.maximumIssuanceDelayMs.getD (10 * 60 * 1000)
  let clockSkew := policy.clockSkewMs.getD 60000
  match o.dateParse claims.validFrom, o.dateParse claims.validUntil with
  | some validFrom, some validUntil =>
    decide (validFrom % 1000 = 0 ∧ validUntil % 1000 = 0 ∧ validUntil - validFrom = policy.credentialTtlMs ∧
      now - verifiedAt ≤ maximumDelay ∧ verifiedAt - clockSkew ≤ validFrom ∧ validFrom ≤ now + clockSkew ∧
      now < validUntil)
  | _, _ => false

def validateCredentialIssuance (o : Options) (g : Gateway) (request : IssuanceRequest)
    (policy : CredentialIssuancePolicy) (now : ℤ) : Bool :=
  match g.issuanceAuthorizations request.evidenceAuthorization with
  | none => false
  | some authorization =>
    if request.provider ≠ .rarimo then false
    else
      match deriveRarimoIssuanceEventData o request with
      | none => false
      | some eventData =>
        bindsEventData eventData authorization.context authorization.evidence &&
          (match present (policy.countryMapper.fromAlpha3 authorization.evidence.citizenshipAlpha3) with
          | none => false
          | some country => request.claims.country == country) &&
          meetsMask o authorization.context authorization.evidence &&
          (authorization.context.request.birthDateUpperBound == defaultDateHex ||
            authorization.evidence.adultPredicateSatisfied) &&
          meetsPolicy request.claims policy authorization.context.request &&
          meetsValidity o request.claims policy authorization.verifiedAt now

/-! ## Calls -/

/-- A call that waits for an answer of the verificator. -/
inductive Frame where
  | creating (request : RarimoVerificationRequest)
  | readingStatus (requestId : JsString)
  /-- `getVerifiedEvidence` before the status and before the proof -/
  | checkingStatus (context : VerificationContext)
  | readingProof (context : VerificationContext)
  | deleting (requestId : JsString)

inductive Result where
  | link (link : RarimoVerificationLink)
  | status (status : RarimoVerificationStatus)
  | evidence (evidence : Option RarimoVerifiedEvidence)
  | deleted

inductive Next where
  | wait (frame : Frame)
  | done (result : Except GatewayError Result)

/-- What the gateway has learnt and answered, in order. -/
inductive Entry where
  | created (context : VerificationContext)
  | verified (context : VerificationContext)
  | proven (context : VerificationContext) (body : Body)
  | deleted (requestId : JsString)
  | authorized (request : IssuanceRequest)

structure World where
  gateway : Gateway
  calls : ℕ → Option Frame
  returned : ℕ → Option (Except GatewayError Result)
  log : List Entry

def init : World := ⟨⟨fun _ ↦ none, fun _ ↦ none⟩, fun _ ↦ none, fun _ ↦ none, []⟩

variable (o : Options)

/-- `createVerificationRequest` after the answer. -/
def afterLink (g : Gateway) (request : RarimoVerificationRequest) (body : Body) :
    Except GatewayError (Gateway × VerificationContext × RarimoVerificationLink) :=
  let decoded : Except JsString (JsString × JsString) := do
    let decoded ← decodeVerificationLink o.deriveUserIdHash body.json request.requestId
    validateUserIdHash decoded.1
    o.checkProofParamsUrl decoded.2
    return decoded
  match decoded with
  | .error message => .error (malformedResponse message)
  | .ok (userIdHash, proofParamsUrl) =>
    let context := ⟨request, userIdHash⟩
    .ok ({ g with contexts := Function.update g.contexts request.requestId (some context) }, context,
      ⟨request.requestId, userIdHash, proofParamsUrl, o.buildProofRequestUrl proofParamsUrl⟩)

/-- The bytes of an answer whose hash is its fingerprint. -/
def Body.bytes (body : Body) : List UInt8 := encodeUtf8 body.json.stringify

def fingerprint (body : Body) : JsString := bytesToHex (o.sha256 body.bytes).toList

/-- The evidence of a proof that is bound to the request and to the user of the link. -/
def readEvidence (context : VerificationContext) (body : Body) : Except JsString RarimoVerifiedEvidence := do
  let proof ← decodeProof body.json
  check (proof.userIdHash = context.userIdHash) (js "Rarimo proof identity is not bound to the verification link")
  check (proof.publicSignals.length = rarimoGlobalPublicSignalCount) (js "Unexpected Rarimo public signal count")
  evidenceFromProof proof context.request (fingerprint o body)

/-- `getVerifiedEvidence` after the answer with the proof. An authorization that is there already is kept. -/
def afterProof (g : Gateway) (context : VerificationContext) (body : Body) (now : ℤ) :
    Except GatewayError (Gateway × RarimoVerifiedEvidence) :=
  match readEvidence o context body with
  | .error message => .error (malformedResponse message)
  | .ok evidence =>
    match g.issuanceAuthorizations evidence.evidenceAuthorization with
    | none =>
      .ok ({ g with
        issuanceAuthorizations := Function.update g.issuanceAuthorizations evidence.evidenceAuthorization
          (some ⟨context, evidence, now⟩) }, evidence)
    | some existing =>
      if existing.context.request.requestId ≠ context.request.requestId ∨
          existing.evidence.evidenceFingerprint ≠ evidence.evidenceFingerprint then
        .error (malformedResponse (js "Rarimo evidence authorization collision"))
      else .ok (g, evidence)

/-- The end of `deleteVerification`, also where the verificator has failed. -/
def forget (g : Gateway) (requestId : JsString) : Gateway where
  contexts := Function.update g.contexts requestId none
  issuanceAuthorizations := fun authorization ↦
    (g.issuanceAuthorizations authorization).filter fun record ↦ record.context.request.requestId ≠ requestId

/-- A call goes on with the answer that it waits for. -/
def resume (w : World) (frame : Frame) (reply : Except GatewayError Body) (now : ℤ) : Gateway × List Entry × Next :=
  match frame, reply with
  | .creating _, .error e | .readingStatus _, .error e | .checkingStatus _, .error e => (w.gateway, [], .done (.error e))
  | .creating request, .ok body =>
    match afterLink o w.gateway request body with
    | .error e => (w.gateway, [], .done (.error e))
    | .ok (g, context, link) => (g, [.created context], .done (.ok (.link link)))
  | .readingStatus requestId, .ok body =>
    match decodeVerificationStatus body.json requestId with
    | .error message => (w.gateway, [], .done (.error (malformedResponse message)))
    | .ok status => (w.gateway, [], .done (.ok (.status status)))
  | .checkingStatus context, .ok body =>
    match decodeVerificationStatus body.json context.request.requestId with
    | .error message => (w.gateway, [], .done (.error (malformedResponse message)))
    | .ok .verified => (w.gateway, [.verified context], .wait (.readingProof context))
    | .ok _ => (w.gateway, [], .done (.ok (.evidence none)))
  | .readingProof _, .error e =>
    (w.gateway, [], .done (if e.code = some .notFound then .ok (.evidence none) else .error e))
  | .readingProof context, .ok body =>
    match afterProof o w.gateway context body now with
    | .error e => (w.gateway, [], .done (.error e))
    | .ok (g, evidence) => (g, [.proven context body], .done (.ok (.evidence (some evidence))))
  | .deleting requestId, .error e => (forget w.gateway requestId, [.deleted requestId], .done (.error e))
  | .deleting requestId, .ok _ => (forget w.gateway requestId, [.deleted requestId], .done (.ok .deleted))

inductive Event where
  | createVerificationRequest (c : ℕ) (request : RarimoVerificationRequest)
  | getVerificationStatus (c : ℕ) (requestId : JsString)
  | getVerifiedEvidence (c : ℕ) (requestId : JsString)
  | deleteVerification (c : ℕ) (requestId : JsString)
  | validateCredentialIssuance (request : IssuanceRequest) (now : ℤ)
  | answer (c : ℕ) (reply : Except GatewayError Body) (now : ℤ)

/-- A call waits, or has returned. -/
def World.next (w : World) (c : ℕ) : Next → World
  | .wait frame => { w with calls := Function.update w.calls c (some frame) }
  | .done result =>
    { w with calls := Function.update w.calls c none, returned := Function.update w.returned c (some result) }

def noContext : GatewayError :=
  ⟨some .malformedResponse, js "A verification request must be created before evidence is fetched"⟩

/-- A call has a number of its own. -/
def World.fresh (w : World) (c : ℕ) : Bool := (w.calls c).isNone && (w.returned c).isNone

def step (w : World) : Event → Except Unit World
  | .createVerificationRequest c request =>
    if w.fresh c then
      match validateGatewayRequest request with
      | .error e => .ok (w.next c (.done (.error e)))
      | .ok () => .ok (w.next c (.wait (.creating request)))
    else .error ()
  | .getVerificationStatus c requestId =>
    if w.fresh c then .ok (w.next c (.wait (.readingStatus requestId))) else .error ()
  | .getVerifiedEvidence c requestId =>
    if w.fresh c then
      match w.gateway.contexts requestId with
      | none => .ok (w.next c (.done (.error noContext)))
      | some context => .ok (w.next c (.wait (.checkingStatus context)))
    else .error ()
  | .deleteVerification c requestId =>
    if w.fresh c then .ok (w.next c (.wait (.deleting requestId))) else .error ()
  | .validateCredentialIssuance request now =>
    .ok (if validateCredentialIssuance o w.gateway request o.policy now then
      { w with log := w.log ++ [.authorized request] } else w)
  | .answer c reply now =>
    match w.calls c with
    | none => .error ()
    | some frame =>
      let (gateway, entries, next) := resume o w frame reply now
      .ok ({ w with gateway, log := w.log ++ entries }.next c next)

end MidnightReferendum.RarimoGateway
