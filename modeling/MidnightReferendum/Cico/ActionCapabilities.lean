import MidnightReferendum.Relayer.FileStore
import MidnightReferendum.Relayer.Tokens

/-!
# The issuer of action capabilities

The credential service issues capability tokens for votes. The relay verifies them with the same secret.
-/

namespace MidnightReferendum.ActionCapability

open Js Relayer

/-- `ActionCapabilityIssuanceRequest` -/
structure IssuanceRequest where
  actionId : JsString
  idempotencyKey : JsString
  requestHash : JsString
  network : JsString
  contractAddress : JsString
  circuit : JsString
  action : JsString
  credentialAuthorization : JsString
  deriving DecidableEq

/-- `HmacActionCapabilityIssuerOptions`. The clock and the credential authorizations are asked at each call. -/
structure IssuerOptions where
  secret : JsString
  allowedNetworks : List JsString
  allowedContracts : List JsString
  allowedCircuits : List JsString
  ttlSeconds : Option JsNumber

/-- `HmacActionCapabilityIssuer` -/
structure Issuer where
  secret : JsString
  allowedNetworks : List JsString
  allowedContracts : List JsString
  allowedCircuits : List JsString
  ttlSeconds : ℤ
  secret_long : 32 ≤ secret.length
  allowlists_ne : allowedNetworks ≠ [] ∧ allowedContracts ≠ [] ∧ allowedCircuits ≠ []
  ttl_bounds : 15 ≤ ttlSeconds ∧ ttlSeconds ≤ 600

/-- `new HmacActionCapabilityIssuer(options)`, which throws a `TypeError` -/
def createIssuer (options : IssuerOptions) : Except String Issuer :=
  if hsecret : 32 ≤ options.secret.length then
    if hlists : options.allowedNetworks ≠ [] ∧ options.allowedContracts ≠ [] ∧ options.allowedCircuits ≠ [] then
      match (Json.number (options.ttlSeconds.getD (.finite 120))).safeInteger? with
      | none => .error "Action capability TTL must be between 15 and 600 seconds"
      | some ttl =>
        if httl : 15 ≤ ttl ∧ ttl ≤ 600 then
          .ok ⟨options.secret, options.allowedNetworks, options.allowedContracts, options.allowedCircuits, ttl,
            hsecret, hlists, httl⟩
        else .error "Action capability TTL must be between 15 and 600 seconds"
    else .error "Action capability allowlists must not be empty"
  else .error "Action capability secret is too short"

/-! ## Issuing -/

/-- `validateRequest` -/
def Valid (request : IssuanceRequest) : Prop :=
  (∀ value ∈ [request.actionId, request.idempotencyKey, request.network, request.contractAddress, request.circuit,
    request.credentialAuthorization], value ≠ [] ∧ value.length ≤ 256) ∧
    isDigest request.requestHash ∧ (CivicActionKind.ofText? request.action).isSome

instance (request : IssuanceRequest) : Decidable (Valid request) := inferInstanceAs (Decidable (_ ∧ _ ∧ _))

/-- `actionForCircuit`. A citizen is authorized for no other circuit. -/
def actionForCircuit (circuit : JsString) : Option JsString := if circuit = js "castVote" then some (js "vote") else none

/-- A number plus a number of seconds, where nothing stands for `NaN`. -/
def addSeconds (now : Option JsNumber) (seconds : ℤ) : Option JsNumber :=
  now.map fun
    | .finite value => toDouble (value + seconds)
    | .infinite negative => .infinite negative

/-- The value of a number in a JSON text, which is `null` for a number that is not finite. -/
def numberValue : Option JsNumber → Json
  | some (.finite value) => .number (.finite value)
  | some (.infinite _) | none => .null

def payload (request : IssuanceRequest) (expiresAt : Option JsNumber) : Json :=
  .object
    [(js "v", .number (.finite 1)), (js "actionId", .string request.actionId),
      (js "idempotencyKey", .string request.idempotencyKey), (js "network", .string request.network),
      (js "contractAddress", .string request.contractAddress), (js "circuit", .string request.circuit),
      (js "action", .string request.action), (js "requestHash", .string request.requestHash),
      (js "expiresAt", numberValue expiresAt)]

/-- `base64Url(JSON.stringify(payload))` -/
def encodedPayload (request : IssuanceRequest) (expiresAt : Option JsNumber) : JsString :=
  base64url (encodeUtf8 (payload request expiresAt).stringify)

/-- `issue`, which throws an `ActionCapabilityError` for a request that it refuses. The answers of the clock and of
`credentialAuthorizationExists` at the call are given. -/
def issue (crypto : Crypto) (issuer : Issuer) (now : Option JsNumber) (authorized : Bool) (request : IssuanceRequest) :
    Option JsString :=
  if Valid request ∧ request.network ∈ issuer.allowedNetworks ∧ request.contractAddress ∈ issuer.allowedContracts ∧
      request.circuit ∈ issuer.allowedCircuits ∧ actionForCircuit request.circuit = some request.action ∧
      authorized then
    let encoded := encodedPayload request (addSeconds now issuer.ttlSeconds)
    some (encoded ++ js "." ++ base64url (crypto.hmacSha256 (encodeUtf8 issuer.secret)
      (encodeUtf8 (js "midnight-referendum:v2-capability:1:" ++ encoded))))
  else none

end MidnightReferendum.ActionCapability
