import MidnightReferendum.Js.JsonText
import MidnightReferendum.Relayer.FileStore
import MidnightReferendum.Systems.Checks
import MidnightReferendum.Systems.Worklist

/-!
# Requests of actions

The body of a request and two of its headers are parsed before an action is accepted. A request that is
accepted has the texts of the body, and its transaction is in lower case.
-/

namespace MidnightReferendum.Relayer.Requests

open Js Checks Worklist

/-- `V2RequestHeaders` without the capability. -/
structure RequestHeaders where
  idempotencyKey : Option JsString
  requestHash : Option JsString

/-- What the parser throws: an error of the service, or that of a call with more arguments than the engine takes. -/
inductive Thrown where
  | action (error : ActionError)
  | rangeError
  deriving DecidableEq

/-- The options of the service that the parser reads, and the limit of the engine. -/
structure ParserOptions where
  allowedNetworks : List JsString
  allowedContracts : List JsString
  allowedCircuits : List JsString
  /-- `options.validateTransaction?.(tx)`, which throws for a transaction that it refuses -/
  validateTransaction : JsString → Except Thrown Unit
  /-- how many arguments a call may have -/
  argumentLimit : ℕ

/-- `V2ActionRequest`, with the request hash that the client sent. -/
structure ParsedRequest extends ActionRequest where
  requestHash : Option JsString
  deriving DecidableEq

/-- `new V2ActionError('invalid_request', message)` -/
def invalid (message : String) : Thrown := .action ⟨.invalidRequest, message, 400⟩

/-- `new V2ActionError('not_allowlisted', message, 403)` -/
def notAllowed (message : String) : Thrown := .action ⟨.notAllowlisted, message, 403⟩

/-! ## Parts of a request -/

/-- `toLowerCase` on a text that it brings to ASCII. Besides the letters of ASCII this is the Kelvin sign. -/
def asciiLowerCase (name : JsString) : JsString :=
  name.map fun u ↦ if 0x41 ≤ u && u ≤ 0x5A then u + 0x20 else if u == 0x212A then 0x6B else u

def forbiddenRequestKeys : List JsString :=
  ["proof", "witness", "choice", "ballot", "ballotChoice", "voteChoice", "secret", "seed", "seedPhrase",
    "voterSecret", "voteSalt", "passport", "profile", "name", "email", "passportNumber", "mrz", "mrzData",
    "nfc", "nfcPayload", "credentialBlind", "credentialLeaf"].map fun name ↦ asciiLowerCase (js name)

def isForbidden (key : JsString) : Bool := forbiddenRequestKeys.contains (asciiLowerCase key)

def forbiddenError : Thrown := invalid "private witness fields are not accepted"

/-- `typeof child === 'object' && child !== null` -/
def isContainer : Json → Bool
  | .array _ | .object _ => true
  | .null | .bool _ | .number _ | .string _ => false

/-- The loop over the entries of an object, with what it pushes. -/
def visitEntries : List (JsString × Json) → Except Thrown (List Json)
  | [] => .ok []
  | (key, child) :: entries =>
    if isForbidden key then .error forbiddenError
    else (visitEntries entries).map fun pushed ↦ if isContainer child then child :: pushed else pushed

/-- One round of the loop, with what it pushes, the top of the stack first. The items of an array are the arguments of
one call. -/
def visitCandidate (argumentLimit : ℕ) : Json → Except Thrown (List Json)
  | .array items => if items.length ≤ argumentLimit then .ok items.reverse else .error .rangeError
  | .object fields => (visitEntries fields).map List.reverse
  | .null | .bool _ | .number _ | .string _ => .ok []

mutual

/-- The number of values in a value, itself included. -/
def nodes : Json → ℕ
  | .array items => nodesOfItems items + 1
  | .object fields => nodesOfFields fields + 1
  | .null | .bool _ | .number _ | .string _ => 1

def nodesOfItems : List Json → ℕ
  | [] => 0
  | item :: items => nodes item + nodesOfItems items

def nodesOfFields : List (JsString × Json) → ℕ
  | [] => 0
  | (_, value) :: fields => nodes value + nodesOfFields fields

end

/-- `assertNoForbiddenKeys`, whose loop visits every value in the value at most once. -/
def assertNoForbiddenKeys (argumentLimit : ℕ) (value : Json) : Except Thrown Unit :=
  (drain (visitCandidate argumentLimit) (nodes value) [value]).getD (.ok ())

/-- `value ?? other` -/
def coalesce (value other : Option Json) : Option Json :=
  match value with
  | none | some .null => other
  | some value => some value

/-- `field(value, label)` with the label in the message. -/
def field (value : Option Json) (message : String) : Except Thrown JsString :=
  match value with
  | some (.string text) => if isBlank text ∨ 256 < text.length then .error (invalid message) else .ok text
  | _ => .error (invalid message)

/-- `optionalDigest` -/
def optionalDigest (value : Option Json) (message : String) : Except Thrown (Option JsString) :=
  match value with
  | none => .ok none
  | some (.string text) => if isDigest (lowerHex text) then .ok (some (lowerHex text)) else .error (invalid message)
  | some _ => .error (invalid message)

/-- `/^[0-9a-f]+$/iu` -/
def isHexadecimal (text : JsString) : Bool :=
  !text.isEmpty && (lowerHex text).all fun u ↦ (0x30 ≤ u && u ≤ 0x39) || (0x61 ≤ u && u ≤ 0x66)

/-- The transaction of a request. `MAX_TRANSACTION_HEX_LENGTH` is `2 * 1024 * 1024`. -/
def transaction (value : Option Json) : Except Thrown JsString :=
  match value with
  | some (.string tx) =>
    if tx.length ≤ 2097152 ∧ isHexadecimal tx ∧ tx.length % 2 = 0 then .ok tx
    else .error (invalid "tx must be an even-length hexadecimal transaction")
  | _ => .error (invalid "tx must be an even-length hexadecimal transaction")

def actionForCircuit (circuit : JsString) : Option CivicActionKind :=
  if circuit ∈ ["castVote", "closeVote", "revealVote", "finalizeVote"].map js then some .vote
  else if circuit ∈ ["addCredential", "freeze"].map js then some .credential
  else if circuit = js "recordPublicCohort" then some .cohort
  else none

/-- The action of a request, which the circuit determines where the body does not name it. -/
def actionOf (value : Option Json) (circuit : JsString) : Except Thrown CivicActionKind :=
  match value with
  | none => (actionForCircuit circuit).elim (.error (invalid "action is not supported")) .ok
  | some value =>
    match value.string?.bind CivicActionKind.ofText? with
    | none => .error (invalid "action is not supported")
    | some action =>
      if actionForCircuit circuit = some action then .ok action
      else .error (invalid "action does not match circuit")

/-- The header and the body differ, and both are truthy. -/
def Mismatch (header : Option JsString) (value : Option Json) : Prop :=
  truthy header ∧ (value.elim false Json.truthy) = true ∧ header ≠ value.bind Json.string?

instance (header : Option JsString) (value : Option Json) : Decidable (Mismatch header value) :=
  inferInstanceAs (Decidable (_ ∧ _ ∧ _))

/-! ## The parser -/

def parseV2ActionRequest (value : Json) (headers : RequestHeaders) (options : ParserOptions) :
    Except Thrown ParsedRequest := do
  let fields ← value.record?.elim (.error (invalid "request must be a JSON object")) .ok
  assertNoForbiddenKeys options.argumentLimit value
  let keyValue := field? fields (js "idempotencyKey")
  let idempotencyKey ← field (coalesce keyValue (headers.idempotencyKey.map .string)) "idempotency key is invalid"
  check (¬Mismatch headers.idempotencyKey keyValue) (invalid "idempotency key header does not match body")
  let hashValue := field? fields (js "requestHash")
  let requestHash ← optionalDigest (coalesce hashValue (headers.requestHash.map .string)) "request hash is invalid"
  check (¬Mismatch headers.requestHash hashValue) (invalid "request hash header does not match body")
  let network ← field (field? fields (js "network")) "network is invalid"
  let contractAddress ← field (field? fields (js "contractAddress")) "contract address is invalid"
  let circuit ← field (field? fields (js "circuit")) "circuit is invalid"
  let tx ← transaction (coalesce (field? fields (js "tx")) (field? fields (js "transaction")))
  let action ← actionOf (field? fields (js "action")) circuit
  check (network ∈ options.allowedNetworks) (notAllowed "network is not allowlisted")
  check (contractAddress ∈ options.allowedContracts) (notAllowed "contract is not allowlisted")
  check (circuit ∈ options.allowedCircuits) (notAllowed "circuit is not allowlisted")
  options.validateTransaction tx
  let actionId ← field (field? fields (js "actionId")) "action id is invalid"
  return ⟨⟨actionId, idempotencyKey, network, contractAddress, circuit, action, lowerHex tx⟩, requestHash⟩

/-- What an accepted request has of its body. -/
structure Accepted (fields : List (JsString × Json)) (request : ParsedRequest) : Prop where
  network : field? fields (js "network") = some (.string request.network)
  contractAddress : field? fields (js "contractAddress") = some (.string request.contractAddress)
  circuit : field? fields (js "circuit") = some (.string request.circuit)
  action : actionForCircuit request.circuit = some request.action
  named : ∀ value, field? fields (js "action") = some value →
    value.string?.bind CivicActionKind.ofText? = some request.action
  tx : ∃ tx, coalesce (field? fields (js "tx")) (field? fields (js "transaction")) = some (.string tx) ∧
    isHexadecimal tx ∧ request.tx = lowerHex tx

theorem field_eq_ok {value : Option Json} {message : String} {text : JsString} (h : field value message = .ok text) :
    value = some (.string text) := by
  unfold field at h
  split at h
  · next given =>
    split at h
    · cases h
    · cases h
      rfl
  · cases h

theorem transaction_eq_ok {value : Option Json} {tx : JsString} (h : transaction value = .ok tx) :
    value = some (.string tx) ∧ isHexadecimal tx := by
  unfold transaction at h
  split at h
  · next given =>
    split at h
    · next hhex =>
      cases h
      exact ⟨rfl, hhex.2.1⟩
    · cases h
  · cases h

theorem actionOf_eq_ok {value : Option Json} {circuit : JsString} {action : CivicActionKind}
    (h : actionOf value circuit = .ok action) :
    actionForCircuit circuit = some action ∧
      ∀ given, value = some given → given.string?.bind CivicActionKind.ofText? = some action := by
  unfold actionOf at h
  split at h
  · cases haction : actionForCircuit circuit with
    | none =>
      rw [haction] at h
      cases h
    | some supported =>
      rw [haction] at h
      cases h
      exact ⟨rfl, fun _ hgiven ↦ by cases hgiven⟩
  · next given =>
    split at h
    · cases h
    · next named hnamed =>
      split at h
      · next hmatch =>
        cases h
        refine ⟨hmatch, fun value hvalue ↦ ?_⟩
        rw [← Option.some.inj hvalue]
        exact hnamed
      · cases h

theorem parseV2ActionRequest_eq_ok {value : Json} {headers : RequestHeaders} {options : ParserOptions}
    {request : ParsedRequest} (h : parseV2ActionRequest value headers options = .ok request) :
    ∃ fields, value = .object fields ∧ Accepted fields request := by
  unfold parseV2ActionRequest at h
  obtain ⟨fields, hrecord, h⟩ := bind_eq_ok.mp h
  have hvalue : value = .object fields := by
    cases value with
    | object given =>
      cases hrecord
      rfl
    | _ => cases hrecord
  obtain ⟨_, _, h⟩ := bind_eq_ok.mp h
  obtain ⟨idempotencyKey, _, h⟩ := bind_eq_ok.mp h
  obtain ⟨_, h⟩ := check_bind_eq_ok.mp h
  obtain ⟨requestHash, _, h⟩ := bind_eq_ok.mp h
  obtain ⟨_, h⟩ := check_bind_eq_ok.mp h
  obtain ⟨network, hnetwork, h⟩ := bind_eq_ok.mp h
  obtain ⟨contractAddress, hcontract, h⟩ := bind_eq_ok.mp h
  obtain ⟨circuit, hcircuit, h⟩ := bind_eq_ok.mp h
  obtain ⟨tx, htx, h⟩ := bind_eq_ok.mp h
  obtain ⟨action, haction, h⟩ := bind_eq_ok.mp h
  obtain ⟨_, h⟩ := check_bind_eq_ok.mp h
  obtain ⟨_, h⟩ := check_bind_eq_ok.mp h
  obtain ⟨_, h⟩ := check_bind_eq_ok.mp h
  obtain ⟨_, _, h⟩ := bind_eq_ok.mp h
  obtain ⟨actionId, _, h⟩ := bind_eq_ok.mp h
  cases h
  obtain ⟨hsent, hhex⟩ := transaction_eq_ok htx
  refine ⟨fields, hvalue, ?_⟩
  exact
    { network := field_eq_ok hnetwork
      contractAddress := field_eq_ok hcontract
      circuit := field_eq_ok hcircuit
      action := (actionOf_eq_ok haction).1
      named := (actionOf_eq_ok haction).2
      tx := ⟨tx, hsent, hhex, rfl⟩ }

end MidnightReferendum.Relayer.Requests
