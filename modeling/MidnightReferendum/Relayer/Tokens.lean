import MidnightReferendum.Js.Base64
import MidnightReferendum.Js.Utf8
import MidnightReferendum.Relayer.Types

/-!
# Capability tokens

A capability token is a JSON payload in base64url, a point, and the signature of the encoded payload in
base64url. The relay verifies it before it accepts an action.
-/

namespace MidnightReferendum.Relayer

open Js

/-- The hash functions of `node:crypto` on bytes. -/
structure Crypto where
  sha256 : List UInt8 → List UInt8
  hmacSha256 : List UInt8 → List UInt8 → List UInt8

/-- `V2CapabilityClaims` without the time. -/
structure CapabilityClaims where
  actionId : JsString
  idempotencyKey : JsString
  network : JsString
  contractAddress : JsString
  circuit : JsString
  action : CivicActionKind
  requestHash : JsString
  deriving DecidableEq

/-- The names and the values of the claims. -/
def CapabilityClaims.entries (claims : CapabilityClaims) : List (JsString × JsString) :=
  [(js "actionId", claims.actionId), (js "idempotencyKey", claims.idempotencyKey),
    (js "network", claims.network), (js "contractAddress", claims.contractAddress),
    (js "circuit", claims.circuit), (js "action", claims.action.text),
    (js "requestHash", claims.requestHash)]

/-- What a verified token gives. -/
structure VerifiedCapability where
  digest : JsString
  expiresAt : ℤ
  deriving DecidableEq

/-- `text.split('.')` -/
def segments : JsString → List JsString
  | [] => [[]]
  | u :: rest =>
    if u == 0x2E then [] :: segments rest
    else
      match segments rest with
      | [] => [[u]]
      | segment :: more => (u :: segment) :: more

def payloadSegment (token : JsString) : JsString := (segments token).headD []

def signatureSegment (token : JsString) : JsString := (segments token).tail.headD []

section Verification

variable (crypto : Crypto)

/-- The bytes that a digest is of. -/
def digestInput (token : JsString) : List UInt8 :=
  encodeUtf8 (js "midnight-referendum:v2-capability-digest:1:") ++ encodeUtf8 token

def digestCapability (token : JsString) : JsString := bytesToHex (crypto.sha256 (digestInput token))

def signature (payload secret : JsString) : List UInt8 :=
  crypto.hmacSha256 (encodeUtf8 secret) (encodeUtf8 (js "midnight-referendum:v2-capability:1:" ++ payload))

/-- The fields of a payload in version one, and the time at which it expires. -/
def payloadFields? (encodedPayload : JsString) : Option (List (JsString × Json) × ℤ) := do
  let payload ← Json.parse (decodeUtf8 (fromBase64url encodedPayload))
  let fields ← payload.record?
  let version ← field? fields (js "v")
  let expiresAt ← field? fields (js "expiresAt")
  if version.safeInteger? = some 1 then return (fields, ← expiresAt.safeInteger?) else none

/-- `payload[key] === value` -/
def bindsTo (fields : List (JsString × Json)) (entry : JsString × JsString) : Bool :=
  ((field? fields entry.1).bind Json.string?) == some entry.2

def verifyV2Capability (token secret : JsString) (expected : CapabilityClaims) (nowSeconds : ℚ) :
    Except String VerifiedCapability :=
  if secret = [] ∨ 4096 < token.length then .error "invalid capability"
  else
    match segments token with
    | [encodedPayload, encodedSignature] =>
      if encodedPayload = [] ∨ encodedSignature = [] then .error "invalid capability"
      else if fromBase64url encodedSignature ≠ signature crypto encodedPayload secret then
        .error "invalid capability"
      else
        match payloadFields? encodedPayload with
        | none => .error "invalid capability"
        | some (fields, expiresAt) =>
          if expiresAt ≤ nowSeconds then .error "expired capability"
          else if expected.entries.all (bindsTo fields) then .ok ⟨digestCapability crypto token, expiresAt⟩
          else .error "capability binding mismatch"
    | _ => .error "invalid capability"

end Verification

/-! ## Segments -/

theorem segments_of_not_mem {text : JsString} (h : 0x2E ∉ text) : segments text = [text] := by
  induction text with
  | nil => rfl
  | cons u text ih =>
    rw [List.mem_cons, not_or] at h
    rw [segments, if_neg fun heq ↦ h.1 (beq_iff_eq.mp heq).symm, ih h.2]

theorem segments_append {text : JsString} (h : 0x2E ∉ text) (rest : JsString) :
    segments (text ++ 0x2E :: rest) = text :: segments rest := by
  induction text with
  | nil => rfl
  | cons u text ih =>
    rw [List.mem_cons, not_or] at h
    rw [List.cons_append, segments, if_neg fun heq ↦ h.1 (beq_iff_eq.mp heq).symm, ih h.2]

/-- The segments are put together with points. -/
theorem intercalate_segments (text : JsString) : [0x2E].intercalate (segments text) = text := by
  have hne : ∀ text : JsString, segments text ≠ [] := by
    intro text
    cases text with
    | nil => exact List.cons_ne_nil _ _
    | cons u text =>
      rw [segments]
      split
      · exact List.cons_ne_nil _ _
      · split <;> exact List.cons_ne_nil _ _
  induction text with
  | nil => rfl
  | cons u text ih =>
    obtain ⟨segment, more, hsegments⟩ := List.exists_cons_of_ne_nil (hne text)
    rw [hsegments] at ih
    rw [segments, hsegments]
    split
    · next hpoint =>
      rw [List.intercalate_cons_cons, ih, beq_iff_eq.mp hpoint]
      rfl
    · rw [← ih]
      cases more with
      | nil => simp
      | cons next more => simp [List.intercalate_cons_cons]

/-- What a token that is accepted consists of. -/
structure Verified (crypto : Crypto) (token secret : JsString) (expected : CapabilityClaims) (nowSeconds : ℚ)
    (result : VerifiedCapability) : Prop where
  keyed : secret ≠ []
  length : token.length ≤ 4096
  parts : token = payloadSegment token ++ 0x2E :: signatureSegment token
  payload : payloadSegment token ≠ []
  signed : fromBase64url (signatureSegment token) = signature crypto (payloadSegment token) secret
  fields : ∃ fields, payloadFields? (payloadSegment token) = some (fields, result.expiresAt) ∧
    expected.entries.all (bindsTo fields)
  early : nowSeconds < result.expiresAt
  digest : result.digest = digestCapability crypto token

theorem verifyV2Capability_ok {crypto : Crypto} {token secret : JsString} {expected : CapabilityClaims}
    {nowSeconds : ℚ} {result : VerifiedCapability}
    (h : verifyV2Capability crypto token secret expected nowSeconds = .ok result) :
    Verified crypto token secret expected nowSeconds result := by
  unfold verifyV2Capability at h
  split at h
  · cases h
  · next hbound =>
    rw [not_or, not_lt] at hbound
    split at h
    · next encodedPayload encodedSignature hsegments =>
      have htoken : token = encodedPayload ++ 0x2E :: encodedSignature := by
        rw [← intercalate_segments token, hsegments]
        simp [List.intercalate_cons_cons]
      have hpayload : payloadSegment token = encodedPayload := by rw [payloadSegment, hsegments]; rfl
      have hsignature : signatureSegment token = encodedSignature := by rw [signatureSegment, hsegments]; rfl
      split at h
      · cases h
      · next hempty =>
        rw [not_or] at hempty
        split at h
        · cases h
        · next hsigned =>
          split at h
          · cases h
          · next fields expiresAt hfields =>
            split at h
            · cases h
            · next hearly =>
              split at h
              · next hbinds =>
                cases h
                exact ⟨hbound.1, hbound.2, by rw [hpayload, hsignature]; exact htoken, by rw [hpayload]; exact hempty.1,
                  by rw [hpayload, hsignature]; exact not_not.mp hsigned, ⟨fields, by rw [hpayload, hfields], hbinds⟩,
                  not_le.mp hearly, rfl⟩
              · cases h
    · cases h

end MidnightReferendum.Relayer
