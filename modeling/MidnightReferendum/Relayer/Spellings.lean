import MidnightReferendum.Relayer.Persistence
import MidnightReferendum.Relayer.Tokens

/-!
# Spellings of a token

A token is accepted when its decoded signature is right, and the digest that the store consumes is one of its
text. Since the decoder ignores some characters and bits, one signature has several texts.
-/

namespace MidnightReferendum.Relayer

open Js

/-! ## Digests -/

theorem encodeUtf8_point (a b : JsString) :
    encodeUtf8 (a ++ 0x2E :: b) = encodeUtf8 a ++ 0x2E :: encodeUtf8 b := by
  have hpoint : encodeUtf8 (0x2E :: b) = 0x2E :: encodeUtf8 b := by
    cases b with
    | nil => rfl
    | cons v b =>
      rw [encodeUtf8, show isHighSurrogate 0x2E = false by decide, Bool.false_and, if_neg Bool.false_ne_true]
      rfl
  induction a using encodeUtf8.induct with
  | case1 u v a hpair ih =>
    rw [List.cons_append, List.cons_append, encodeUtf8, encodeUtf8, if_pos hpair, if_pos hpair, ih,
      List.append_assoc]
  | case2 u v a hpair ih =>
    rw [List.cons_append, List.cons_append, encodeUtf8, encodeUtf8, if_neg hpair, if_neg hpair,
      ← List.cons_append, ih, List.append_assoc]
  | case3 u =>
    rw [List.singleton_append, encodeUtf8, show isLowSurrogate 0x2E = false by decide, Bool.and_false,
      if_neg Bool.false_ne_true, hpoint, encodeUtf8]
  | case4 => exact hpoint

/-! ## Capabilities with one payload -/

/-- The texts of the signatures are the same, up to halves of surrogate pairs, which no digest tells apart. -/
def SameSpelling (token token' : JsString) : Prop :=
  encodeUtf8 (signatureSegment token) = encodeUtf8 (signatureSegment token')

instance (token token' : JsString) : Decidable (SameSpelling token token') :=
  inferInstanceAs (Decidable (_ = _))

section Accepted

variable {crypto : Crypto} {token token' secret : JsString} {expected expected' : CapabilityClaims}
  {now now' : ℚ} {result result' : VerifiedCapability}

theorem Verified.bytes (h : Verified crypto token secret expected now result) :
    encodeUtf8 token = encodeUtf8 (payloadSegment token) ++ 0x2E :: encodeUtf8 (signatureSegment token) :=
  (congrArg encodeUtf8 h.parts).trans (encodeUtf8_point _ _)

theorem digest_eq_iff (h : Verified crypto token secret expected now result)
    (h' : Verified crypto token' secret expected' now' result')
    (hpayload : payloadSegment token = payloadSegment token')
    (hcollision : crypto.sha256 (digestInput token) = crypto.sha256 (digestInput token') →
      digestInput token = digestInput token') :
    result.digest = result'.digest ↔ SameSpelling token token' := by
  have hinput : digestInput token = digestInput token' ↔ SameSpelling token token' := by
    rw [digestInput, digestInput, List.append_cancel_left_eq, h.bytes, h'.bytes, hpayload,
      List.append_cancel_left_eq, List.cons.injEq, SameSpelling]
    exact and_iff_right rfl
  rw [h.digest, h'.digest, digestCapability, digestCapability]
  constructor
  · exact fun heq ↦ hinput.mp (hcollision (bytesToHex_injective heq))
  · intro hsame
    rw [hinput.mpr hsame]

theorem noCollision_of_ne (h : digestCapability crypto token ≠ digestCapability crypto token') :
    crypto.sha256 (digestInput token) = crypto.sha256 (digestInput token') →
      digestInput token = digestInput token' :=
  fun heq ↦ absurd (congrArg bytesToHex heq) h

theorem consumeCapability_twice {s : MemoryStore} {r r' : Reservation}
    (hfresh : s.capabilities.get? r'.digest = none) :
    ((s.consumeCapability r).2.consumeCapability r').1 = false ↔ r.digest = r'.digest := by
  have hset : (s.consumeCapability r).2.capabilities.get? r'.digest =
      if r.digest = r'.digest then some r else none := by
    unfold MemoryStore.consumeCapability
    split
    · next reservation hreservation =>
      have hne : r.digest ≠ r'.digest := fun heq ↦ by
        rw [heq, hfresh] at hreservation
        cases hreservation
      rw [if_neg hne]
      exact hfresh
    · rw [KeyedList.get?_set, hfresh]
  rw [MemoryStore.consumeCapability, hset]
  split
  · next heq =>
    split at heq
    · next hsame => simp [hsame]
    · cases heq
  · next heq =>
    split at heq
    · cases heq
    · next hne => simp [hne]

/-- Two accepted tokens with one payload have the same digest, so that consuming one uses the other up, if and
only if their signatures are spelled the same. -/
theorem capability_used_up_iff
    (h : verifyV2Capability crypto token secret expected now = .ok result)
    (h' : verifyV2Capability crypto token' secret expected' now' = .ok result')
    (hpayload : payloadSegment token = payloadSegment token')
    (hcollision : crypto.sha256 (digestInput token) = crypto.sha256 (digestInput token') →
      digestInput token = digestInput token') :
    (result.digest = result'.digest ↔ SameSpelling token token') ∧
      ∀ (s : MemoryStore) (r r' : Reservation), r.digest = result.digest → r'.digest = result'.digest →
        s.capabilities.get? r'.digest = none →
          (((s.consumeCapability r).2.consumeCapability r').1 = false ↔ SameSpelling token token') := by
  have hdigest := digest_eq_iff (verifyV2Capability_ok h) (verifyV2Capability_ok h') hpayload hcollision
  refine ⟨hdigest, fun s r r' hr hr' hfresh ↦ ?_⟩
  rw [consumeCapability_twice hfresh, hr, hr', hdigest]

/-- The same of the file, whose reservations are read back as they are written. -/
theorem file_used_up_iff (h : Verified crypto token secret expected now result)
    (h' : Verified crypto token' secret expected' now' result')
    (hpayload : payloadSegment token = payloadSegment token')
    (hcollision : crypto.sha256 (digestInput token) = crypto.sha256 (digestInput token') →
      digestInput token = digestInput token') {s : MemoryStore} {r r' : Reservation}
    (hr : r.digest = result.digest) (hr' : r'.digest = result'.digest) (hreadable : r.Readable)
    (hreadable' : r'.Readable) (hfresh : s.capabilities.get? r'.digest = none) :
    ((s.fileState.consumeCapability r).2.consumeCapability r').1 = false ↔ SameSpelling token token' := by
  rw [consumeCapability_fileState fun _ ↦ hreadable,
    consumeCapability_fileState fun _ ↦ hreadable']
  calc
    ((s.consumeCapability r).2.consumeCapability r').1 = false ↔ r.digest = r'.digest :=
      consumeCapability_twice hfresh
    _ ↔ result.digest = result'.digest := by rw [hr, hr']
    _ ↔ SameSpelling token token' := digest_eq_iff h h' hpayload hcollision

end Accepted

/-! ## A token and its respelling -/

def samplePayload : JsString :=
  js "eyJ2IjoxLCJhY3Rpb25JZC" ++ js "I6ImFjdGlvbi0xIiwiaWRl" ++
    js "bXBvdGVuY3lLZXkiOiJyZX" ++ js "F1ZXN0LTEiLCJuZXR3b3Jr" ++
    js "IjoicHJldmlldyIsImNvbn" ++ js "RyYWN0QWRkcmVzcyI6ImNv" ++
    js "bnRyYWN0LTEiLCJjaXJjdW" ++ js "l0IjoiY2FzdFZvdGUiLCJh" ++
    js "Y3Rpb24iOiJ2b3RlIiwicm" ++ js "VxdWVzdEhhc2giOiJhYWFh" ++
    js "YWFhYWFhYWFhYWFhYWFhYW" ++ js "FhYWFhYWFhYWFhYWFhYWFh" ++
    js "YWFhYWFhYWFhYWFhYWFhYW" ++ js "FhYWFhYWFhYWFhIiwiZXhw" ++
    js "aXJlc0F0IjoyMDAwfQ"

def sampleClaims : CapabilityClaims where
  actionId := js "action-1"
  idempotencyKey := js "request-1"
  network := js "preview"
  contractAddress := js "contract-1"
  circuit := js "castVote"
  action := .vote
  requestHash := List.replicate 64 0x61

/-- The token of the sample claims. The last character of its signature has two bits that no byte needs. -/
def sampleToken : JsString := samplePayload ++ js ".30ejRYiG6wRufPJP9lQdfXEuIYQ7MtrJxXHkaVYMNzA"

def respelledToken : JsString := samplePayload ++ js ".30ejRYiG6wRufPJP9lQdfXEuIYQ7MtrJxXHkaVYMNzB"

/-- The hash functions on the sample token, and on its respelling. -/
def sampleCrypto : Crypto where
  hmacSha256 key message :=
    if key = encodeUtf8 (js "test-secret") ∧
        message = encodeUtf8 (js "midnight-referendum:v2-capability:1:" ++ samplePayload) then
      [223, 71, 163, 69, 136, 134, 235, 4, 110, 124, 242, 79, 246, 84, 29, 125, 113, 46, 33, 132, 59, 50, 218, 201,
        197, 113, 228, 105, 86, 12, 55, 48]
    else []
  sha256 bytes :=
    if bytes = digestInput sampleToken then
      [0xec, 0x18, 0x01, 0xa9, 0x56, 0xd3, 0x7a, 0x7d, 0x96, 0x6b, 0xba, 0xcb, 0x56, 0x83, 0xd8, 0xd0, 0x1e, 0xc3,
        0x08, 0x5a, 0x82, 0x48, 0x01, 0x48, 0x8e, 0xed, 0x55, 0x66, 0xa2, 0x16, 0x49, 0xb7]
    else if bytes = digestInput respelledToken then
      [0x39, 0x94, 0x62, 0xa2, 0x5b, 0x52, 0x9b, 0x64, 0xa2, 0xbe, 0xaa, 0x01, 0x2e, 0x9c, 0xba, 0x72, 0x2c, 0x73,
        0x45, 0x29, 0x90, 0xb9, 0xe2, 0x4e, 0x11, 0xd1, 0x1f, 0x40, 0x2d, 0x11, 0xd4, 0x56]
    else []

def sampleVerified (token : JsString) : VerifiedCapability := ⟨digestCapability sampleCrypto token, 2000⟩

/-- Both tokens are accepted for the same payload, and their digests differ. -/
theorem sampleTokens_accepted :
    (∀ token ∈ [sampleToken, respelledToken],
      verifyV2Capability sampleCrypto token (js "test-secret") sampleClaims 1000 = .ok (sampleVerified token) ∧
        payloadSegment token = samplePayload) ∧
      digestCapability sampleCrypto sampleToken ≠ digestCapability sampleCrypto respelledToken := by
  decide +kernel

theorem capability_used_up_iff_sample :
    ((sampleVerified sampleToken).digest = (sampleVerified respelledToken).digest ↔
        SameSpelling sampleToken respelledToken) ∧
      ∀ (s : MemoryStore) (r r' : Reservation), r.digest = (sampleVerified sampleToken).digest →
        r'.digest = (sampleVerified respelledToken).digest → s.capabilities.get? r'.digest = none →
          (((s.consumeCapability r).2.consumeCapability r').1 = false ↔
            SameSpelling sampleToken respelledToken) := by
  obtain ⟨haccepted, hdigest⟩ := sampleTokens_accepted
  obtain ⟨htoken, hpayload⟩ := haccepted sampleToken (by simp)
  obtain ⟨hrespelled, hpayload'⟩ := haccepted respelledToken (by simp)
  exact capability_used_up_iff htoken hrespelled (hpayload.trans hpayload'.symm) (noCollision_of_ne hdigest)

/-- The respelled token is accepted for the same claims, and its digest is another one, so it is consumed again
after the token itself. -/
theorem respelled_token_accepted_again :
    (verifyV2Capability sampleCrypto sampleToken (js "test-secret") sampleClaims 1000 =
        .ok (sampleVerified sampleToken) ∧
      verifyV2Capability sampleCrypto respelledToken (js "test-secret") sampleClaims 1000 =
        .ok (sampleVerified respelledToken)) ∧
      payloadSegment sampleToken = payloadSegment respelledToken ∧
      digestCapability sampleCrypto sampleToken ≠ digestCapability sampleCrypto respelledToken := by
  obtain ⟨haccepted, hdigest⟩ := sampleTokens_accepted
  obtain ⟨htoken, hpayload⟩ := haccepted sampleToken (by simp)
  obtain ⟨hrespelled, hpayload'⟩ := haccepted respelledToken (by simp)
  exact ⟨⟨htoken, hrespelled⟩, hpayload.trans hpayload'.symm, hdigest⟩

end MidnightReferendum.Relayer
