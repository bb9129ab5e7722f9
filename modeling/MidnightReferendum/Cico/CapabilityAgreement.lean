import MidnightReferendum.Cico.ActionCapabilities

/-!
# The issuer and the relay

What the relay does with a token that the issuer signs. It refuses a token that is longer than 4096 characters,
and one whose expiry is not a safe integer. The issuer does not look at either.
-/

namespace MidnightReferendum.ActionCapability

open Js Relayer

/-! ## The payload -/

theorem valid_numberValue (now : Option JsNumber) (seconds : ℤ) : (numberValue (addSeconds now seconds)).Valid := by
  cases hsum : addSeconds now seconds with
  | none => exact .null
  | some sum =>
    cases sum with
    | infinite negative => exact .null
    | finite x =>
      have hdouble : IsDouble x := by
        cases now with
        | none => cases hsum
        | some now =>
          cases now with
          | infinite negative => cases hsum
          | finite value => exact isDouble_of_toDouble (Option.some.inj hsum)
      exact .number hdouble

theorem valid_payload {request : IssuanceRequest} {expiresAt : Option JsNumber} (h : (numberValue expiresAt).Valid) :
    (payload request expiresAt).Valid := by
  have hnames : ([js "v", js "actionId", js "idempotencyKey", js "network", js "contractAddress", js "circuit",
      js "action", js "requestHash", js "expiresAt"]).Nodup ∧
      ([js "v", js "actionId", js "idempotencyKey", js "network", js "contractAddress", js "circuit", js "action",
        js "requestHash", js "expiresAt"]).Pairwise fun a b ↦ propertyRank a ≤ propertyRank b := by
    decide +kernel
  have hone : IsDouble 1 := by exact_mod_cast isDouble_intCast (m := 1) (by decide)
  refine .object hnames.1
    ((List.pairwise_map (f := Prod.fst) (R := fun a b ↦ propertyRank a ≤ propertyRank b)).mp hnames.2) ?_
  intro field hfield
  simp only [List.mem_cons, List.not_mem_nil, or_false] at hfield
  obtain rfl | rfl | rfl | rfl | rfl | rfl | rfl | rfl | rfl := hfield
  · exact .number hone
  all_goals first | exact .string _ | exact h

/-- The fields of a payload. -/
def payloadFields (request : IssuanceRequest) (expiresAt : Option JsNumber) : List (JsString × Json) :=
  ((payload request expiresAt).record?).getD []

/-- The payload is read back by the relay, unless its expiry is not a safe integer. -/
theorem payloadFields?_encodedPayload {request : IssuanceRequest} {expiresAt : Option JsNumber}
    (h : (numberValue expiresAt).Valid) :
    payloadFields? (encodedPayload request expiresAt) =
      (numberValue expiresAt).safeInteger?.map fun expiry ↦ (payloadFields request expiresAt, expiry) := by
  have hvalid : (payload request expiresAt).Valid := valid_payload h
  have hparse : Json.parse (decodeUtf8 (fromBase64url (encodedPayload request expiresAt))) =
      some (.object (payloadFields request expiresAt)) := by
    rw [encodedPayload, fromBase64url_base64url, decodeUtf8_encodeUtf8 hvalid.isWellFormed,
      Json.parse_stringify hvalid]
    rfl
  have hversion : (Json.number (.finite 1)).safeInteger? = some 1 := by decide
  have hv : field? (payloadFields request expiresAt) (js "v") = some (.number (.finite 1)) := rfl
  have hexpiry : field? (payloadFields request expiresAt) (js "expiresAt") = some (numberValue expiresAt) := rfl
  rw [payloadFields?, hparse]
  simp only [Option.bind_eq_bind, Option.bind_some, Json.record?_object, hv, hexpiry, hversion, if_pos]
  cases (numberValue expiresAt).safeInteger? with
  | none => rfl
  | some expiry => rfl

/-- The claims of a request. The action of an accepted request is one of the kinds. -/
def IssuanceRequest.claims (request : IssuanceRequest) : CapabilityClaims where
  actionId := request.actionId
  idempotencyKey := request.idempotencyKey
  network := request.network
  contractAddress := request.contractAddress
  circuit := request.circuit
  action := (CivicActionKind.ofText? request.action).getD .vote
  requestHash := request.requestHash

/-- A payload binds the claims of its request and no others. -/
theorem bindsTo_payload_iff {request : IssuanceRequest} {expiresAt : Option JsNumber} (haction : request.action = js "vote")
    {expected : CapabilityClaims} :
    expected.entries.all (bindsTo (payloadFields request expiresAt)) = true ↔ expected = request.claims := by
  have hbind : ∀ {name value given : JsString},
      field? (payloadFields request expiresAt) name = some (.string given) →
        (bindsTo (payloadFields request expiresAt) (name, value) = true ↔ value = given) := by
    intro name value given hfield
    rw [bindsTo, hfield, Option.bind_some, Json.string?_string, beq_iff_eq, Option.some.injEq]
    exact eq_comm
  have hvote : expected.action.text = js "vote" ↔ expected.action = .vote := by
    cases expected.action <;> decide
  have hkind : (CivicActionKind.ofText? request.action).getD .vote = .vote := by
    rw [haction]
    decide
  rw [List.all_eq_true]
  simp only [CapabilityClaims.entries, List.mem_cons, List.not_mem_nil, or_false, forall_eq_or_imp, forall_eq]
  rw [hbind rfl, hbind rfl, hbind rfl, hbind rfl, hbind rfl, hbind rfl, hbind rfl, haction, hvote]
  rw [IssuanceRequest.claims, hkind, CapabilityClaims.mk.injEq]

/-! ## The size of a token -/

/-- The number of bytes of a text in a JSON text. -/
def jsonSize (text : JsString) : ℕ := (encodeUtf8 (quote text)).length

/-- The number of bytes of a payload whose expiry is a number. -/
def payloadSize (request : IssuanceRequest) (expiry : ℚ) : ℕ :=
  116 + jsonSize request.actionId + jsonSize request.idempotencyKey + jsonSize request.network +
    jsonSize request.contractAddress + jsonSize request.circuit + jsonSize request.action +
    jsonSize request.requestHash + (encodeUtf8 (numberText expiry)).length

/-- Each field has its name, a colon, its value, and the comma or the brace after it. -/
theorem length_stringifyFields {fields : List (JsString × Json)} (hne : fields ≠ [])
    (h : ∀ field ∈ fields, isWellFormed field.2.stringify) :
    (encodeUtf8 (stringifyFields fields)).length + 1 =
      (fields.map fun field ↦ jsonSize field.1 + (encodeUtf8 field.2.stringify).length + 2).sum := by
  have hmark : ∀ {mark : JsString}, mark ∈ [js ":", js ","] → isWellFormed mark ∧ (encodeUtf8 mark).length = 1 := by
    decide
  obtain ⟨hcolon, hcolonLength⟩ := @hmark (js ":") (by decide)
  obtain ⟨hcomma, hcommaLength⟩ := @hmark (js ",") (by decide)
  have hone : ∀ {name : JsString} {value : Json} (rest : JsString), isWellFormed value.stringify →
      (encodeUtf8 (quote name ++ js ":" ++ value.stringify ++ rest)).length =
        jsonSize name + (encodeUtf8 value.stringify).length + 1 + (encodeUtf8 rest).length := by
    intro name value rest hvalue
    have hname := isWellFormed_append (isWellFormed_quote name) hcolon
    rw [encodeUtf8_append (isWellFormed_append hname hvalue), encodeUtf8_append hname,
      encodeUtf8_append (isWellFormed_quote name), List.length_append, List.length_append, List.length_append,
      hcolonLength, jsonSize]
    omega
  induction fields with
  | nil => exact absurd rfl hne
  | cons field fields ih =>
    obtain ⟨name, value⟩ := field
    have hvalue : isWellFormed value.stringify := h _ List.mem_cons_self
    rw [List.map_cons, List.sum_cons]
    cases fields with
    | nil =>
      have hlength := @hone name value [] hvalue
      rw [List.append_nil] at hlength
      rw [stringifyFields, hlength]
      rfl
    | cons next fields =>
      have hrest := ih (List.cons_ne_nil _ _) fun field hfield ↦ h field (List.mem_cons_of_mem _ hfield)
      rw [stringifyFields, List.append_assoc, hone _ hvalue, encodeUtf8_append hcomma, List.length_append,
        hcommaLength, ← hrest]
      change _ = jsonSize name + (encodeUtf8 value.stringify).length + 2 + _
      omega

theorem length_payload {request : IssuanceRequest} {expiry : ℚ} (h : IsDouble expiry) :
    (encodeUtf8 (payload request (some (.finite expiry))).stringify).length = payloadSize request expiry := by
  have hvalid := @valid_payload request (some (.finite expiry)) (.number h)
  have hfields : ∀ field ∈ payloadFields request (some (.finite expiry)), isWellFormed field.2.stringify := by
    cases hvalid with
    | object _ _ hvalues => exact fun field hfield ↦ (hvalues field hfield).isWellFormed
  have hlength := length_stringifyFields (List.cons_ne_nil _ _) hfields
  have hnames : jsonSize (js "v") = 3 ∧ jsonSize (js "actionId") = 10 ∧ jsonSize (js "idempotencyKey") = 16 ∧
      jsonSize (js "network") = 9 ∧ jsonSize (js "contractAddress") = 17 ∧ jsonSize (js "circuit") = 9 ∧
      jsonSize (js "action") = 8 ∧ jsonSize (js "requestHash") = 13 ∧ jsonSize (js "expiresAt") = 11 := by
    decide +kernel
  have hone : (encodeUtf8 (Json.number (.finite 1)).stringify).length = 1 := by decide +kernel
  have hstring : ∀ text, (encodeUtf8 (Json.string text).stringify).length = jsonSize text := fun _ ↦ rfl
  have hnumber : (encodeUtf8 (Json.number (.finite expiry)).stringify).length = (encodeUtf8 (numberText expiry)).length := by
    rw [Json.stringify]
  simp only [numberValue, List.map_cons, List.map_nil, List.sum_cons, List.sum_nil, hnames, hone, hstring,
    hnumber] at hlength
  have hbraces : (encodeUtf8 (js "\x7b")).length = 1 ∧ (encodeUtf8 (js "\x7d")).length = 1 := by decide
  have hinner : isWellFormed (js "\x7b" ++ stringifyFields (payloadFields request (some (.finite expiry)))) :=
    isWellFormed_append (by decide) (isWellFormed_stringifyFields hfields)
  have htext : (payload request (some (.finite expiry))).stringify =
      js "\x7b" ++ stringifyFields (payloadFields request (some (.finite expiry))) ++ js "\x7d" := by
    rw [payload, Json.stringify]
    rfl
  rw [htext, encodeUtf8_append hinner, encodeUtf8_append (by decide), List.length_append, List.length_append,
    hbraces.1, hbraces.2, payloadSize]
  simp only [payloadFields, payload, Json.record?_object, Option.getD_some, numberValue]
  omega

/-! ## What the relay does with a token -/

/-- A call of `issue`, with the answers of the clock and of `credentialAuthorizationExists`. -/
structure IssueCall where
  issuer : Issuer
  now : Option JsNumber
  authorized : Bool
  request : IssuanceRequest

def IssueCall.token (crypto : Crypto) (call : IssueCall) : Option JsString :=
  issue crypto call.issuer call.now call.authorized call.request

def IssueCall.expiresAt (call : IssueCall) : Option JsNumber := addSeconds call.now call.issuer.ttlSeconds

section Issued

variable {crypto : Crypto} {call : IssueCall} {token : JsString}

/-- What a token that is issued consists of. -/
structure Issued (crypto : Crypto) (call : IssueCall) (token : JsString) : Prop where
  vote : call.request.action = js "vote"
  keyed : call.issuer.secret ≠ []
  segments : Relayer.segments token = [encodedPayload call.request call.expiresAt,
    base64url (signature crypto (encodedPayload call.request call.expiresAt) call.issuer.secret)]
  length : token.length = (encodedPayload call.request call.expiresAt).length + 1 +
    (base64url (signature crypto (encodedPayload call.request call.expiresAt) call.issuer.secret)).length

theorem IssueCall.issued (h : call.token crypto = some token) : Issued crypto call token := by
  unfold IssueCall.token issue at h
  split at h
  · next haccepted =>
    obtain ⟨_, _, _, _, hcircuit, _⟩ := haccepted
    cases h
    refine ⟨?_, ?_, ?_, ?_⟩
    · unfold actionForCircuit at hcircuit
      split at hcircuit
      · exact (Option.some.inj hcircuit).symm
      · cases hcircuit
    · intro hempty
      have hlong := call.issuer.secret_long
      rw [hempty] at hlong
      exact absurd hlong (by decide)
    · have hpoint : 0x2E ∉ encodedPayload call.request (addSeconds call.now call.issuer.ttlSeconds) :=
        fun hmem ↦ base64url_ne hmem rfl
      rw [show js "." = [0x2E] by decide, List.append_assoc, List.singleton_append, segments_append hpoint,
        segments_of_not_mem fun hmem ↦ base64url_ne hmem rfl]
      rfl
    · rw [List.length_append, List.length_append]
      rfl
  · cases h

/-- The relay on a token that is issued. -/
theorem verifyV2Capability_issued (h : call.token crypto = some token)
    (hlength : ∀ key message, (crypto.hmacSha256 key message).length = 32) (expected : CapabilityClaims) (t : ℚ) :
    verifyV2Capability crypto token call.issuer.secret expected t =
      if 4096 < token.length then .error "invalid capability"
      else
        match (numberValue call.expiresAt).safeInteger? with
        | none => .error "invalid capability"
        | some expiry =>
          if expiry ≤ t then .error "expired capability"
          else if expected = call.request.claims then .ok ⟨digestCapability crypto token, expiry⟩
          else .error "capability binding mismatch" := by
  obtain ⟨hvote, hkeyed, hsegments, _⟩ := IssueCall.issued h
  have hvalid : (numberValue call.expiresAt).Valid := valid_numberValue _ _
  have hpayload : encodedPayload call.request call.expiresAt ≠ [] := by
    intro hempty
    have hbytes := congrArg fromBase64url hempty
    rw [encodedPayload, fromBase64url_base64url] at hbytes
    exact (valid_payload hvalid).encodeUtf8_ne hbytes
  have hsignature : base64url (signature crypto (encodedPayload call.request call.expiresAt) call.issuer.secret) ≠ [] := by
    intro hempty
    have hlen := congrArg List.length hempty
    rw [length_base64url, signature, hlength] at hlen
    cases hlen
  rw [verifyV2Capability, hsegments]
  simp only [hkeyed, false_or, hpayload, hsignature, or_self, if_false, fromBase64url_base64url, ne_eq, not_true_eq_false]
  by_cases hlong : 4096 < token.length
  · rw [if_pos hlong, if_pos hlong]
  rw [if_neg hlong, if_neg hlong, payloadFields?_encodedPayload hvalid]
  cases (numberValue call.expiresAt).safeInteger? with
  | none => rfl
  | some expiry => simp only [Option.map_some, bindsTo_payload_iff hvote]

/-! ## The agreement -/

/-- The time is before the expiry. -/
def Earlier (t : ℚ) : Option JsNumber → Prop
  | some (.finite expiry) => t < expiry
  | some (.infinite negative) => negative = false
  | none => False

/-- The expiry has come. -/
def Reached (t : ℚ) : Option JsNumber → Prop
  | some (.finite expiry) => expiry ≤ t
  | some (.infinite negative) => negative = true
  | none => False

/-- Only a payload that was issued with the secret has a signature that verifies. -/
def Unforged (crypto : Crypto) (calls : List IssueCall) (secret presented : JsString) : Prop :=
  fromBase64url (signatureSegment presented) = signature crypto (payloadSegment presented) secret →
    ∃ other ∈ calls, other.issuer.secret = secret ∧
      ∃ issued, other.token crypto = some issued ∧ payloadSegment issued = payloadSegment presented

/-- The relay and the issuer agree about a token that was issued. -/
structure Agrees (crypto : Crypto) (calls : List IssueCall) (call : IssueCall) (token : JsString) : Prop where
  accepted : ∀ t, Earlier t call.expiresAt →
    ∃ result, verifyV2Capability crypto token call.issuer.secret call.request.claims t = .ok result
  expired : ∀ t expected result, Reached t call.expiresAt →
    verifyV2Capability crypto token call.issuer.secret expected t ≠ .ok result
  bound : ∀ t expected result, verifyV2Capability crypto token call.issuer.secret expected t = .ok result →
    expected = call.request.claims
  named : ∀ presented t expected result, Unforged crypto calls call.issuer.secret presented →
    verifyV2Capability crypto presented call.issuer.secret expected t = .ok result →
      ∃ other ∈ calls, (other.token crypto).isSome ∧ other.request.claims = expected

/-- The expiry is a safe integer, and the payload has room in a token of 4096 characters. No time is before an expiry
that is `NaN` or negative infinity. -/
def Usable (call : IssueCall) : Prop :=
  match call.expiresAt with
  | some (.finite expiry) =>
    (expiry.den = 1 ∧ |expiry.num| ≤ maxSafeInteger) ∧ payloadSize call.request expiry ≤ 3039
  | some (.infinite negative) => negative = true
  | none => True

theorem safeInteger?_finite {x : ℚ} {m : ℤ} :
    (Json.number (.finite x)).safeInteger? = some m ↔ (x.den = 1 ∧ |x.num| ≤ maxSafeInteger) ∧ x = m := by
  rw [Json.safeInteger?]
  constructor
  · intro h
    split at h
    · next hsafe =>
      exact ⟨hsafe, by rw [← Option.some.inj h, Rat.coe_int_num_of_den_eq_one hsafe.1]⟩
    · cases h
  · rintro ⟨hsafe, rfl⟩
    rw [if_pos hsafe, Rat.num_intCast]

/-- The signature and the point leave 4052 characters to the payload. -/
theorem length_le_iff (h : call.token crypto = some token)
    (hlength : ∀ key message, (crypto.hmacSha256 key message).length = 32) {expiry : ℚ}
    (hexpiry : call.expiresAt = some (.finite expiry)) :
    token.length ≤ 4096 ↔ payloadSize call.request expiry ≤ 3039 := by
  have hvalid : (numberValue call.expiresAt).Valid := valid_numberValue _ _
  rw [hexpiry] at hvalid
  have hdouble : IsDouble expiry := by
    cases hvalid with
    | number hdouble => exact hdouble
  rw [(IssueCall.issued h).length, length_base64url, signature, hlength, encodedPayload, length_base64url, hexpiry,
    length_payload hdouble]
  omega

theorem accepted_iff (h : call.token crypto = some token)
    (hlength : ∀ key message, (crypto.hmacSha256 key message).length = 32) :
    (∀ t, Earlier t call.expiresAt →
      ∃ result, verifyV2Capability crypto token call.issuer.secret call.request.claims t = .ok result) ↔
        Usable call := by
  have hverify := verifyV2Capability_issued h hlength call.request.claims
  unfold Usable
  cases hexpiry : call.expiresAt with
  | none => exact iff_of_true (fun t hearly ↦ hearly.elim) trivial
  | some number =>
    rw [hexpiry] at hverify
    cases number with
    | infinite negative =>
      have hnever : ∀ t result,
          verifyV2Capability crypto token call.issuer.secret call.request.claims t ≠ .ok result := by
        intro t result hok
        rw [hverify] at hok
        split at hok
        · cases hok
        · cases hok
      constructor
      · intro haccepted
        cases negative with
        | true => rfl
        | false =>
          obtain ⟨result, hok⟩ := haccepted 0 rfl
          exact (hnever 0 result hok).elim
      · intro hnegative t hearly
        rw [Earlier, hnegative] at hearly
        cases hearly
    | finite expiry =>
      dsimp only
      rw [← length_le_iff h hlength hexpiry]
      constructor
      · intro haccepted
        obtain ⟨result, hok⟩ := haccepted (expiry - 1) (sub_one_lt expiry)
        rw [hverify] at hok
        split at hok
        · cases hok
        · next hshort =>
          cases hsafe : (Json.number (.finite expiry)).safeInteger? with
          | none =>
            simp only [numberValue, hsafe] at hok
            cases hok
          | some m => exact ⟨(safeInteger?_finite.mp hsafe).1, not_lt.mp hshort⟩
      · rintro ⟨hsafe, hshort⟩ t hearly
        have hinteger : (Json.number (.finite expiry)).safeInteger? = some expiry.num :=
          safeInteger?_finite.mpr ⟨hsafe, (Rat.coe_int_num_of_den_eq_one hsafe.1).symm⟩
        refine ⟨⟨digestCapability crypto token, expiry.num⟩, ?_⟩
        rw [hverify, if_neg (not_lt.mpr hshort)]
        simp only [numberValue, hinteger]
        rw [Rat.coe_int_num_of_den_eq_one hsafe.1, if_neg (not_le.mpr hearly), if_true]

/-- The relay and the issuer agree about a token if and only if its expiry is a safe integer and its payload has room
in a token. -/
theorem issuer_agrees_iff (calls : List IssueCall) (h : call.token crypto = some token)
    (hlength : ∀ key message, (crypto.hmacSha256 key message).length = 32) :
    Agrees crypto calls call token ↔ Usable call := by
  rw [← accepted_iff h hlength]
  refine ⟨Agrees.accepted, fun haccepted ↦ ⟨haccepted, ?_, ?_, ?_⟩⟩
  · intro t expected result hreached hok
    rw [verifyV2Capability_issued h hlength] at hok
    split at hok
    · cases hok
    · split at hok
      · cases hok
      · next expiry hexpiry =>
        cases hnumber : call.expiresAt with
        | none =>
          rw [hnumber] at hreached
          exact hreached
        | some number =>
          rw [hnumber] at hreached hexpiry
          cases number with
          | infinite negative => cases hexpiry
          | finite x =>
            have hx := (safeInteger?_finite.mp hexpiry).2
            have hle : (expiry : ℚ) ≤ t := hx ▸ hreached
            rw [if_pos hle] at hok
            cases hok
  · intro t expected result hok
    rw [verifyV2Capability_issued h hlength] at hok
    split at hok
    · cases hok
    · split at hok
      · cases hok
      · split at hok
        · cases hok
        · split at hok
          · next hsame => exact hsame
          · cases hok
  · intro presented t expected result hunforged hok
    have hverified := verifyV2Capability_ok hok
    obtain ⟨other, hother, _, issued, hissued, hpayload⟩ := hunforged hverified.signed
    refine ⟨other, hother, by rw [hissued]; rfl, ?_⟩
    have hvalid : (numberValue other.expiresAt).Valid := valid_numberValue _ _
    obtain ⟨hvote, _, hsegments, _⟩ := IssueCall.issued hissued
    have hencoded : payloadSegment presented = encodedPayload other.request other.expiresAt := by
      rw [← hpayload, payloadSegment, hsegments]
      rfl
    obtain ⟨fields, hfields, hbinds⟩ := hverified.fields
    rw [hencoded, payloadFields?_encodedPayload hvalid, Option.map_eq_some_iff] at hfields
    obtain ⟨expiry, _, hsame⟩ := hfields
    rw [← (Prod.mk.inj hsame).1, bindsTo_payload_iff hvote] at hbinds
    exact hbinds.symm

end Issued

/-! ## A token that is accepted and one that is refused -/

def sampleSecret : JsString := js "relay-capability-secret" ++ js "-that-is-long-enough"

theorem sampleSecret_long : 32 ≤ sampleSecret.length := by decide +kernel

def sampleIssuer : Issuer where
  secret := sampleSecret
  allowedNetworks := [js "undeployed"]
  allowedContracts := [js "contract-1"]
  allowedCircuits := [js "castVote"]
  ttlSeconds := 60
  secret_long := sampleSecret_long
  allowlists_ne := ⟨List.cons_ne_nil _ _, List.cons_ne_nil _ _, List.cons_ne_nil _ _⟩
  ttl_bounds := ⟨Int.le.intro 45 rfl, Int.le.intro 540 rfl⟩

def sampleCall (actionId idempotencyKey : JsString) : IssueCall where
  issuer := sampleIssuer
  now := some (.finite 1000)
  authorized := true
  request := ⟨actionId, idempotencyKey, (List.replicate 32 (js "ab")).flatten, js "undeployed", js "contract-1",
    js "castVote", js "vote", js "credential:issued-1"⟩

def sampleEncoded : JsString :=
  js "eyJ2IjoxLCJhY3Rpb25JZC" ++ js "I6ImFjdGlvbi0xIiwiaWRl" ++
    js "bXBvdGVuY3lLZXkiOiJpZG" ++ js "VtLTEiLCJuZXR3b3JrIjoi" ++
    js "dW5kZXBsb3llZCIsImNvbn" ++ js "RyYWN0QWRkcmVzcyI6ImNv" ++
    js "bnRyYWN0LTEiLCJjaXJjdW" ++ js "l0IjoiY2FzdFZvdGUiLCJh" ++
    js "Y3Rpb24iOiJ2b3RlIiwicm" ++ js "VxdWVzdEhhc2giOiJhYmFi" ++
    js "YWJhYmFiYWJhYmFiYWJhYm" ++ js "FiYWJhYmFiYWJhYmFiYWJh" ++
    js "YmFiYWJhYmFiYWJhYmFiYW" ++ js "JhYmFiYWJhYmFiIiwiZXhw" ++
    js "aXJlc0F0IjoxMDYwfQ"

/-- HMAC on the payload of the sample. -/
def sampleHmac : Crypto where
  sha256 _ := []
  hmacSha256 key message :=
    if key = encodeUtf8 sampleSecret ∧
        message = encodeUtf8 (js "midnight-referendum:v2-capability:1:" ++ sampleEncoded) then
      [0x9a, 0xbd, 0x75, 0xc8, 0x7e, 0x72, 0xd1, 0x0f, 0x37, 0xcc, 0x94, 0x9d, 0xf7, 0x92, 0x28, 0x3d,
                0xc6, 0x44, 0xf8, 0xa2, 0x6a, 0x51, 0x47, 0x9a, 0xc9, 0xe2, 0x52, 0x73, 0xc8, 0xce, 0xb9, 0x94]
    else List.replicate 32 0

theorem length_sampleHmac (key message : List UInt8) : (sampleHmac.hmacSha256 key message).length = 32 := by
  unfold sampleHmac
  dsimp only
  split
  · rfl
  · exact List.length_replicate

theorem issuer_agrees_iff_sample :
    ∃ token, (sampleCall (js "action-1") (js "idem-1")).token sampleHmac = some token ∧
      (Agrees sampleHmac [sampleCall (js "action-1") (js "idem-1")] (sampleCall (js "action-1") (js "idem-1")) token ↔
        Usable (sampleCall (js "action-1") (js "idem-1"))) := by
  have hissued : ((sampleCall (js "action-1") (js "idem-1")).token sampleHmac).isSome := by decide +kernel
  obtain ⟨token, htoken⟩ := Option.isSome_iff_exists.mp hissued
  exact ⟨token, htoken, issuer_agrees_iff _ htoken length_sampleHmac⟩

/-- A text of 256 control characters, each of which is six characters in a JSON text. -/
def controlText : JsString := List.replicate 256 0x01

/-- A request with such texts is accepted, and the relay refuses its token before it expires. -/
theorem long_request_refused :
    ∃ token, (sampleCall controlText controlText).token sampleHmac = some token ∧
      (sampleCall controlText controlText).expiresAt = some (.finite 1060) ∧
        verifyV2Capability sampleHmac token sampleSecret (sampleCall controlText controlText).request.claims 1000 =
          .error "invalid capability" := by
  have hissued : ((sampleCall controlText controlText).token sampleHmac).isSome := by
    unfold IssueCall.token issue
    rw [if_pos]
    · rfl
    · decide +kernel
  have hexpiry : (sampleCall controlText controlText).expiresAt = some (.finite 1060) := by decide +kernel
  have hlarge : ¬payloadSize (sampleCall controlText controlText).request 1060 ≤ 3039 := by decide +kernel
  obtain ⟨token, htoken⟩ := Option.isSome_iff_exists.mp hissued
  have hlong := (length_le_iff htoken length_sampleHmac hexpiry).not.mpr hlarge
  have hverify := verifyV2Capability_issued htoken length_sampleHmac (sampleCall controlText controlText).request.claims 1000
  rw [if_pos (not_le.mp hlong)] at hverify
  exact ⟨token, htoken, hexpiry, hverify⟩

end MidnightReferendum.ActionCapability
