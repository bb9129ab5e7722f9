import MidnightReferendum.Relayer.Requests
import MidnightReferendum.Relayer.Tokens

/-!
# Hashes of requests

The browser and the relay digest the same JSON text of a request. The text is written with sorted keys, and it
determines the request.
-/

namespace MidnightReferendum.Relayer.Requests

open Js

/-! ## Stable texts -/

mutual

/-- `stableJson`, which the relay and the browser have in the same words. -/
def stableJson : Json → JsString
  | .array items => js "[" ++ (js ",").intercalate (stableItems items) ++ js "]"
  | .object fields => stableObject (stableFields fields)
  | .null => Json.null.stringify
  | .bool value => (Json.bool value).stringify
  | .number value => (Json.number value).stringify
  | .string value => (Json.string value).stringify

def stableItems : List Json → List JsString
  | [] => []
  | item :: items => stableJson item :: stableItems items

def stableFields : List (JsString × Json) → List (JsString × JsString)
  | [] => []
  | (name, value) :: fields => (name, stableJson value) :: stableFields fields

end

/-! ## The two digests -/

def v2RequestHash (crypto : Crypto) (request : ActionRequest) : JsString :=
  bytesToHex (crypto.sha256 (encodeUtf8 (js "midnight-referendum:v2-action:1:") ++ encodeUtf8 (stableJson (.object
    [(js "action", .string request.action.text), (js "contractAddress", .string request.contractAddress),
      (js "circuit", .string request.circuit), (js "network", .string request.network),
      (js "tx", .string (lowerHex request.tx)), (js "version", .number (.finite 1))]))))

/-- `byte.toString(16).padStart(2, '0')` -/
def byteText (byte : UInt8) : JsString :=
  let text := if byte < 16 then [hexUnit byte.toNat] else [hexUnit (byte.toNat / 0x10), hexUnit (byte.toNat % 0x10)]
  List.replicate (2 - text.length) 0x30 ++ text

/-- `digestText` -/
def digestText (crypto : Crypto) (value : JsString) : JsString :=
  (crypto.sha256 (encodeUtf8 value)).flatMap byteText

def walletlessActionRequestHash (crypto : Crypto) (input : ActionRequest) : JsString :=
  digestText crypto (js "midnight-referendum:v2-action:1:" ++ stableJson (.object
    [(js "action", .string input.action.text), (js "contractAddress", .string input.contractAddress),
      (js "circuit", .string input.circuit), (js "network", .string input.network), (js "tx", .string input.tx),
      (js "version", .number (.finite 1))]))

/-- The fields that `submit` sends. A request hash that is not truthy is left out. -/
def submitFields (request : ActionRequest) (requestHash : JsString) : List (JsString × Json) :=
  [(js "action", .string request.action.text), (js "actionId", .string request.actionId),
    (js "circuit", .string request.circuit), (js "contractAddress", .string request.contractAddress),
    (js "idempotencyKey", .string request.idempotencyKey)] ++
  (if requestHash = [] then [] else [(js "requestHash", .string requestHash)]) ++
  [(js "network", .string request.network), (js "tx", .string request.tx)]

/-- The bytes of the body of a submission. -/
def submitBody (request : ActionRequest) (requestHash : JsString) : List UInt8 :=
  encodeUtf8 (Json.object (submitFields request requestHash)).stringify

/-- `readJson` on the bytes of a body. -/
def readJson (bytes : List UInt8) : Option Json :=
  if bytes = [] then some (.object []) else Json.parse (decodeUtf8 bytes)

/-! ## One text for both -/

/-- The text that is digested. -/
def requestText (network contractAddress circuit action tx : JsString) : JsString :=
  js "\x7b" ++ quote (js "action") ++ js ":" ++ (quote action ++ (js "," ++ quote (js "circuit") ++ js ":" ++
    (quote circuit ++ (js "," ++ quote (js "contractAddress") ++ js ":" ++ (quote contractAddress ++
      (js "," ++ quote (js "network") ++ js ":" ++ (quote network ++ (js "," ++ quote (js "tx") ++ js ":" ++
        (quote tx ++ (js "," ++ quote (js "version") ++ js ":" ++ js "1" ++ js "\x7d"))))))))))

theorem sorted_fields (action contractAddress circuit network tx version : JsString) :
    [(js "action", action), (js "contractAddress", contractAddress), (js "circuit", circuit),
      (js "network", network), (js "tx", tx), (js "version", version)].insertionSort
        (fun a b : JsString × JsString ↦ a.1 ≤ b.1) =
      [(js "action", action), (js "circuit", circuit), (js "contractAddress", contractAddress),
        (js "network", network), (js "tx", tx), (js "version", version)] := by
  rfl

theorem stableJson_fields (network contractAddress circuit action tx : JsString) :
    stableJson (.object [(js "action", .string action), (js "contractAddress", .string contractAddress),
      (js "circuit", .string circuit), (js "network", .string network), (js "tx", .string tx),
      (js "version", .number (.finite 1))]) = requestText network contractAddress circuit action tx := by
  have hversion : numberText 1 = js "1" := by decide +kernel
  rw [stableJson, stableObject]
  simp only [stableFields, stableJson, Json.stringify, hversion, sorted_fields]
  simp [requestText, List.intercalate, List.intersperse]

theorem requestText_injective {network network' contractAddress contractAddress' circuit circuit' action action'
    tx tx' : JsString}
    (h : requestText network contractAddress circuit action tx =
      requestText network' contractAddress' circuit' action' tx') :
    network = network' ∧ contractAddress = contractAddress' ∧ circuit = circuit' ∧ action = action' ∧ tx = tx' := by
  rw [requestText, requestText, List.append_cancel_left_eq] at h
  obtain ⟨haction, h⟩ := quote_append_injective h
  rw [List.append_cancel_left_eq] at h
  obtain ⟨hcircuit, h⟩ := quote_append_injective h
  rw [List.append_cancel_left_eq] at h
  obtain ⟨hcontract, h⟩ := quote_append_injective h
  rw [List.append_cancel_left_eq] at h
  obtain ⟨hnetwork, h⟩ := quote_append_injective h
  rw [List.append_cancel_left_eq] at h
  obtain ⟨htx, _⟩ := quote_append_injective h
  exact ⟨hnetwork, hcontract, hcircuit, haction, htx⟩

theorem isWellFormed_requestText (network contractAddress circuit action tx : JsString) :
    isWellFormed (requestText network contractAddress circuit action tx) := by
  have hfield : ∀ {before after value : JsString}, isWellFormed before → isWellFormed after →
      isWellFormed (before ++ (quote value ++ after)) := fun hbefore hafter ↦
    isWellFormed_append hbefore (isWellFormed_append (isWellFormed_quote _) hafter)
  unfold requestText
  apply hfield (by decide)
  apply hfield (by decide)
  apply hfield (by decide)
  apply hfield (by decide)
  apply hfield (by decide)
  decide

/-- The text that the relay digests. -/
def hashedText (request : ActionRequest) : JsString :=
  js "midnight-referendum:v2-action:1:" ++
    requestText request.network request.contractAddress request.circuit request.action.text (lowerHex request.tx)

theorem hashedText_injective {request request' : ActionRequest} (h : hashedText request = hashedText request') :
    request.network = request'.network ∧ request.contractAddress = request'.contractAddress ∧
      request.circuit = request'.circuit ∧ request.action = request'.action ∧
        lowerHex request.tx = lowerHex request'.tx := by
  rw [hashedText, hashedText, List.append_cancel_left_eq] at h
  obtain ⟨hnetwork, hcontract, hcircuit, haction, htx⟩ := requestText_injective h
  have hparsed := congrArg CivicActionKind.ofText? haction
  rw [CivicActionKind.ofText?_text, CivicActionKind.ofText?_text] at hparsed
  exact ⟨hnetwork, hcontract, hcircuit, Option.some.inj hparsed, htx⟩

theorem isWellFormed_hashedText (request : ActionRequest) : isWellFormed (hashedText request) :=
  isWellFormed_append (by decide) (isWellFormed_requestText _ _ _ _ _)

section Digests

variable (crypto : Crypto)

theorem v2RequestHash_eq (request : ActionRequest) :
    v2RequestHash crypto request = bytesToHex (crypto.sha256 (encodeUtf8 (hashedText request))) := by
  rw [v2RequestHash, stableJson_fields, hashedText, encodeUtf8_append (by decide)]

/-- The service takes the same hash of the text, by a function from texts to texts. -/
theorem v2RequestHash_eq_text (request : ActionRequest) :
    v2RequestHash crypto request =
      Relayer.v2RequestHash (fun text ↦ bytesToHex (crypto.sha256 (encodeUtf8 text))) request.network
        request.contractAddress request.circuit request.action request.tx := by
  have htext : hashedText request =
      requestPreimage request.network request.contractAddress request.circuit request.action request.tx := by
    rw [hashedText, requestPreimage, stableObject]
    simp only [sorted_fields]
    simp [requestText, List.intercalate, List.intersperse]
  rw [v2RequestHash_eq, htext]
  rfl

theorem flatMap_byteText (bytes : List UInt8) : bytes.flatMap byteText = bytesToHex bytes := by
  refine congrArg (fun f ↦ bytes.flatMap f) (funext fun byte ↦ ?_)
  unfold byteText hexByte
  by_cases hsmall : byte < 16
  · have hlt : byte.toNat < 16 := hsmall
    rw [if_pos hsmall, show byte.toNat / 16 = 0 by omega, show byte.toNat % 16 = byte.toNat by omega]
    rfl
  · rw [if_neg hsmall]
    rfl

theorem walletlessActionRequestHash_eq {input : ActionRequest} (h : lowerHex input.tx = input.tx) :
    walletlessActionRequestHash crypto input = bytesToHex (crypto.sha256 (encodeUtf8 (hashedText input))) := by
  rw [walletlessActionRequestHash, digestText, flatMap_byteText, stableJson_fields, hashedText, h]

end Digests

theorem lowerHex_bytesToHex (bytes : List UInt8) : lowerHex (bytesToHex bytes) = bytesToHex bytes := by
  have hunit : ∀ n : Fin 16, lowerHex [hexUnit n.val] = [hexUnit n.val] := by decide
  have hone : ∀ {n : ℕ}, n < 16 → lowerHex [hexUnit n] = [hexUnit n] := fun hn ↦ hunit ⟨_, hn⟩
  induction bytes with
  | nil => rfl
  | cons byte bytes ih =>
    have hbyte := byte.toNat_lt
    calc
      lowerHex (bytesToHex (byte :: bytes)) =
          lowerHex [hexUnit (byte.toNat / 0x10)] ++ (lowerHex [hexUnit (byte.toNat % 0x10)] ++
            lowerHex (bytesToHex bytes)) := rfl
      _ = [hexUnit (byte.toNat / 0x10)] ++ ([hexUnit (byte.toNat % 0x10)] ++ bytesToHex bytes) := by
        rw [hone (by omega), hone (by omega), ih]

theorem lowerHex_lowerHex (text : JsString) : lowerHex (lowerHex text) = lowerHex text := by
  unfold lowerHex
  rw [List.map_map]
  refine congrArg (fun f ↦ text.map f) (funext fun u ↦ ?_)
  simp only [Function.comp_apply, Bool.and_eq_true, decide_eq_true_eq, UInt16.le_iff_toNat_le]
  split
  · next hupper =>
    have hadd : (u + 0x20).toNat = u.toNat + 0x20 := by
      rw [UInt16.toNat_add]
      change (u.toNat + 0x20) % 65536 = _
      have hhigh : u.toNat ≤ 0x5A := hupper.2
      omega
    rw [if_neg]
    rw [hadd]
    change ¬(0x41 ≤ u.toNat + 0x20 ∧ u.toNat + 0x20 ≤ 0x5A)
    have hlow : 0x41 ≤ u.toNat := hupper.1
    omega
  · rfl

/-! ## The body that is sent -/

theorem valid_submitFields (request : ActionRequest) (requestHash : JsString) :
    (Json.object (submitFields request requestHash)).Valid := by
  have hnames : ∃ names ∈ [["action", "actionId", "circuit", "contractAddress", "idempotencyKey", "network", "tx"],
      ["action", "actionId", "circuit", "contractAddress", "idempotencyKey", "requestHash", "network", "tx"]],
      (submitFields request requestHash).map Prod.fst = names.map js := by
    by_cases hhash : requestHash = []
    · exact ⟨_, List.mem_cons_self, by rw [submitFields, if_pos hhash]; rfl⟩
    · exact ⟨_, List.mem_cons_of_mem _ List.mem_cons_self, by rw [submitFields, if_neg hhash]; rfl⟩
  have hall : ∀ names ∈ [["action", "actionId", "circuit", "contractAddress", "idempotencyKey", "network", "tx"],
      ["action", "actionId", "circuit", "contractAddress", "idempotencyKey", "requestHash", "network", "tx"]],
      (names.map js).Nodup ∧ (names.map js).Pairwise fun a b ↦ propertyRank a ≤ propertyRank b := by
    decide +kernel
  obtain ⟨names, hmem, hfields⟩ := hnames
  obtain ⟨hnodup, hordered⟩ := hall names hmem
  rw [← hfields] at hnodup hordered
  have hpairs := (List.pairwise_map (f := Prod.fst) (R := fun a b ↦ propertyRank a ≤ propertyRank b)).mp hordered
  refine .object hnodup hpairs fun field hfield ↦ ?_
  have hstring : ∃ value, field.2 = .string value := by
    unfold submitFields at hfield
    split at hfield <;> simp only [List.cons_append, List.nil_append, List.mem_cons, List.not_mem_nil, or_false] at hfield
    · obtain rfl | rfl | rfl | rfl | rfl | rfl | rfl := hfield <;> exact ⟨_, rfl⟩
    · obtain rfl | rfl | rfl | rfl | rfl | rfl | rfl | rfl := hfield <;> exact ⟨_, rfl⟩
  obtain ⟨value, hvalue⟩ := hstring
  rw [hvalue]
  exact .string value

theorem readJson_submitBody (request : ActionRequest) (requestHash : JsString) :
    readJson (submitBody request requestHash) = some (.object (submitFields request requestHash)) := by
  have hvalid := valid_submitFields request requestHash
  rw [readJson, submitBody, if_neg hvalid.encodeUtf8_ne, decodeUtf8_encodeUtf8 hvalid.isWellFormed, Json.parse_stringify hvalid]

theorem field?_submitFields (sent : ActionRequest) (requestHash : JsString) :
    field? (submitFields sent requestHash) (js "network") = some (.string sent.network) ∧
      field? (submitFields sent requestHash) (js "contractAddress") = some (.string sent.contractAddress) ∧
      field? (submitFields sent requestHash) (js "circuit") = some (.string sent.circuit) ∧
      field? (submitFields sent requestHash) (js "action") = some (.string sent.action.text) ∧
      field? (submitFields sent requestHash) (js "tx") = some (.string sent.tx) := by
  unfold submitFields
  split
  · exact ⟨rfl, rfl, rfl, rfl, rfl⟩
  · exact ⟨rfl, rfl, rfl, rfl, rfl⟩

/-- A request that the relay parses has what was sent. -/
theorem Accepted.of_submitFields {sent : ActionRequest} {requestHash : JsString} {request : ParsedRequest}
    (h : Accepted (submitFields sent requestHash) request) :
    hashedText request.toActionRequest = hashedText { sent with tx := lowerHex sent.tx } := by
  obtain ⟨hnetwork, hcontract, hcircuit, haction, htx⟩ := field?_submitFields sent requestHash
  have hsame : ∀ {name : String} {value value' : JsString},
      field? (submitFields sent requestHash) (js name) = some (.string value) →
        field? (submitFields sent requestHash) (js name) = some (.string value') → value = value' :=
    fun hvalue hvalue' ↦ Json.string.inj (Option.some.inj (hvalue.symm.trans hvalue'))
  have hnamed := h.named _ haction
  rw [Json.string?_string, Option.bind_some, CivicActionKind.ofText?_text] at hnamed
  obtain ⟨tx, hsent, _, hlower⟩ := h.tx
  rw [htx] at hsent
  cases hsent
  rw [hashedText, hsame h.network hnetwork, hsame h.contractAddress hcontract, hsame h.circuit hcircuit,
    ← Option.some.inj hnamed, hlower]
  rfl

/-! ## The hash of a request -/

/-- The text of a field of a body. -/
def bodyText (body : Json) (name : String) : Option JsString :=
  (body.record?.bind fun fields ↦ field? fields (js name)).bind Json.string?

/-- The transaction of a body. -/
def bodyTransaction (body : Json) : Option JsString :=
  (body.record?.bind fun fields ↦
    coalesce (field? fields (js "tx")) (field? fields (js "transaction"))).bind Json.string?

/-- The client and the relay compute one hash for what the client sends. Requests with equal hashes have the same
network, contract, circuit and action, and the same transaction up to the case of its digits. -/
theorem request_hashes_agree (crypto : Crypto) :
    (∀ (sent : ActionRequest) (requestHash : JsString) (bytes : List UInt8), sent.tx = bytesToHex bytes →
      ∃ body, readJson (submitBody sent requestHash) = some body ∧
        ∀ headers options request, parseV2ActionRequest body headers options = .ok request →
          v2RequestHash crypto request.toActionRequest = walletlessActionRequestHash crypto sent) ∧
    ∀ body body' headers headers' options options' request request',
      parseV2ActionRequest body headers options = .ok request →
      parseV2ActionRequest body' headers' options' = .ok request' →
      (crypto.sha256 (encodeUtf8 (hashedText request.toActionRequest)) =
          crypto.sha256 (encodeUtf8 (hashedText request'.toActionRequest)) →
        encodeUtf8 (hashedText request.toActionRequest) = encodeUtf8 (hashedText request'.toActionRequest)) →
      v2RequestHash crypto request.toActionRequest = v2RequestHash crypto request'.toActionRequest →
        (∀ name ∈ ["network", "contractAddress", "circuit"], bodyText body name = bodyText body' name) ∧
          request.action = request'.action ∧
            (bodyTransaction body).map lowerHex = (bodyTransaction body').map lowerHex := by
  constructor
  · intro sent requestHash bytes htx
    refine ⟨_, readJson_submitBody sent requestHash, fun headers options request hparse ↦ ?_⟩
    have hlower : lowerHex sent.tx = sent.tx := by rw [htx, lowerHex_bytesToHex]
    obtain ⟨fields, hbody, haccepted⟩ := parseV2ActionRequest_eq_ok hparse
    cases hbody
    rw [v2RequestHash_eq, walletlessActionRequestHash_eq crypto hlower, haccepted.of_submitFields, hlower]
  · intro body body' headers headers' options options' request request' hparse hparse' hcollision hhash
    rw [v2RequestHash_eq, v2RequestHash_eq] at hhash
    obtain ⟨hnetwork, hcontract, hcircuit, haction, htx⟩ := hashedText_injective
      (encodeUtf8_injective (isWellFormed_hashedText _) (isWellFormed_hashedText _)
        (hcollision (bytesToHex_injective hhash)))
    obtain ⟨fields, rfl, haccepted⟩ := parseV2ActionRequest_eq_ok hparse
    obtain ⟨fields', rfl, haccepted'⟩ := parseV2ActionRequest_eq_ok hparse'
    refine ⟨?_, haction, ?_⟩
    · simp [bodyText, haccepted.network, haccepted'.network, haccepted.contractAddress, haccepted'.contractAddress,
        haccepted.circuit, haccepted'.circuit, hnetwork, hcontract, hcircuit]
    · obtain ⟨tx, hsent, _, hlower⟩ := haccepted.tx
      obtain ⟨tx', hsent', _, hlower'⟩ := haccepted'.tx
      have hsame : lowerHex tx = lowerHex tx' := by
        rwa [hlower, hlower', lowerHex_lowerHex, lowerHex_lowerHex] at htx
      simp [bodyTransaction, hsent, hsent', hsame]

/-! ## A request and its hash -/

def sampleSent : ActionRequest :=
  ⟨js "action-1", js "request-1", js "preview", js "contract-1", js "castVote", .vote, js "ab01"⟩

def sampleOptions : ParserOptions := ⟨[js "preview"], [js "contract-1"], [js "castVote"], fun _ ↦ .ok (), 1000⟩

/-- The body with other digits of the transaction and without the action. -/
def sampleOther : Json :=
  .object [(js "actionId", .string (js "action-1")), (js "idempotencyKey", .string (js "request-1")),
    (js "network", .string (js "preview")), (js "contractAddress", .string (js "contract-1")),
    (js "circuit", .string (js "castVote")), (js "transaction", .string (js "AB01"))]

/-- SHA-256 on the text of the sample. -/
def sampleSha256 : Crypto where
  hmacSha256 _ _ := []
  sha256 bytes :=
    if bytes = encodeUtf8 (hashedText sampleSent) then
      [0xc8, 0xc4, 0x84, 0x99, 0x53, 0x26, 0xba, 0x55, 0x5f, 0xfc, 0x91, 0x55, 0x74, 0xa2, 0x0f, 0x7d,
        0x79, 0xbb, 0x12, 0x3d, 0x08, 0x32, 0x88, 0xee, 0x72, 0x74, 0x20, 0x6c, 0xac, 0x3b, 0xe4, 0x8d]
    else []

theorem request_hashes_agree_sample :
    (∃ body, readJson (submitBody sampleSent []) = some body ∧
      ∀ headers options request, parseV2ActionRequest body headers options = .ok request →
        v2RequestHash sampleSha256 request.toActionRequest =
          walletlessActionRequestHash sampleSha256 sampleSent) ∧
      (bodyTransaction (.object (submitFields sampleSent []))).map lowerHex =
        (bodyTransaction sampleOther).map lowerHex := by
  have hparse : parseV2ActionRequest (.object (submitFields sampleSent [])) ⟨none, none⟩ sampleOptions =
      .ok ⟨sampleSent, none⟩ := by
    decide +kernel
  have hother : parseV2ActionRequest sampleOther ⟨none, none⟩ sampleOptions = .ok ⟨sampleSent, none⟩ := by
    decide +kernel
  obtain ⟨hsent, hsame⟩ := request_hashes_agree sampleSha256
  refine ⟨hsent sampleSent [] [0xAB, 0x01] (by decide), ?_⟩
  exact (hsame _ _ _ _ _ _ _ _ hparse hother (fun _ ↦ rfl) rfl).2.2

end MidnightReferendum.Relayer.Requests
