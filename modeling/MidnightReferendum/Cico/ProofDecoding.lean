import MidnightReferendum.Cico.Verification
import MidnightReferendum.Js.JsonText
import MidnightReferendum.Systems.Checks

/-!
# The proofs of the verificator

What the gateway of `rarimo-http-gateway.ts` reads in the JSON:API answers of the verificator. A reader throws the
message of the first thing that it does not expect. A proof is read for its public signals, which are compared with the
request; the proof elements are checked for their shape and dropped.
-/

namespace MidnightReferendum.RarimoGateway

open Js Cico Checks

/-! ## Readers -/

/-- A value as `JSON.parse` returns it: the names of an object are distinct and in property order. -/
inductive Parsed : Json → Prop
  | null : Parsed .null
  | bool (value : Bool) : Parsed (.bool value)
  | number (value : JsNumber) : Parsed (.number value)
  | string (value : JsString) : Parsed (.string value)
  | array {items : List Json} (h : ∀ item ∈ items, Parsed item) : Parsed (.array items)
  | object {fields : List (JsString × Json)} (hnodup : (fields.map Prod.fst).Nodup)
      (hordered : fields.Pairwise (Before Prod.fst)) (h : ∀ field ∈ fields, Parsed field.2) : Parsed (.object fields)

/-- The body of an answer. -/
structure Body where
  json : Json
  parsed : Parsed json

/-- The value of a field that `readRecord` has found. -/
def get (fields : List (JsString × Json)) (name : JsString) : Json := (field? fields name).getD .null

def hasControlCharacter (value : JsString) : Bool := value.any fun u ↦ u < 0x20 || u == 0x7F

/-- `/^(?:0|[1-9][0-9]*)$/u` -/
def isDecimalInteger (value : JsString) : Bool :=
  value == js "0" || (value.all isDecimalDigit && !value.isEmpty && value.head? != some 0x30)

def readRecord (value : Json) (keys : List JsString) : Except JsString (List (JsString × Json)) :=
  match value.record? with
  | none => .error (js "Expected a JSON object")
  | some fields =>
    match fields.find? fun field ↦ !keys.contains field.1 with
    | some field => .error (js "Unexpected response field " ++ field.1)
    | none =>
      match keys.find? fun key ↦ (field? fields key).isNone with
      | some key => .error (js "Missing response field " ++ key)
      | none => .ok fields

/-- The JSON:API envelope, with nothing included. -/
def readData (value : Json) (keys : List JsString) : Except JsString (List (JsString × Json)) :=
  match value.record? with
  | none => .error (js "Expected a JSON:API envelope")
  | some root =>
    match root.find? fun field ↦ field.1 != js "data" && field.1 != js "included" with
    | some field => .error (js "Unexpected response field " ++ field.1)
    | none =>
      match field? root (js "data") with
      | none => .error (js "Missing response field data")
      | some data =>
        match field? root (js "included") with
        | none | some .null | some (.array []) => readRecord data keys
        | some _ => .error (js "Unexpected JSON:API included data")

def readString (value : Json) (label : JsString) : Except JsString JsString :=
  match value.string? with
  | none => .error (js "Invalid " ++ label)
  | some text => if text.isEmpty || hasControlCharacter text then .error (js "Invalid " ++ label) else .ok text

def readStringArray (value : Json) (label : JsString) : Except JsString (List JsString) :=
  match value.array? with
  | none => .error (js "Invalid " ++ label)
  | some items => items.mapM fun item ↦ readString item label

def readStringMatrix (value : Json) (label : JsString) : Except JsString (List (List JsString)) :=
  match value.array? with
  | none => .error (js "Invalid " ++ label)
  | some rows => rows.mapM fun row ↦ readStringArray row label

def decimalField (label value : JsString) : Except JsString Unit :=
  if !isDecimalInteger value then .error (js "Invalid " ++ label)
  else if 2 ^ 254 ≤ numeral value then .error (js "Out-of-range " ++ label)
  else .ok ()

/-! ## Answers -/

/-- `deriveUserIdHash` and the checks of the URL are those of the platform. -/
def decodeVerificationLink (deriveUserIdHash : JsString → Except JsString JsString) (value : Json)
    (requestId : JsString) : Except JsString (JsString × JsString) := do
  let data ← readData value [js "id", js "type", js "attributes"]
  check ((get data (js "id")).string? = some requestId ∧ (get data (js "type")).string? = some (js "verification_link"))
    (js "Verification link identity is not bound to the request")
  let attributes ← readRecord (get data (js "attributes")) [js "get_proof_params"]
  let proofParamsUrl ← readString (get attributes (js "get_proof_params")) (js "get_proof_params")
  let userIdHash ← deriveUserIdHash proofParamsUrl
  return (userIdHash, proofParamsUrl)

def decodeVerificationStatus (value : Json) (requestId : JsString) : Except JsString RarimoVerificationStatus := do
  let data ← readData value [js "id", js "type", js "attributes"]
  check ((get data (js "id")).string? = some requestId ∧ (get data (js "type")).string? = some (js "user_status"))
    (js "Verification status identity is not bound to the request")
  let attributes ← readRecord (get data (js "attributes")) [js "status"]
  match (get attributes (js "status")).string? with
  | none => .error (js "Unknown Rarimo verification status")
  | some status =>
    if status = js "not_verified" then return .notVerified
    else if status = js "verified" then return .verified
    else if status = js "failed_verification" then return .failedVerification
    else if status = js "uniqueness_check_failed" then return .uniquenessCheckFailed
    else .error (js "Unknown Rarimo verification status")

structure RarimoProofProjection where
  userIdHash : JsString
  publicSignals : List JsString
  deriving DecidableEq

def rarimoGlobalPublicSignalCount : ℕ := 23

/-- The shape of a Groth16 proof. -/
def isGroth16Shape (piA : List JsString) (piB : List (List JsString)) (piC : List JsString) : Prop :=
  piA.length = 3 ∧ piB.length = 3 ∧ (∀ row ∈ piB, row.length = 2) ∧ piC.length = 3

instance (piA : List JsString) (piB : List (List JsString)) (piC : List JsString) :
    Decidable (isGroth16Shape piA piB piC) :=
  inferInstanceAs (Decidable (_ ∧ _ ∧ _ ∧ _))

/-- `decodeProof`, whose request id is not used. -/
def decodeProof (value : Json) : Except JsString RarimoProofProjection := do
  let data ← readData value [js "id", js "type", js "attributes"]
  check ((get data (js "type")).string? = some (js "get_proof") ∧ truthy (get data (js "id")).string?)
    (js "Invalid Rarimo proof identity")
  let attributes ← readRecord (get data (js "attributes")) [js "proof"]
  let proofEnvelope ← readRecord (get attributes (js "proof")) [js "proof", js "pub_signals"]
  let proof ← readRecord (get proofEnvelope (js "proof")) [js "pi_a", js "pi_b", js "pi_c", js "protocol"]
  check ((get proof (js "protocol")).string? = some (js "groth16")) (js "Unexpected Rarimo proof protocol")
  let publicSignals ← readStringArray (get proofEnvelope (js "pub_signals")) (js "pub_signals")
  check (publicSignals.length = rarimoGlobalPublicSignalCount) (js "Unexpected Rarimo public signal count")
  let piA ← readStringArray (get proof (js "pi_a")) (js "pi_a")
  let piB ← readStringMatrix (get proof (js "pi_b")) (js "pi_b")
  let piC ← readStringArray (get proof (js "pi_c")) (js "pi_c")
  check (isGroth16Shape piA piB piC) (js "Unexpected Rarimo Groth16 proof shape")
  publicSignals.forM (decimalField (js "public signal"))
  (piA ++ piC ++ piB.flatten).forM (decimalField (js "proof element"))
  return ⟨((get data (js "id")).string?).getD [], publicSignals⟩

/-! ## Evidence -/

/-- `decodeCitizenship`, on the three bytes whose hexadecimal digits the source cuts in pairs. -/
def decodeCitizenship (value : JsString) : Except JsString JsString :=
  let number := numeral value
  if 0x1000000 ≤ number then .error (js "Invalid citizenship signal")
  else
    let decoded := [number / 0x10000, number / 0x100 % 0x100, number % 0x100].map Nat.toUInt16
    if decoded.all fun u ↦ (0x41 ≤ u && u ≤ 0x5A) || u == 0x3C then
      .ok (if decoded = js "D<<" then js "DEU" else decoded)
    else .error (js "Invalid citizenship code")

/-- A bound of a request as a signal. -/
def boundDecimal (bound : JsString) : Except JsString JsString :=
  match hexToDecimal bound with
  | none => .error (js "Invalid hexadecimal bound")
  | some value => .ok value

/-- The signals that a request fixes, with their positions. -/
def expectedSignals (request : RarimoVerificationRequest) : Except JsString (List (ℕ × JsString)) := do
  let birthDateUpperBound ← boundDecimal request.birthDateUpperBound
  let expirationDateLowerBound ← boundDecimal request.expirationDateLowerBound
  return [(9, request.eventId), (10, request.eventDataDecimal), (12, request.selector),
    (15, request.timestampUpperBound), (17, request.identityCounterUpperBound), (19, birthDateUpperBound),
    (20, expirationDateLowerBound)]

def signalAt (signals : List JsString) (index : ℕ) : Except JsString JsString :=
  match signals[index]? with
  | none => .error (js "Missing Rarimo public signal")
  | some signal => .ok signal

def evidenceFromProof (proof : RarimoProofProjection) (request : RarimoVerificationRequest)
    (evidenceFingerprint : JsString) : Except JsString RarimoVerifiedEvidence := do
  let expected ← expectedSignals request
  expected.forM fun e ↦ do
    let signal ← signalAt proof.publicSignals e.1
    check (signal = e.2) (js "Rarimo proof public signal is not bound to the request")
  let citizenshipAlpha3 ← decodeCitizenship (← signalAt proof.publicSignals 6)
  return {
    requestId := request.requestId
    userIdHash := proof.userIdHash
    evidenceAuthorization := js "rarimo-evidence-v1:" ++ evidenceFingerprint
    evidenceFingerprint
    eventId := ← signalAt proof.publicSignals 9
    eventDataDecimal := ← signalAt proof.publicSignals 10
    selector := ← signalAt proof.publicSignals 12
    timestampUpperBound := ← signalAt proof.publicSignals 15
    identityCounterUpperBound := ← signalAt proof.publicSignals 17
    birthDateUpperBound := ← signalAt proof.publicSignals 19
    expirationDateLowerBound := ← signalAt proof.publicSignals 20
    citizenshipAlpha3
    adultPredicateSatisfied := true }

/-! ## Answers that are read -/

variable {value : Json} {keys : List JsString} {fields : List (JsString × Json)}

theorem get_of_mem (hnodup : (fields.map Prod.fst).Nodup) {field : JsString × Json} (h : field ∈ fields) :
    get fields field.1 = field.2 := by
  rw [get, field?, lookup_of_mem hnodup h, Option.getD_some]

/-- A record whose names are no array indices is in property order. -/
theorem parsed_record (names : List JsString) (hfields : fields.map Prod.fst = names)
    (hnames : names.Nodup ∧ ∀ name ∈ names, arrayIndex? name = none) (h : ∀ field ∈ fields, Parsed field.2) :
    Parsed (.object fields) := by
  have hrank : ∀ field ∈ fields, propertyRank field.1 = 4294967295 := fun field hfield ↦ by
    rw [propertyRank, hnames.2 field.1 (hfields ▸ List.mem_map_of_mem hfield), Option.getD_none]
  refine .object (hfields ▸ hnames.1) (List.pairwise_of_forall_mem_list fun a ha b hb ↦ ?_) h
  rw [Before, hrank a ha, hrank b hb]

/-- A record that is read has the given fields and no others. -/
theorem readRecord_ok (h : readRecord value keys = .ok fields) :
    value = .object fields ∧ ∀ field ∈ fields, field.1 ∈ keys := by
  rw [readRecord] at h
  split at h
  · cases h
  · next found hfound =>
    split at h
    · cases h
    · next hnone =>
      split at h
      · cases h
      · cases h
        constructor
        · cases value <;> simp_all [Json.record?]
        · intro field hfield
          simpa using List.find?_eq_none.mp hnone field hfield

/-- A record is valid if its fields are. -/
theorem valid_of_readRecord (hparsed : Parsed value) (h : readRecord value keys = .ok fields)
    (hvalid : ∀ key ∈ keys, Parsed (get fields key) → (get fields key).Valid) : value.Valid := by
  obtain ⟨rfl, hkeys⟩ := readRecord_ok h
  cases hparsed with
  | object hnodup hordered hfields =>
    apply Json.Valid.object hnodup hordered
    intro field hfield
    have hget := get_of_mem hnodup hfield
    have hfield' := hvalid field.1 (hkeys field hfield)
    rw [hget] at hfield'
    exact hfield' (hfields field hfield)

theorem readString_ok {label text : JsString} (h : readString value label = .ok text) : value = .string text := by
  rw [readString] at h
  split at h
  · cases h
  · next s hs =>
    split at h
    · cases h
    · cases h
      cases value <;> simp_all [Json.string?]

/-- The items of an array whose readers succeed are those that are read. -/
theorem exists_of_mem_mapM_ok {α β ε : Type} {read : α → Except ε β} {items : List α} {results : List β}
    (h : items.mapM read = .ok results) : ∀ item ∈ items, ∃ result ∈ results, read item = .ok result := by
  induction items generalizing results with
  | nil => exact fun item hitem ↦ by cases hitem
  | cons first items ih =>
    rw [List.mapM_cons] at h
    obtain ⟨result, hfirst, h⟩ := bind_eq_ok.mp h
    obtain ⟨rest, hrest, h⟩ := bind_eq_ok.mp h
    cases h
    intro item hitem
    cases hitem with
    | head => exact ⟨result, List.mem_cons_self, hfirst⟩
    | tail _ hitem =>
      obtain ⟨found, hfound, hread⟩ := ih hrest item hitem
      exact ⟨found, List.mem_cons_of_mem _ hfound, hread⟩

theorem valid_of_readStringArray {label : JsString} {texts : List JsString}
    (h : readStringArray value label = .ok texts) : value.Valid := by
  rw [readStringArray] at h
  split at h
  · cases h
  · next items hitems =>
    have hvalue : value = .array items := by cases value <;> simp_all [Json.array?]
    rw [hvalue]
    apply Json.Valid.array
    intro item hitem
    obtain ⟨text, _, htext⟩ := exists_of_mem_mapM_ok h item hitem
    rw [readString_ok htext]
    exact .string text

theorem valid_of_readStringMatrix {label : JsString} {rows : List (List JsString)}
    (h : readStringMatrix value label = .ok rows) : value.Valid := by
  rw [readStringMatrix] at h
  split at h
  · cases h
  · next items hitems =>
    have hvalue : value = .array items := by cases value <;> simp_all [Json.array?]
    rw [hvalue]
    apply Json.Valid.array
    intro item hitem
    obtain ⟨row, _, hrow⟩ := exists_of_mem_mapM_ok h item hitem
    exact valid_of_readStringArray hrow

theorem valid_of_string? {text : JsString} (h : value.string? = some text) : value.Valid := by
  cases value with
  | string _ => exact .string _
  | _ => cases h

/-- An envelope is valid if the data in it are. -/
theorem valid_of_readData (hparsed : Parsed value) (h : readData value keys = .ok fields)
    (hvalid : ∀ key ∈ keys, Parsed (get fields key) → (get fields key).Valid) : value.Valid := by
  rw [readData] at h
  split at h
  · cases h
  next root hroot =>
  obtain rfl : value = .object root := by cases value <;> simp_all [Json.record?]
  split at h
  · cases h
  next hnone =>
  split at h
  · cases h
  next data hdata =>
  cases hparsed with
  | object hnodup hordered hfields =>
    have hread : readRecord data keys = .ok fields ∧ (get root (js "included")).Valid := by
      split at h
      · next hincluded => exact ⟨h, by rw [get, hincluded]; exact .null⟩
      · next hincluded => exact ⟨h, by rw [get, hincluded]; exact .null⟩
      · next hincluded => exact ⟨h, by rw [get, hincluded]; exact .array fun item hitem ↦ by cases hitem⟩
      · cases h
    apply Json.Valid.object hnodup hordered
    intro field hfield
    have hget := get_of_mem hnodup hfield
    have hname : field.1 = js "data" ∨ field.1 = js "included" := by
      have hnot := List.find?_eq_none.mp hnone field hfield
      simp only [Bool.and_eq_true, bne_iff_ne, ne_eq, not_and, not_not] at hnot
      exact or_iff_not_imp_left.mpr hnot
    cases hname with
    | inl hname =>
      have hfield' : field.2 = data := by
        rw [← hget, get, hname, hdata, Option.getD_some]
      apply valid_of_readRecord (hfields field hfield)
      · rw [hfield']
        exact hread.1
      · exact hvalid
    | inr hname =>
      rw [← hget, hname]
      exact hread.2

/-- What a proof that is read has been checked for. -/
structure ReadProof (value : Json) (proof : RarimoProofProjection) : Prop where
  signals : proof.publicSignals.length = rarimoGlobalPublicSignalCount
  /-- The answer has no numbers, so its text stands for nothing else. -/
  valid : Parsed value → value.Valid

theorem decodeProof_ok {proof : RarimoProofProjection} (h : decodeProof value = .ok proof) : ReadProof value proof := by
  rw [decodeProof] at h
  obtain ⟨data, hdata, h⟩ := bind_eq_ok.mp h
  obtain ⟨⟨htype, hid⟩, h⟩ := check_bind_eq_ok.mp h
  obtain ⟨attributes, hattributes, h⟩ := bind_eq_ok.mp h
  obtain ⟨envelope, henvelope, h⟩ := bind_eq_ok.mp h
  obtain ⟨groth16, hgroth16, h⟩ := bind_eq_ok.mp h
  obtain ⟨hprotocol, h⟩ := check_bind_eq_ok.mp h
  obtain ⟨publicSignals, hsignals, h⟩ := bind_eq_ok.mp h
  obtain ⟨hcount, h⟩ := check_bind_eq_ok.mp h
  obtain ⟨piA, hpiA, h⟩ := bind_eq_ok.mp h
  obtain ⟨piB, hpiB, h⟩ := bind_eq_ok.mp h
  obtain ⟨piC, hpiC, h⟩ := bind_eq_ok.mp h
  obtain ⟨_, h⟩ := check_bind_eq_ok.mp h
  obtain ⟨_, _, h⟩ := bind_eq_ok.mp h
  obtain ⟨_, _, h⟩ := bind_eq_ok.mp h
  cases h
  constructor
  · exact hcount
  intro hparsed
  apply valid_of_readData hparsed hdata
  intro key hkey hparsed
  simp only [List.mem_cons, List.not_mem_nil, or_false] at hkey
  obtain rfl | rfl | rfl := hkey
  · cases hstring : (get data (js "id")).string? with
    | none => rw [hstring] at hid; cases hid
    | some id => exact valid_of_string? hstring
  · exact valid_of_string? htype
  apply valid_of_readRecord hparsed hattributes
  intro key hkey hparsed
  rw [List.mem_singleton.mp hkey] at hparsed ⊢
  apply valid_of_readRecord hparsed henvelope
  intro key hkey hparsed
  simp only [List.mem_cons, List.not_mem_nil, or_false] at hkey
  obtain rfl | rfl := hkey
  · apply valid_of_readRecord hparsed hgroth16
    intro key hkey _
    simp only [List.mem_cons, List.not_mem_nil, or_false] at hkey
    obtain rfl | rfl | rfl | rfl := hkey
    · exact valid_of_readStringArray hpiA
    · exact valid_of_readStringMatrix hpiB
    · exact valid_of_readStringArray hpiC
    · exact valid_of_string? hprotocol
  · exact valid_of_readStringArray hsignals

/-- The evidence of a proof repeats the signals that the request fixes. -/
structure ReadEvidence (proof : RarimoProofProjection) (request : RarimoVerificationRequest)
    (evidenceFingerprint : JsString) (evidence : RarimoVerifiedEvidence) : Prop where
  requestId : evidence.requestId = request.requestId
  userIdHash : evidence.userIdHash = proof.userIdHash
  authorization : evidence.evidenceAuthorization = js "rarimo-evidence-v1:" ++ evidenceFingerprint
  fingerprint : evidence.evidenceFingerprint = evidenceFingerprint
  signals : ∃ expected, expectedSignals request = .ok expected ∧ ∀ e ∈ expected, proof.publicSignals[e.1]? = some e.2
  eventDataDecimal : proof.publicSignals[10]? = some evidence.eventDataDecimal
  birthDateUpperBound : proof.publicSignals[19]? = some evidence.birthDateUpperBound
  citizenship : ∃ signal, proof.publicSignals[6]? = some signal ∧
    decodeCitizenship signal = .ok evidence.citizenshipAlpha3
  adult : evidence.adultPredicateSatisfied = true

theorem signalAt_ok {signals : List JsString} {index : ℕ} {signal : JsString} :
    signalAt signals index = .ok signal ↔ signals[index]? = some signal := by
  rw [signalAt]
  cases signals[index]? with
  | none => simp
  | some found => simp

theorem forM_ok {α ε : Type} {action : α → Except ε Unit} {items : List α} (h : items.forM action = .ok ()) :
    ∀ item ∈ items, action item = .ok () := by
  induction items with
  | nil => exact fun item hitem ↦ by cases hitem
  | cons first items ih =>
    have hbind : (action first >>= fun _ ↦ items.forM action) = .ok () := h
    obtain ⟨⟨⟩, hfirst, hrest⟩ := bind_eq_ok.mp hbind
    intro item hitem
    cases hitem with
    | head => exact hfirst
    | tail _ hitem => exact ih hrest item hitem

theorem evidenceFromProof_ok {proof : RarimoProofProjection} {request : RarimoVerificationRequest}
    {evidenceFingerprint : JsString} {evidence : RarimoVerifiedEvidence}
    (h : evidenceFromProof proof request evidenceFingerprint = .ok evidence) :
    ReadEvidence proof request evidenceFingerprint evidence := by
  rw [evidenceFromProof] at h
  obtain ⟨expected, hexpected, h⟩ := bind_eq_ok.mp h
  obtain ⟨⟨⟩, hsignals, h⟩ := bind_eq_ok.mp h
  obtain ⟨signal, hsignal, h⟩ := bind_eq_ok.mp h
  obtain ⟨citizenship, hcitizenship, h⟩ := bind_eq_ok.mp h
  obtain ⟨eventId, _, h⟩ := bind_eq_ok.mp h
  obtain ⟨eventData, heventData, h⟩ := bind_eq_ok.mp h
  obtain ⟨selector, _, h⟩ := bind_eq_ok.mp h
  obtain ⟨timestamp, _, h⟩ := bind_eq_ok.mp h
  obtain ⟨counter, _, h⟩ := bind_eq_ok.mp h
  obtain ⟨birthDate, hbirthDate, h⟩ := bind_eq_ok.mp h
  obtain ⟨expiration, _, h⟩ := bind_eq_ok.mp h
  cases h
  refine ⟨rfl, rfl, rfl, rfl, ⟨expected, hexpected, fun e he ↦ ?_⟩, signalAt_ok.mp heventData,
    signalAt_ok.mp hbirthDate, ⟨signal, signalAt_ok.mp hsignal, hcitizenship⟩, rfl⟩
  obtain ⟨found, hfound, hcheck⟩ := bind_eq_ok.mp (forM_ok hsignals e he)
  rw [← check_eq_ok.mp hcheck]
  exact signalAt_ok.mp hfound

end MidnightReferendum.RarimoGateway
