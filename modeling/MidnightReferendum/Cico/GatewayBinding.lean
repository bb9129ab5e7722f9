import MidnightReferendum.Cico.GatewayEvidence

/-!
# One credential for one authorization

An authorization is the hash of the answer with the proof, and the proof fixes the event data. So two issuances that are
authorized by one token are for one enrollment and one holder and claim the same country. The age class is taken from the
text of the bound in the request, where the proof fixes only its number: it is the same unless a request has spelled the
date that bounds nothing in another way.
-/

namespace MidnightReferendum.RarimoGateway

open Js Cico Checks Execution

/-! ## Hexadecimal texts -/

/-- The value of a digit, where other units count as zero. -/
def digitValue (u : UInt16) : ℕ := (hexValue? u).getD 0

theorem digitValue_hexUnit {n : ℕ} (h : n < 16) : digitValue (hexUnit n) = n := by
  have hall : ∀ n : Fin 16, digitValue (hexUnit n.val) = n.val := by decide
  exact hall ⟨n, h⟩

theorem hexNumber_concat (digits : JsString) (u : UInt16) :
    hexNumber (digits ++ [u]) = hexNumber digits * 16 + digitValue u := by
  rw [hexNumber, List.foldl_append]
  rfl

theorem hexNumber_bytesToHex_concat (bytes : List UInt8) (b : UInt8) :
    hexNumber (bytesToHex (bytes ++ [b])) = hexNumber (bytesToHex bytes) * 256 + b.toNat := by
  have hlt := b.toNat_lt
  have hhex : bytesToHex (bytes ++ [b]) = bytesToHex bytes ++ [hexUnit (b.toNat / 16)] ++ [hexUnit (b.toNat % 16)] := by
    simp [bytesToHex, hexByte]
  rw [hhex, hexNumber_concat, hexNumber_concat, digitValue_hexUnit (by omega), digitValue_hexUnit (by omega)]
  omega

/-- The number of a text of bytes determines the bytes, if their count is known. -/
theorem bytes_eq_of_hexNumber_eq {bytes bytes' : List UInt8} (hlength : bytes.length = bytes'.length)
    (h : hexNumber (bytesToHex bytes) = hexNumber (bytesToHex bytes')) : bytes = bytes' := by
  induction bytes using List.reverseRecOn generalizing bytes' with
  | nil => exact (List.length_eq_zero_iff.mp hlength.symm).symm
  | append_singleton bytes b ih =>
    cases bytes' using List.reverseRecOn with
    | nil => simp at hlength
    | append_singleton bytes' b' _ =>
      have hlt := b.toNat_lt
      have hlt' := b'.toNat_lt
      rw [hexNumber_bytesToHex_concat, hexNumber_bytesToHex_concat] at h
      have hbytes := ih (by simpa using hlength) (by omega)
      have hb : b = b' := UInt8.toNat_inj.mp (by omega)
      rw [hbytes, hb]

/-- Two units at a position. -/
theorem take_two_drop {text : JsString} {i : ℕ} (h : 2 * i + 1 < text.length) :
    (text.drop (2 * i)).take 2 = [text[2 * i], text[2 * i + 1]] := by
  rw [List.drop_eq_getElem_cons (by omega), List.drop_eq_getElem_cons (by omega)]
  rfl

theorem lt_of_hexValue? {u : UInt16} (h : (hexValue? u).isSome) : u.toNat < 0x67 := by
  rw [hexValue?] at h
  simp only [Bool.and_eq_true, decide_eq_true_eq, UInt16.le_iff_toNat_le] at h
  split_ifs at h with hdigit hupper hlower
  · exact hdigit.2.trans_lt (by decide)
  · exact hupper.2.trans_lt (by decide)
  · exact hlower.2.trans_lt (by decide)
  · cases h

/-- A digit in lower case is that of its value. -/
theorem lowerHex_digit {u : UInt16} (h : (hexValue? u).isSome) :
    digitValue u < 16 ∧ lowerHex [u] = [hexUnit (digitValue u)] := by
  have hall : ∀ n : Fin 0x67, (hexValue? (UInt16.ofNat n)).isSome →
      digitValue (UInt16.ofNat n) < 16 ∧ lowerHex [UInt16.ofNat n] = [hexUnit (digitValue (UInt16.ofNat n))] := by
    decide +kernel
  have hu := hall ⟨u.toNat, lt_of_hexValue? h⟩
  rw [UInt16.ofNat_toNat] at hu
  exact hu h

theorem lowerHex_eq_of_digitValue_eq {text text' : JsString} (h : ∀ u ∈ text, (hexValue? u).isSome)
    (h' : ∀ u ∈ text', (hexValue? u).isSome) (hvalue : text.map digitValue = text'.map digitValue) :
    lowerHex text = lowerHex text' := by
  have hlower : ∀ {text : JsString}, (∀ u ∈ text, (hexValue? u).isSome) →
      lowerHex text = (text.map digitValue).map hexUnit := by
    intro text htext
    rw [List.map_map]
    apply List.map_congr_left
    intro u hu
    exact (List.cons.inj (lowerHex_digit (htext u hu)).2).1
  rw [hlower h, hlower h', hvalue]

theorem hexNumber_pair (u v : UInt16) : hexNumber [u, v] = digitValue u * 16 + digitValue v := by
  rw [hexNumber, List.foldl_cons, List.foldl_cons, List.foldl_nil, zero_mul, zero_add]
  rfl

/-! ## Event data -/

theorem paddedEnrollment_eq_some {enrollmentId : JsString} {enrollment : Bytes32}
    (h : paddedEnrollment enrollmentId = some enrollment) :
    ∃ hlength : enrollmentId.length = 32, (∀ u ∈ enrollmentId, (hexValue? u).isSome) ∧
      ∀ (i : ℕ) (hi : i < 16), enrollment[i] =
        (digitValue enrollmentId[2 * i] * 16 + digitValue enrollmentId[2 * i + 1]).toUInt8 := by
  rw [paddedEnrollment] at h
  split at h
  · next hid =>
    have hbytes := Option.some.inj h
    refine ⟨hid.1, List.all_eq_true.mp hid.2, fun i hi ↦ ?_⟩
    have hlength := hid.1
    have hbyte : enrollment[i] = (hexNumber ((enrollmentId.drop (2 * i)).take 2)).toUInt8 := by
      rw [← hbytes, Vector.getElem_ofFn]
    rw [hbyte, take_two_drop (by omega), hexNumber_pair]
  · cases h

/-- The padded bytes are those of one enrollment id, up to the case of its letters. -/
theorem lowerHex_eq_of_padded {enrollmentId enrollmentId' : JsString} {enrollment : Bytes32}
    (h : paddedEnrollment enrollmentId = some enrollment) (h' : paddedEnrollment enrollmentId' = some enrollment) :
    lowerHex enrollmentId = lowerHex enrollmentId' := by
  obtain ⟨hlength, hdigits, hbytes⟩ := paddedEnrollment_eq_some h
  obtain ⟨hlength', hdigits', hbytes'⟩ := paddedEnrollment_eq_some h'
  apply lowerHex_eq_of_digitValue_eq hdigits hdigits'
  have hpair : ∀ (i : ℕ) (hi : i < 16), digitValue enrollmentId[2 * i] = digitValue enrollmentId'[2 * i] ∧
      digitValue enrollmentId[2 * i + 1] = digitValue enrollmentId'[2 * i + 1] := by
    intro i hi
    have hbyte := congrArg UInt8.toNat ((hbytes i hi).symm.trans (hbytes' i hi))
    have hlt : ∀ {text : JsString} (_ : ∀ u ∈ text, (hexValue? u).isSome) (j : ℕ) (hj : j < text.length),
        digitValue text[j] < 16 := fun htext j hj ↦ (lowerHex_digit (htext _ (List.getElem_mem hj))).1
    have h₁ := hlt hdigits (2 * i) (by omega)
    have h₂ := hlt hdigits (2 * i + 1) (by omega)
    have h₃ := hlt hdigits' (2 * i) (by omega)
    have h₄ := hlt hdigits' (2 * i + 1) (by omega)
    rw [Nat.toUInt8_eq, Nat.toUInt8_eq, UInt8.toNat_ofNat', UInt8.toNat_ofNat'] at hbyte
    omega
  apply List.ext_getElem
  · rw [List.length_map, List.length_map, hlength, hlength']
  · intro j hj hj'
    rw [List.length_map] at hj
    rw [List.getElem_map, List.getElem_map]
    obtain ⟨i, hi⟩ := Nat.even_or_odd' j
    obtain rfl | rfl := hi
    · exact (hpair i (by omega)).1
    · exact (hpair i (by omega)).2

theorem length_projectedHash (o : Options) (domain : Bytes32) (input : Bytes32 × Bytes32) :
    (projectedHash o domain input).length = 31 := by
  rw [projectedHash, List.length_drop, Vector.length_toList]

theorem derive_eq_some {o : Options} {request : IssuanceRequest} {eventData : List UInt8}
    (h : deriveRarimoIssuanceEventData o request = some eventData) :
    ∃ domain enrollment, paddedEnrollment request.enrollmentId = some enrollment ∧
      eventDataInput request = some (enrollment, request.holderBinding) ∧
      eventData = projectedHash o domain (enrollment, request.holderBinding) := by
  simp only [deriveRarimoIssuanceEventData, Option.bind_eq_bind, Option.bind_eq_some_iff, Option.pure_def,
    Option.some.injEq, eventDataInput, Option.map_eq_some_iff] at h
  obtain ⟨domain, _, _, ⟨enrollment, hpadded, rfl⟩, hhash⟩ := h
  exact ⟨domain, enrollment, hpadded, by rw [eventDataInput, hpadded, Option.map_some], hhash.symm⟩

theorem length_eventData {o : Options} {request : IssuanceRequest} {eventData : List UInt8}
    (h : deriveRarimoIssuanceEventData o request = some eventData) : eventData.length = 31 := by
  obtain ⟨domain, enrollment, _, _, rfl⟩ := derive_eq_some h
  exact length_projectedHash o domain _

/-! ## Two issuances with one authorization -/

/-- The bytes of the answers whose proofs have been read. -/
def provenBytes (log : List Entry) : List (List UInt8) :=
  log.filterMap fun
    | .proven _ body => some body.bytes
    | _ => none

/-- The issuances for which `validateCredentialIssuance` has returned true. -/
def authorizedRequests (log : List Entry) : List IssuanceRequest :=
  log.filterMap fun
    | .authorized request => some request
    | _ => none

/-- SHA-256 keeps the answers of a run apart, and `deriveRarimoIssuanceEventData` its issuances. -/
structure CollisionFree (o : Options) (log : List Entry) : Prop where
  proofs : ∀ bytes ∈ provenBytes log, ∀ bytes' ∈ provenBytes log, o.sha256 bytes = o.sha256 bytes' → bytes = bytes'
  eventData : ∀ request ∈ authorizedRequests log, ∀ request' ∈ authorizedRequests log,
    deriveRarimoIssuanceEventData o request = deriveRarimoIssuanceEventData o request' →
      eventDataInput request = eventDataInput request'

structure SameCredential (request request' : IssuanceRequest) : Prop where
  enrollmentId : lowerHex request.enrollmentId = lowerHex request'.enrollmentId
  holderBinding : request.holderBinding = request'.holderBinding
  country : request.claims.country = request'.claims.country
  issuerId : request.claims.issuerId = request'.claims.issuerId
  ageClass : request.claims.ageClass = request'.claims.ageClass
  assurance : request.claims.assurance = request'.claims.assurance
  credentialEpoch : request.claims.credentialEpoch = request'.claims.credentialEpoch

/-- The country of an issuance is decoded from the citizenship signal of the proof behind its authorization. -/
def CountryProven (o : Options) (log : List Entry) (request : IssuanceRequest) : Prop :=
  ∃ context body proof signal citizenship, .proven context body ∈ log ∧
    request.evidenceAuthorization = js "rarimo-evidence-v1:" ++ fingerprint o body ∧
    decodeProof body.json = .ok proof ∧ proof.publicSignals[6]? = some signal ∧
    decodeCitizenship signal = .ok citizenship ∧
    o.policy.countryMapper.fromAlpha3 citizenship = some request.claims.country

/-- One authorization is used for one credential only. -/
structure BindsOneCredential (o : Options) (log : List Entry) : Prop where
  same : ∀ request ∈ authorizedRequests log, ∀ request' ∈ authorizedRequests log,
    request.evidenceAuthorization = request'.evidenceAuthorization → SameCredential request request'
  country : ∀ request ∈ authorizedRequests log, CountryProven o log request

variable {o : Options}

@[simp]
theorem mem_provenBytes {log : List Entry} {bytes : List UInt8} :
    bytes ∈ provenBytes log ↔ ∃ context body, .proven context body ∈ log ∧ body.bytes = bytes := by
  rw [provenBytes, List.mem_filterMap]
  constructor
  · rintro ⟨entry, hentry, hbytes⟩
    cases entry with
    | proven context body => exact ⟨context, body, hentry, Option.some.inj hbytes⟩
    | _ => cases hbytes
  · rintro ⟨context, body, hentry, rfl⟩
    exact ⟨.proven context body, hentry, rfl⟩

@[simp]
theorem mem_authorizedRequests {log : List Entry} {request : IssuanceRequest} :
    request ∈ authorizedRequests log ↔ .authorized request ∈ log := by
  rw [authorizedRequests, List.mem_filterMap]
  constructor
  · rintro ⟨entry, hentry, hrequest⟩
    cases entry with
    | authorized request' => rwa [← Option.some.inj hrequest]
    | _ => cases hrequest
  · exact fun hentry ↦ ⟨.authorized request, hentry, rfl⟩

theorem ProvenIn.mem {log : List Entry} {context : VerificationContext} {body : Body} (h : ProvenIn log context body) :
    .proven context body ∈ log := by
  obtain ⟨before, after, rfl, _⟩ := h.order
  exact List.mem_append_right _ List.mem_cons_self

theorem ProvenIn.created {log : List Entry} {context : VerificationContext} {body : Body}
    (h : ProvenIn log context body) : .created context ∈ log := by
  obtain ⟨before, after, rfl, hsublist, _⟩ := h.order
  exact List.mem_append_left _ (hsublist.subset List.mem_cons_self)

/-! ## The requests of the contexts -/

/-- Two requests that bound the birth date by one number have both the bound `DEFAULT_DATE_HEX` or neither has it. -/
def SpelledAlike (request request' : RarimoVerificationRequest) : Prop :=
  hexToDecimal request.birthDateUpperBound = hexToDecimal request'.birthDateUpperBound →
    (request.birthDateUpperBound = defaultDateHex ↔ request'.birthDateUpperBound = defaultDateHex)

instance (request request' : RarimoVerificationRequest) : Decidable (SpelledAlike request request') :=
  inferInstanceAs (Decidable (_ → _))

/-- The verification requests of a run. -/
def verificationRequests (events : List Event) : List RarimoVerificationRequest :=
  events.filterMap fun
    | .createVerificationRequest _ request => some request
    | _ => none

/-- The requests of the contexts are among some requests. -/
structure Among (requests : List RarimoVerificationRequest) (w : World) : Prop where
  creating : ∀ c request, w.calls c = some (.creating request) → request ∈ requests
  created : ∀ context, .created context ∈ w.log → context.request ∈ requests

theorem afterLink_ok {g g' : Gateway} {request : RarimoVerificationRequest} {body : Body}
    {context : VerificationContext} {link : RarimoVerificationLink}
    (h : afterLink o g request body = .ok (g', context, link)) : context.request = request := by
  rw [afterLink] at h
  split at h
  · cases h
  · cases h
    rfl

/-- A context is created for the request of its call only, and a call that goes on creates none. -/
theorem resume_created (w : World) (frame : Frame) (reply : Except GatewayError Body) (now : ℤ) :
    (∀ context, .created context ∈ (resume o w frame reply now).2.1 → frame = .creating context.request) ∧
      ∀ request, (resume o w frame reply now).2.2 ≠ .wait (.creating request) := by
  cases frame with
  | creating request =>
    cases reply with
    | error e => simp [resume]
    | ok body =>
      simp only [resume]
      cases hlink : afterLink o w.gateway request body with
      | error e => simp
      | ok link =>
        refine ⟨fun context hcontext ↦ ?_, fun _ h ↦ by cases h⟩
        cases List.mem_singleton.mp hcontext
        rw [afterLink_ok hlink]
  | readingStatus requestId =>
    cases reply with
    | error e => simp [resume]
    | ok body =>
      simp only [resume]
      cases decodeVerificationStatus body.json requestId <;> simp
  | checkingStatus context =>
    cases reply with
    | error e => simp [resume]
    | ok body =>
      simp only [resume]
      cases decodeVerificationStatus body.json context.request.requestId with
      | error message => simp
      | ok status => cases status <;> simp
  | readingProof context =>
    cases reply with
    | error e => simp [resume]
    | ok body =>
      simp only [resume]
      cases afterProof o w.gateway context body now <;> simp
  | deleting requestId => cases reply <;> simp [resume]

theorem Among.next {requests : List RarimoVerificationRequest} {w : World} (h : Among requests w) (c : ℕ) {next : Next}
    (hnext : ∀ request, next = .wait (.creating request) → request ∈ requests) : Among requests (w.next c next) := by
  cases next with
  | wait frame =>
    refine ⟨fun c' request hcall ↦ ?_, h.created⟩
    obtain ⟨_, rfl⟩ | ⟨_, hcall⟩ := Tables.update_some_eq_some hcall
    · exact hnext request rfl
    · exact h.creating c' request hcall
  | done result =>
    exact ⟨fun c' request hcall ↦ h.creating c' request (Tables.update_none_eq_some hcall).2, h.created⟩

theorem among_step {requests : List RarimoVerificationRequest} {w w' : World} {event : Event} (h : Among requests w)
    (hevent : ∀ c request, event = .createVerificationRequest c request → request ∈ requests)
    (hstep : step o w event = .ok w') : Among requests w' := by
  cases event with
  | createVerificationRequest c request =>
    simp only [step] at hstep
    split at hstep
    · split at hstep
      · cases hstep
        exact h.next c fun _ hwait ↦ by cases hwait
      · cases hstep
        exact h.next c fun _ hwait ↦ by cases hwait; exact hevent c request rfl
    · cases hstep
  | getVerificationStatus c requestId =>
    simp only [step] at hstep
    split at hstep
    · cases hstep
      exact h.next c fun _ hwait ↦ by cases hwait
    · cases hstep
  | getVerifiedEvidence c requestId =>
    simp only [step] at hstep
    split at hstep
    · split at hstep
      · cases hstep
        exact h.next c fun _ hwait ↦ by cases hwait
      · cases hstep
        exact h.next c fun _ hwait ↦ by cases hwait
    · cases hstep
  | deleteVerification c requestId =>
    simp only [step] at hstep
    split at hstep
    · cases hstep
      exact h.next c fun _ hwait ↦ by cases hwait
    · cases hstep
  | validateCredentialIssuance request now =>
    simp only [step] at hstep
    split at hstep
    · cases hstep
      exact ⟨h.creating, fun context hcontext ↦ h.created context (by simpa using hcontext)⟩
    · cases hstep
      exact h
  | answer c reply now =>
    simp only [step] at hstep
    split at hstep
    · cases hstep
    · next frame hframe =>
      cases hstep
      obtain ⟨hcreated, hwaits⟩ := resume_created (o := o) w frame reply now
      have hresumed : Among requests { w with
          gateway := (resume o w frame reply now).1, log := w.log ++ (resume o w frame reply now).2.1 } := by
        refine ⟨h.creating, fun context hcontext ↦ ?_⟩
        obtain hold | hnew := List.mem_append.mp hcontext
        · exact h.created context hold
        · exact h.creating c context.request (by rw [hframe, hcreated context hnew])
      exact hresumed.next c fun request hwait ↦ absurd hwait (hwaits request)

/-- In every run, the requests of the contexts are those of the run. -/
theorem among_run (events : List Event) : Among (verificationRequests events) (run (step o) init events) := by
  apply run_history (I := fun _ w ↦ Among (verificationRequests events) w)
    (P := fun e ↦ ∀ c request, e.2 = .createVerificationRequest c request → request ∈ verificationRequests events)
  · exact fun _ _ _ _ h hevent hstep ↦ among_step h hevent hstep
  · exact ⟨fun _ _ h ↦ (by cases h), fun _ h ↦ (by cases h)⟩
  · intro e he c request heq
    have hmem := (accepted_sublist (f := step o) init events).subset (List.mem_map_of_mem he)
    rw [heq] at hmem
    exact List.mem_filterMap.mpr ⟨_, hmem, rfl⟩

/-! ## One credential -/

/-- The number of the bound in the evidence is that of the request. -/
theorem bound_of_evidence {proof : RarimoProofProjection} {request : RarimoVerificationRequest} {fingerprint : JsString}
    {evidence : RarimoVerifiedEvidence} (h : ReadEvidence proof request fingerprint evidence) :
    hexToDecimal request.birthDateUpperBound = some evidence.birthDateUpperBound := by
  obtain ⟨expected, hexpected, hsignals⟩ := h.signals
  obtain ⟨bound, hbound, hexpected⟩ := bind_eq_ok.mp hexpected
  obtain ⟨expiration, _, hexpected⟩ := bind_eq_ok.mp hexpected
  cases hexpected
  have hsignal := hsignals (19, bound) (by simp)
  rw [h.birthDateUpperBound] at hsignal
  rw [boundDecimal] at hbound
  split at hbound
  · cases hbound
  · next value hvalue =>
    cases hbound
    rw [hvalue, Option.some.inj hsignal]

theorem expectedAgeClass_eq {request request' : RarimoVerificationRequest} (hspelled : SpelledAlike request request')
    (h : hexToDecimal request.birthDateUpperBound = hexToDecimal request'.birthDateUpperBound) :
    expectedAgeClass request = expectedAgeClass request' := by
  simp only [expectedAgeClass, hspelled h]

theorem sameCredential_of_authorizes {context context' : VerificationContext} {body body' : Body}
    {request request' : IssuanceRequest} (h : Authorizes o context body request)
    (h' : Authorizes o context' body' request')
    (hproofs : o.sha256 body.bytes = o.sha256 body'.bytes → body.bytes = body'.bytes)
    (hinputs : deriveRarimoIssuanceEventData o request = deriveRarimoIssuanceEventData o request' →
      eventDataInput request = eventDataInput request')
    (hspelled : SpelledAlike context.request context'.request)
    (hsame : request.evidenceAuthorization = request'.evidenceAuthorization) : SameCredential request request' := by
  obtain ⟨proof, evidence, eventData, hproof, _, hevidence, htoken, heventData, _, hdecimal, hcountry⟩ := h.proof
  obtain ⟨proof', evidence', eventData', hproof', _, hevidence', htoken', heventData', _, hdecimal', hcountry'⟩ := h'.proof
  -- The token is the hash of the bytes of the answer, and the answer has one proof.
  rw [htoken, htoken', hevidence.authorization, hevidence'.authorization] at hsame
  have hbodies := hproofs (Vector.toList_inj.mp (bytesToHex_injective (List.append_cancel_left hsame)))
  have hvalid := (decodeProof_ok hproof).valid body.parsed
  have hvalid' := (decodeProof_ok hproof').valid body'.parsed
  have hjson : body.json = body'.json :=
    Json.stringify_injective hvalid hvalid' (encodeUtf8_injective hvalid.isWellFormed hvalid'.isWellFormed hbodies)
  rw [hjson] at hproof
  obtain rfl := Except.ok.inj (hproof.symm.trans hproof')
  have hsignal : evidence.eventDataDecimal = evidence'.eventDataDecimal :=
    Option.some.inj (hevidence.eventDataDecimal.symm.trans hevidence'.eventDataDecimal)
  have hnumber : hexNumber (bytesToHex eventData) = hexNumber (bytesToHex eventData') := by
    have htext := congrArg numeral (hdecimal.symm.trans (hsignal.trans hdecimal'))
    rwa [numeral_decimal, numeral_decimal] at htext
  have hbytes := bytes_eq_of_hexNumber_eq
    ((length_eventData heventData).trans (length_eventData heventData').symm) hnumber
  -- The event data fixes the enrollment and the holder.
  have hinput := hinputs (by rw [heventData, heventData', hbytes])
  obtain ⟨_, enrollment, hpadded, hinputOf, _⟩ := derive_eq_some heventData
  obtain ⟨_, enrollment', hpadded', hinputOf', _⟩ := derive_eq_some heventData'
  rw [hinputOf, hinputOf'] at hinput
  obtain ⟨rfl, hholder⟩ := Prod.mk.inj (Option.some.inj hinput)
  have hcitizenship : evidence.citizenshipAlpha3 = evidence'.citizenshipAlpha3 := by
    obtain ⟨signal, hsignal, hdecoded⟩ := hevidence.citizenship
    obtain ⟨signal', hsignal', hdecoded'⟩ := hevidence'.citizenship
    obtain rfl := Option.some.inj (hsignal.symm.trans hsignal')
    exact Except.ok.inj (hdecoded.symm.trans hdecoded')
  have hbound : hexToDecimal context.request.birthDateUpperBound = hexToDecimal context'.request.birthDateUpperBound := by
    rw [bound_of_evidence hevidence, bound_of_evidence hevidence']
    exact hevidence.birthDateUpperBound.symm.trans hevidence'.birthDateUpperBound
  constructor
  · exact lowerHex_eq_of_padded hpadded hpadded'
  · exact hholder
  · rw [hcitizenship] at hcountry
    exact Option.some.inj (hcountry.symm.trans hcountry')
  · exact h.issuerId.trans h'.issuerId.symm
  · rw [h.ageClass, h'.ageClass]
    exact expectedAgeClass_eq hspelled hbound
  · exact h.assurance.trans h'.assurance.symm
  · exact h.credentialEpoch.trans h'.credentialEpoch.symm

theorem countryProven_of_authorizes {log : List Entry} {context : VerificationContext} {body : Body}
    {request : IssuanceRequest} (hproven : .proven context body ∈ log) (h : Authorizes o context body request) :
    CountryProven o log request := by
  obtain ⟨proof, evidence, _, hproof, _, hevidence, htoken, _, _, _, hcountry⟩ := h.proof
  obtain ⟨signal, hsignal, hdecoded⟩ := hevidence.citizenship
  exact ⟨context, body, proof, signal, evidence.citizenshipAlpha3, hproven, htoken.trans hevidence.authorization, hproof,
    hsignal, hdecoded, hcountry⟩

/-- An issuance that a run has authorized is backed by a proof that the run has read. -/
theorem exists_proven {events : List Event} {request : IssuanceRequest}
    (h : request ∈ authorizedRequests (run (step o) init events).log) :
    ∃ context body, .proven context body ∈ (run (step o) init events).log ∧
      .created context ∈ (run (step o) init events).log ∧ Authorizes o context body request := by
  have hsound : Sound o (run (step o) init events) := run_invariant sound_step sound_init events
  obtain ⟨before, after, hsplit⟩ := List.append_of_mem (mem_authorizedRequests.mp h)
  obtain ⟨context, body, hproven, hauthorizes⟩ := hsound.authorized before request after hsplit
  rw [hsplit]
  exact ⟨context, body, List.mem_append_left _ hproven.mem, List.mem_append_left _ hproven.created, hauthorizes⟩

/-- In every run whose verification requests spell the date that bounds nothing in one way, an authorization is used
for one credential only. -/
theorem authorization_binds_one_credential (events : List Event)
    (hfree : CollisionFree o (run (step o) init events).log)
    (hspelled : ∀ request ∈ verificationRequests events, ∀ request' ∈ verificationRequests events,
      SpelledAlike request request') : BindsOneCredential o (run (step o) init events).log := by
  have hamong := among_run (o := o) events
  constructor
  · intro request hrequest request' hrequest' hsame
    obtain ⟨context, body, hproven, hcreated, hauthorizes⟩ := exists_proven hrequest
    obtain ⟨context', body', hproven', hcreated', hauthorizes'⟩ := exists_proven hrequest'
    apply sameCredential_of_authorizes hauthorizes hauthorizes' _ (hfree.eventData request hrequest request' hrequest')
      (hspelled _ (hamong.created context hcreated) _ (hamong.created context' hcreated')) hsame
    exact hfree.proofs _ (mem_provenBytes.mpr ⟨context, body, hproven, rfl⟩) _
      (mem_provenBytes.mpr ⟨context', body', hproven', rfl⟩)
  · intro request hrequest
    obtain ⟨context, body, hproven, _, hauthorizes⟩ := exists_proven hrequest
    exact countryProven_of_authorizes hproven hauthorizes

/-! ## A run -/

/-- A hash of bytes that adds them up. -/
def sumHash (bytes : List UInt8) : Bytes32 :=
  Vector.replicate 32 (bytes.foldl (fun sum (byte : UInt8) ↦ sum + byte.toNat) 0).toUInt8

def samplePolicy : CredentialIssuancePolicy where
  issuerId := js "issuer"
  credentialEpoch := 1
  credentialTtlMs := 1000
  countryMapper := ⟨fun alpha3 ↦ if alpha3 = js "ARG" then some (js "AR") else none, fun _ ↦ none⟩

def sampleOptions : Options where
  sha256 := sumHash
  persistentHash _ enrollment holder := Vector.ofFn fun i : Fin 32 ↦ enrollment[i] + holder[i]
  toUpperCase text := text
  dateParse text := if text = js "from" then some 0 else if text = js "until" then some 1000 else none
  deriveUserIdHash _ := .ok (js "user")
  checkProofParamsUrl _ := .ok ()
  buildProofRequestUrl url := url
  policy := samplePolicy

/-- The request of an enrollment whose sixteen bytes are 16, with a bound of the birth date. -/
def sampleVerification (birthDateUpperBound : JsString) : RarimoVerificationRequest where
  requestId := js "r"
  eventId := js "1"
  eventData := js "0x" ++ bytesToHex (List.replicate 15 0x17 ++ List.replicate 16 0x07)
  eventDataDecimal := decimal (hexNumber (bytesToHex (List.replicate 15 0x17 ++ List.replicate 16 0x07)))
  selector := js "2"
  citizenshipMask := none
  birthDateLowerBound := defaultDateHex
  birthDateUpperBound
  identityCounterLowerBound := js "3"
  identityCounterUpperBound := js "4"
  expirationDateLowerBound := defaultDateHex
  expirationDateUpperBound := defaultDateHex
  timestampLowerBound := js "5"
  timestampUpperBound := js "6"

def texts (values : List JsString) : Json := .array (values.map .string)

theorem parsed_texts (values : List JsString) : Parsed (texts values) := by
  refine .array fun item hitem ↦ ?_
  obtain ⟨text, _, rfl⟩ := List.mem_map.mp hitem
  exact .string text

/-- The envelope of an answer. -/
def envelope (id type : JsString) (attributes : List (JsString × Json)) : Json :=
  .object [(js "data", .object [(js "id", .string id), (js "type", .string type), (js "attributes", .object attributes)])]

theorem parsed_envelope (id type : JsString) {attributes : List (JsString × Json)} (h : Parsed (.object attributes)) :
    Parsed (envelope id type attributes) := by
  have hdata : Parsed (.object [(js "id", .string id), (js "type", .string type), (js "attributes", .object attributes)]) :=
    parsed_record (["id", "type", "attributes"].map js) rfl (by decide +kernel) (by
      simp only [List.forall_mem_cons, List.not_mem_nil, false_imp_iff, implies_true, and_true]
      exact ⟨.string id, .string type, h⟩)
  exact parsed_record [js "data"] rfl (by decide +kernel) (by simpa using hdata)

def sampleLink : Body where
  json := envelope (js "r") (js "verification_link") [(js "get_proof_params", .string (js "url"))]
  parsed := parsed_envelope _ _ (parsed_record [js "get_proof_params"] rfl (by decide +kernel)
    (by simpa using Parsed.string _))

def sampleStatus : Body where
  json := envelope (js "r") (js "user_status") [(js "status", .string (js "verified"))]
  parsed := parsed_envelope _ _ (parsed_record [js "status"] rfl (by decide +kernel)
    (by simpa using Parsed.string _))

/-- The signals of a proof for the request: an Argentine, and the number of the bound that bounds nothing. -/
def sampleSignals : List JsString :=
  let request := sampleVerification defaultDateHex
  let zero := js "0"
  [zero, zero, zero, zero, zero, zero, js "4280903", zero, zero, request.eventId, request.eventDataDecimal, zero,
    request.selector, zero, zero, request.timestampUpperBound, zero, request.identityCounterUpperBound, zero,
    js "52983525027888", js "52983525027888", zero, zero]

def sampleGroth16 : Json :=
  .object [(js "pi_a", texts (List.replicate 3 (js "1"))),
    (js "pi_b", .array (List.replicate 3 (texts (List.replicate 2 (js "1"))))),
    (js "pi_c", texts (List.replicate 3 (js "1"))), (js "protocol", .string (js "groth16"))]

theorem parsed_sampleGroth16 : Parsed sampleGroth16 := by
  apply parsed_record (["pi_a", "pi_b", "pi_c", "protocol"].map js) rfl (by decide +kernel)
  simp only [List.forall_mem_cons, List.not_mem_nil, false_imp_iff, implies_true, and_true]
  refine ⟨parsed_texts _, .array fun row hrow ↦ ?_, parsed_texts _, .string _⟩
  rw [List.eq_of_mem_replicate hrow]
  exact parsed_texts _

def sampleProof : Body where
  json := envelope (js "user") (js "get_proof") [(js "proof", .object [(js "proof", sampleGroth16),
    (js "pub_signals", texts sampleSignals)])]
  parsed := by
    have hproof : Parsed (.object [(js "proof", sampleGroth16), (js "pub_signals", texts sampleSignals)]) :=
      parsed_record (["proof", "pub_signals"].map js) rfl (by decide +kernel) (by
        simp only [List.forall_mem_cons, List.not_mem_nil, false_imp_iff, implies_true, and_true]
        exact ⟨parsed_sampleGroth16, parsed_texts _⟩)
    exact parsed_envelope _ _ (parsed_record [js "proof"] rfl (by decide +kernel) (by simpa using hproof))

/-- An issuance for the enrollment of the request under the authorization of the proof. -/
def sampleIssuance (ageClass : CredentialAgeClass) : IssuanceRequest where
  enrollmentId := List.replicate 16 [0x31, 0x30] |>.flatten
  provider := .rarimo
  evidenceAuthorization := js "rarimo-evidence-v1:" ++ fingerprint sampleOptions sampleProof
  holderBinding := Vector.replicate 32 7
  claims := ⟨js "issuer", js "AR", ageClass, .documentNfc, 1, js "from", js "until"⟩

/-- A request is created and its proof is read, and an issuance is asked for. -/
def proveAndIssue (c : ℕ) (birthDateUpperBound : JsString) (ageClass : CredentialAgeClass) : List Event :=
  [.createVerificationRequest c (sampleVerification birthDateUpperBound), .answer c (.ok sampleLink) 0,
    .getVerifiedEvidence (c + 1) (js "r"), .answer (c + 1) (.ok sampleStatus) 0, .answer (c + 1) (.ok sampleProof) 0,
    .validateCredentialIssuance (sampleIssuance ageClass) 0]

/-- The request is deleted after its issuance, and created again. -/
def recreated (birthDateUpperBound : JsString) (ageClass : CredentialAgeClass) : List Event :=
  proveAndIssue 0 defaultDateHex .unknown ++ [.deleteVerification 2 (js "r"), .answer 2 (.error noContext) 0] ++
    proveAndIssue 3 birthDateUpperBound ageClass

/-- Only one proof has been read, and both issuances have been authorized. -/
theorem recreated_log : ∀ again ∈ [(defaultDateHex, CredentialAgeClass.unknown), (js "0X303030303030", .adult)],
    let log := (run (step sampleOptions) init (recreated again.1 again.2)).log
    provenBytes log = [sampleProof.bytes, sampleProof.bytes] ∧
      authorizedRequests log = [sampleIssuance .unknown, sampleIssuance again.2] := by
  decide +kernel

theorem collisionFree_recreated {birthDateUpperBound : JsString} {ageClass : CredentialAgeClass}
    (h : (birthDateUpperBound, ageClass) ∈ [(defaultDateHex, .unknown), (js "0X303030303030", .adult)]) :
    CollisionFree sampleOptions (run (step sampleOptions) init (recreated birthDateUpperBound ageClass)).log := by
  obtain ⟨hproven, hauthorized⟩ := recreated_log (birthDateUpperBound, ageClass) h
  constructor
  · rw [hproven]
    simp
  · rw [hauthorized]
    simp only [List.mem_cons, List.not_mem_nil, or_false]
    rintro _ (rfl | rfl) _ (rfl | rfl) _ <;> simp only [eventDataInput, sampleIssuance]

/-- The request is created again as it was: the same issuance is authorized twice. -/
theorem authorization_binds_one_credential_sample :
    BindsOneCredential sampleOptions (run (step sampleOptions) init (recreated defaultDateHex .unknown)).log ∧
      authorizedRequests (run (step sampleOptions) init (recreated defaultDateHex .unknown)).log =
        [sampleIssuance .unknown, sampleIssuance .unknown] :=
  ⟨authorization_binds_one_credential _ (collisionFree_recreated List.mem_cons_self) (by decide +kernel),
    (recreated_log (defaultDateHex, .unknown) List.mem_cons_self).2⟩

/-- The request is created again with another spelling of its bound: the same authorization is used for two age
classes. -/
theorem respelled_bound_changes_age_class :
    CollisionFree sampleOptions (run (step sampleOptions) init (recreated (js "0X303030303030") .adult)).log ∧
      ¬BindsOneCredential sampleOptions (run (step sampleOptions) init (recreated (js "0X303030303030") .adult)).log := by
  have hagain := List.mem_cons_of_mem (defaultDateHex, CredentialAgeClass.unknown)
    (List.mem_singleton_self (js "0X303030303030", CredentialAgeClass.adult))
  refine ⟨collisionFree_recreated hagain, fun h ↦ ?_⟩
  have hsame := h.same
  rw [(recreated_log (js "0X303030303030", .adult) hagain).2] at hsame
  cases (hsame (sampleIssuance .unknown) (by simp) (sampleIssuance .adult) (by simp) rfl).ageClass

end MidnightReferendum.RarimoGateway
