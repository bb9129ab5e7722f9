import MidnightReferendum.Cico.Enrollment
import MidnightReferendum.Cico.OneLeaf
import MidnightReferendum.Cico.WorkingIssuer
import MidnightReferendum.Js.Dates

/-!
# Enrollments that are retried

A poll whose call of the issuer fails leaves the record of the enrollment pending, and the next poll calls
the issuer again. Its claims begin with another second, so the service takes the request for another one
unless both polls fall into the same second.
-/

namespace MidnightReferendum.Cico

open Js CredentialIssuerService MidnightReferendum.Compact Execution
open Relayer (CanonicalReceipt)

variable {D : Type} (o : CredentialIssuerServiceOptions D) (a : AdapterOptions)
  (registry : CredentialRegistryV1.Sealed Bytes32)

/-! ## The setting -/

/-- The registry is deployed for the issuer, and `Date.parse` reads what `toISOString` writes. -/
structure Deployed : Prop where
  issuerId : padBytes32 a.issuerId = some registry.issuerId
  credentialEpoch : a.credentialEpoch = registry.credentialEpoch.toNat
  dateParse : ∀ milliseconds text, toISOString milliseconds = some text →
    o.dateParse text = some milliseconds

/-- The hash keeps the requests apart from those of an enrollment, in the bytes of which the stores take digests. -/
structure NoCollision (P own : IssuanceRequest → Prop) : Prop where
  enrollment : ∀ r r', P r → own r' →
    o.sha256 (digestBytes "enrollment" r.enrollmentId) = o.sha256 (digestBytes "enrollment" r'.enrollmentId) →
      digestBytes "enrollment" r.enrollmentId = digestBytes "enrollment" r'.enrollmentId
  material : ∀ r r', P r → own r' →
    o.sha256 (digestBytes "material" (requestFingerprint r)) =
        o.sha256 (digestBytes "material" (requestFingerprint r')) →
      digestBytes "material" (requestFingerprint r) = digestBytes "material" (requestFingerprint r')
  issuance : ∀ r r', P r → own r' →
    o.sha256 (digestBytes "issuance" (requestFingerprint r)) =
        o.sha256 (digestBytes "issuance" (requestFingerprint r')) →
      digestBytes "issuance" (requestFingerprint r) = digestBytes "issuance" (requestFingerprint r')

/-- The leaf of a transaction in the registry. -/
def registryLeaf (t : Transaction) : Option Bytes32 :=
  (leafWitness t.privateState).map (CredentialRegistryV1.credentialLeaf o.hashing registry)

/-- An accepted leaf is that of the issuance record of its enrollment. -/
def HasRecord (w : World) (t : Transaction) : Prop :=
  ∃ record, w.records.get? (enrollmentKey o t.request) = some record ∧
    registryLeaf o registry t = some record.result.credentialLeaf

/-- A call has got as far as the claim of its authorization, and the claim is stored. -/
structure ClaimStored (w : World) (request : IssuanceRequest) : Prop where
  claimed : Claimed o w request
  encodes : ∃ privateState, Encodes o request privateState

/-! ## A later poll -/

/-- The moments of a later poll, and what it is answered apart from the issuance. -/
structure Retry where
  checkedAt : ℤ
  issuedAt : ℤ
  endedAt : ℤ
  blind : Bytes32
  receipt : CanonicalReceipt
  deleted : Bool

/-- The answers of a verifier, an issuer and a chain that work. -/
def Retry.answers (retry : Retry) (w : World) (evidence : RarimoVerifiedEvidence) : PollAnswers where
  checkedAt := retry.checkedAt
  status := some .verified
  evidence := some (some evidence)
  issuedAt := retry.issuedAt
  issuance request := (served o w request retry.blind retry.receipt).memory.answer request
  saved := true
  deleted := retry.deleted
  endedAt := retry.endedAt

/-- The record of the enrollment after the later poll. -/
def Retry.record (retry : Retry) (w : World) (record : RarimoEnrollmentRecord)
    (evidence : RarimoVerifiedEvidence) : RarimoEnrollmentRecord :=
  (pollEnrollmentStatus a (deriveCredentialLeaf o) record (retry.answers o w evidence)).1

/-- The issuer and the registry after the later poll. -/
def Retry.world (retry : Retry) (w : World) (record : RarimoEnrollmentRecord)
    (evidence : RarimoVerifiedEvidence) : World :=
  match issuanceRequest a record evidence retry.issuedAt with
  | some request => served o w request retry.blind retry.receipt
  | none => w

variable {o a} in
theorem Retry.world_of_request {retry : Retry} {w : World} {record : RarimoEnrollmentRecord}
    {evidence : RarimoVerifiedEvidence} {request : IssuanceRequest}
    (h : issuanceRequest a record evidence retry.issuedAt = some request) :
    retry.world o a w record evidence = served o w request retry.blind retry.receipt := by
  delta Retry.world
  rw [h]

/-- The poll ends with a credential that opens a leaf of the registry. If the enrollment had a leaf
before, it is this one and no other is added. -/
structure Completes (w : World) (record : RarimoEnrollmentRecord) (evidence : RarimoVerifiedEvidence)
    (retry : Retry) : Prop where
  issued : (retry.record o a w record evidence).status = .issued
  verifies : ∃ summary blind leaf, (retry.record o a w record evidence).summary = some summary ∧
    (retry.record o a w record evidence).credentialBlind = some blind ∧
    (retry.record o a w record evidence).credentialLeaf = some leaf ∧
    deriveCredentialLeaf o (retry.record o a w record evidence).holderBinding summary.claims blind =
      some leaf ∧
    ∃ t ∈ (retry.world o a w record evidence).leaves, registryLeaf o registry t = some leaf
  once : ∀ t ∈ w.leaves, t.request.enrollmentId = record.enrollmentId →
    (retry.world o a w record evidence).leaves = w.leaves ∧
      registryLeaf o registry t = (retry.record o a w record evidence).credentialLeaf

variable {o a registry} {record : RarimoEnrollmentRecord} {evidence : RarimoVerifiedEvidence}
  {now now' : ℤ} {request request' : IssuanceRequest} {Q : IssuanceRequest → Prop}

/-! ## The requests of an enrollment -/

theorem issuanceRequest_congr (h : now / 1000 = now' / 1000) :
    issuanceRequest a record evidence now = issuanceRequest a record evidence now' := by
  simp only [issuanceRequest, claimsAt, h]

/-- What a request of the adapter says. -/
theorem issuanceRequest_eq (h : issuanceRequest a record evidence now = some request) :
    ∃ country validFrom validUntil, toISOString (now / 1000 * 1000) = some validFrom ∧
      toISOString (now / 1000 * 1000 + a.credentialTtlMs) = some validUntil ∧
      deriveCountry a record evidence = some country ∧ request = {
        enrollmentId := record.enrollmentId
        provider := .rarimo
        evidenceAuthorization := evidence.evidenceAuthorization
        holderBinding := record.holderBinding
        claims := ⟨a.issuerId, country, deriveAgeClass record, .documentNfc, a.credentialEpoch,
          validFrom, validUntil⟩ } := by
  unfold issuanceRequest at h
  split at h
  · simp only [Option.bind_eq_bind, Option.bind_eq_some_iff, claimsAt, Option.pure_def] at h
    obtain ⟨country, hcountry, claims, ⟨validFrom, hfrom, validUntil, huntil, hclaims⟩, hrequest⟩ := h
    refine ⟨country, validFrom, validUntil, hfrom, huntil, hcountry, ?_⟩
    rw [← Option.some.inj hrequest, ← Option.some.inj hclaims]
  · cases h

/-- The beginning of the validity is a part of the fingerprint. -/
theorem validFrom_of_requestFingerprint (request : IssuanceRequest) {from₁ until₁ from₂ until₂ : JsString}
    (hfrom₁ : Unescaped from₁) (hfrom₂ : Unescaped from₂)
    (h : requestFingerprint { request with
        claims := { request.claims with validFrom := from₁, validUntil := until₁ } } =
      requestFingerprint { request with
        claims := { request.claims with validFrom := from₂, validUntil := until₂ } }) :
    from₁ = from₂ := by
  simp only [requestFingerprint, objectText, CivicCredentialClaims.text, List.map_cons, List.map_nil,
    List.intercalate_cons_cons, List.intercalate_singleton, List.append_assoc, List.append_right_inj] at h
  exact eq_of_quote_append hfrom₁ hfrom₂ h

/-- Two requests of an enrollment with the same fingerprint fall into the same second. -/
theorem second_of_requestFingerprint (h : issuanceRequest a record evidence now = some request)
    (h' : issuanceRequest a record evidence now' = some request')
    (hsame : requestFingerprint request = requestFingerprint request') : now / 1000 = now' / 1000 := by
  obtain ⟨country, validFrom, validUntil, hfrom, _, hcountry, rfl⟩ := issuanceRequest_eq h
  obtain ⟨country', validFrom', validUntil', hfrom', _, hcountry', rfl⟩ := issuanceRequest_eq h'
  obtain rfl := Option.some.inj (hcountry.symm.trans hcountry')
  have htext : validFrom = validFrom' := validFrom_of_requestFingerprint
    ⟨record.enrollmentId, .rarimo, evidence.evidenceAuthorization, record.holderBinding,
      ⟨a.issuerId, country, deriveAgeClass record, .documentNfc, a.credentialEpoch, [], []⟩⟩
    (unescaped_toISOString hfrom) (unescaped_toISOString hfrom') hsame
  have hmoment := toISOString_injective hfrom (htext ▸ hfrom')
  omega

/-! ## Texts of requests -/

theorem isWellFormed_integerText (n : ℤ) : isWellFormed (integerText n) := by
  apply isWellFormed_of_plain
  intro u hu
  rw [integerText, List.mem_append] at hu
  obtain hu | hu := hu
  · split at hu
    · have hminus : IsPlain (js "-") := by decide
      exact hminus u hu
    · cases hu
  · exact isPlain_of_digits (allDigits_decimal n.natAbs).1 u hu

theorem isWellFormed_intercalate {separator : JsString} (hseparator : isWellFormed separator) {texts : List JsString}
    (h : ∀ text ∈ texts, isWellFormed text) : isWellFormed (separator.intercalate texts) := by
  induction texts with
  | nil => rfl
  | cons text texts ih =>
    have htexts := ih fun other hother ↦ h other (List.mem_cons_of_mem _ hother)
    have htext := h text List.mem_cons_self
    cases texts with
    | nil => simpa using htext
    | cons next texts =>
      rw [List.intercalate_cons_cons]
      exact isWellFormed_append (isWellFormed_append htext hseparator) htexts

theorem isWellFormed_objectText {fields : List (String × JsString)} (h : ∀ field ∈ fields, isWellFormed field.2) :
    isWellFormed (objectText fields) := by
  have htexts : ∀ text ∈ fields.map (fun field ↦ quote (js field.1) ++ js ":" ++ field.2), isWellFormed text := by
    intro text htext
    obtain ⟨field, hfield, rfl⟩ := List.mem_map.mp htext
    exact isWellFormed_append (isWellFormed_append (isWellFormed_quote _) (by decide)) (h field hfield)
  exact isWellFormed_append (isWellFormed_append (by decide) (isWellFormed_intercalate (by decide) htexts)) (by decide)

theorem isWellFormed_requestFingerprint (request : IssuanceRequest) : isWellFormed (requestFingerprint request) := by
  apply isWellFormed_objectText
  simp only [List.forall_mem_cons, List.not_mem_nil, false_imp_iff, implies_true, and_true]
  refine ⟨isWellFormed_quote _, isWellFormed_quote _, isWellFormed_quote _, ?_⟩
  apply isWellFormed_objectText
  simp [isWellFormed_quote, isWellFormed_integerText]

variable {r r' : IssuanceRequest}

/-- Fingerprints are determined by their bytes. -/
theorem requestFingerprint_of_bytes {domain : String}
    (h : digestBytes domain (requestFingerprint r) = digestBytes domain (requestFingerprint r')) :
    requestFingerprint r = requestFingerprint r' :=
  encodeUtf8_injective (isWellFormed_requestFingerprint r) (isWellFormed_requestFingerprint r')
    (List.append_cancel_left h)

/-- A hexadecimal text is determined by its bytes. -/
theorem eq_of_bytes_of_hexadecimal {domain : String} {text text' : JsString} {bytes : List UInt8}
    (h : digestBytes domain text = digestBytes domain text') (hhexadecimal : text' = bytesToHex bytes) : text = text' := by
  have hunit : ∀ n : Fin 16, isSurrogate (hexUnit n.val) = false ∧ hexUnit n.val ≠ 0xFFFD := by decide
  have hunits : ∀ u ∈ text', isSurrogate u = false ∧ u ≠ 0xFFFD := by
    intro u hu
    rw [hhexadecimal] at hu
    obtain ⟨b, _, hb⟩ := List.mem_flatMap.mp hu
    have hlt := b.toNat_lt
    simp only [hexByte, List.mem_cons, List.not_mem_nil, or_false] at hb
    obtain rfl | rfl := hb
    · exact hunit ⟨b.toNat / 16, by omega⟩
    · exact hunit ⟨b.toNat % 16, by omega⟩
  exact eq_of_encodeUtf8_eq (List.append_cancel_left h) (isWellFormed_of_plain fun u hu ↦ (hunits u hu).1)
    fun hmem ↦ (hunits _ hmem).2 rfl

/-! ## Leaves -/

theorem privateStateFor_eq {secret blind : Bytes32} {privateState : RegistryPrivateState}
    (h : privateStateFor o.dateParse request secret blind = some privateState) :
    ∃ country validUntil, padBytes32 request.claims.country = some country ∧
      isoTimestampSeconds o.dateParse request.claims.validUntil = some validUntil ∧
      privateState = ⟨secret, request.holderBinding, blind, country, ageClassCode request.claims.ageClass,
        assuranceCode request.claims.assurance, request.claims.credentialEpoch, validUntil⟩ := by
  simp only [privateStateFor, Option.bind_eq_bind, Option.bind_eq_some_iff, Option.pure_def] at h
  obtain ⟨country, hcountry, validUntil, huntil, hstate⟩ := h
  exact ⟨country, validUntil, hcountry, huntil, (Option.some.inj hstate).symm⟩

/-- Another blind makes no difference to what can be encoded. -/
theorem privateStateFor_blind {privateState : RegistryPrivateState} (h : Encodes o request privateState)
    (blind : Bytes32) :
    ∃ privateState', privateStateFor o.dateParse request o.issuerSecret blind = some privateState' ∧
      privateState'.credentialBlind = blind := by
  obtain ⟨blind', hblind'⟩ := h
  obtain ⟨country, validUntil, hcountry, huntil, _⟩ := privateStateFor_eq hblind'
  refine ⟨⟨o.issuerSecret, request.holderBinding, blind, country, ageClassCode request.claims.ageClass,
    assuranceCode request.claims.assurance, request.claims.credentialEpoch, validUntil⟩, ?_, rfl⟩
  simp only [privateStateFor, hcountry, huntil, Option.bind_eq_bind, Option.bind_some, Option.pure_def]

theorem ageClassCode_lt (ageClass : CredentialAgeClass) : ageClassCode ageClass < 2 ^ 8 := by
  cases ageClass <;> decide

theorem assuranceCode_lt (assurance : CredentialAssurance) : assuranceCode assurance < 2 ^ 8 := by
  cases assurance <;> decide

/-- The witnesses of a request of the adapter fit their types. -/
theorem leafWitness_isSome (hdeployed : Deployed o a registry)
    (hrequest : issuanceRequest a record evidence now = some request)
    {privateState : RegistryPrivateState} (hencodes : Encodes o request privateState) :
    (leafWitness privateState).isSome = true := by
  obtain ⟨blind, hblind⟩ := hencodes
  obtain ⟨country, validUntil, _, huntil, rfl⟩ := privateStateFor_eq hblind
  obtain ⟨_, _, untilText, _, htext, _, hclaims⟩ := issuanceRequest_eq hrequest
  have huntilText : request.claims.validUntil = untilText := by rw [hclaims]
  have hbound : validUntil.toNat < 2 ^ 64 := by
    rw [isoTimestampSeconds, huntilText, hdeployed.dateParse _ _ htext, Option.bind_some] at huntil
    split at huntil
    · obtain rfl := Option.some.inj huntil
      unfold toISOString at htext
      split at htext
      · cases htext
      · next hrange =>
        have hle := le_of_abs_le (not_lt.mp hrange)
        omega
    · cases huntil
  rw [leafWitness, if_pos ⟨ageClassCode_lt request.claims.ageClass,
    assuranceCode_lt request.claims.assurance, hbound⟩]
  rfl

/-- The registry computes the leaf that the issuer and the browser derive. -/
theorem registryLeaf_eq (hdeployed : Deployed o a registry) {t : Transaction}
    (hrequest : issuanceRequest a record evidence now = some t.request)
    (hencodes : Encodes o t.request t.privateState) :
    registryLeaf o registry t =
        deriveCredentialLeaf o t.request.holderBinding t.request.claims t.privateState.credentialBlind ∧
      (registryLeaf o registry t).isSome = true := by
  have hwitness := leafWitness_isSome hdeployed hrequest hencodes
  obtain ⟨blind, hblind⟩ := hencodes
  obtain ⟨country, validUntil, hcountry, huntil, hstate⟩ := privateStateFor_eq hblind
  obtain ⟨_, _, untilText, _, htext, _, hclaims⟩ := issuanceRequest_eq hrequest
  have hissuer : padBytes32 t.request.claims.issuerId = some registry.issuerId := by
    rw [hclaims]
    exact hdeployed.issuerId
  have hepoch : t.request.claims.credentialEpoch = registry.credentialEpoch.toNat := by
    rw [hclaims]
    exact hdeployed.credentialEpoch
  have hfits : t.privateState.credentialAgeClass < 2 ^ 8 ∧ t.privateState.credentialAssurance < 2 ^ 8 ∧
      t.privateState.credentialValidUntil.toNat < 2 ^ 64 := by
    unfold leafWitness at hwitness
    split at hwitness
    · assumption
    · cases hwitness
  have hage : (UInt8.ofNat t.privateState.credentialAgeClass).toNat = ageClassCode t.request.claims.ageClass := by
    rw [UInt8.toNat_ofNat', Nat.mod_eq_of_lt hfits.1, hstate]
  have hassurance : (UInt8.ofNat t.privateState.credentialAssurance).toNat =
      assuranceCode t.request.claims.assurance := by
    rw [UInt8.toNat_ofNat', Nat.mod_eq_of_lt hfits.2.1, hstate]
  have hvalid : (UInt64.ofNat t.privateState.credentialValidUntil.toNat).toNat = validUntil.toNat := by
    rw [UInt64.toNat_ofNat', Nat.mod_eq_of_lt hfits.2.2, hstate]
  have hnonneg : ¬(registry.credentialEpoch.toNat : ℤ) < 0 := by omega
  have hleaf : registryLeaf o registry t = some (o.hashing.persistentCommit
      [o.hashing.pad "cico:credential:v1", t.request.holderBinding, registry.issuerId, country,
        o.hashing.asBytes32 (ageClassCode t.request.claims.ageClass),
        o.hashing.asBytes32 (assuranceCode t.request.claims.assurance),
        o.hashing.asBytes32 registry.credentialEpoch.toNat, o.hashing.asBytes32 validUntil.toNat]
      t.privateState.credentialBlind) := by
    rw [registryLeaf, leafWitness, if_pos hfits, Option.map_some, CredentialRegistryV1.credentialLeaf,
      credentialCommitment]
    simp only [hage, hassurance, hvalid]
    rw [hstate]
  refine ⟨?_, by rw [hleaf]; rfl⟩
  rw [hleaf, deriveCredentialLeaf]
  simp only [hissuer, hcountry, huntil, Option.bind_eq_bind, Option.bind_some, hepoch, if_neg hnonneg,
    Int.toNat_natCast, Option.pure_def]

/-! ## What is stored for the enrollment -/

section Stores

variable {es : List Event} {first : ℤ} {request₀ : IssuanceRequest} {P own : IssuanceRequest → Prop} {w : World}

/-- The calls of a run are those that its states know. -/
theorem sound_run (es : List Event) :
    Sound o (fun r ↦ .issueCredential r ∈ es) (run (step o) ({} : World) es) := by
  have hcalls : ∀ e ∈ accepted (step o) ({} : World) es, e.2 ∈ es :=
    fun e he ↦ snd_mem_of_mem_trace (mem_accepted_iff.mp he).1
  exact run_history (I := fun _ s ↦ Sound o (fun r ↦ .issueCredential r ∈ es) s) (P := fun e ↦ e.2 ∈ es)
    (fun _ s e s' hs hmem hok ↦ sound_step s e s' hs (fun r heq ↦ heq ▸ hmem) hok) sound_start es hcalls

/-- Two claimed requests of the enrollment are the same. -/
theorem eq_of_claimed (hcollision : NoCollision o P own) (hr : P request) (hr₀ : own request₀)
    (hrequest : issuanceRequest a record evidence now = some request)
    (hfirst : issuanceRequest a record evidence first = some request₀)
    (hclaimed : Claimed o w request) (hstored : Claimed o w request₀) : request = request₀ := by
  obtain ⟨call, hcall, r, hget, _, hmaterial⟩ := hclaimed
  obtain ⟨call₀, hcall₀, r₀, hget₀, _, hmaterial₀⟩ := hstored
  obtain ⟨hauthorization, _, hfingerprint⟩ := claimCall?_eq hcall
  obtain ⟨hauthorization₀, _, hfingerprint₀⟩ := claimCall?_eq hcall₀
  have hsame : request.evidenceAuthorization = request₀.evidenceAuthorization := by
    obtain ⟨_, _, _, _, _, _, rfl⟩ := issuanceRequest_eq hrequest
    obtain ⟨_, _, _, _, _, _, rfl⟩ := issuanceRequest_eq hfirst
    rfl
  rw [hauthorization, hsame, ← hauthorization₀] at hget
  obtain rfl := Option.some.inj (hget.symm.trans hget₀)
  have hdigest : digest o.sha256 "material" (requestFingerprint request) =
      digest o.sha256 "material" (requestFingerprint request₀) :=
    Option.some.inj ((hmaterial _ hfingerprint).symm.trans (hmaterial₀ _ hfingerprint₀))
  have hbytes := hcollision.material request request₀ hr hr₀ (digest_eq_iff.mp hdigest)
  have hsecond := second_of_requestFingerprint hrequest hfirst (requestFingerprint_of_bytes hbytes)
  rw [issuanceRequest_congr hsecond] at hrequest
  exact Option.some.inj (hrequest.symm.trans hfirst)

/-- An issuance record of the enrollment is that of the claimed request. -/
theorem issued_of_record (hsound : Sound o Q w) (hQ : ∀ r, Q r → P r) (hcollision : NoCollision o P own)
    (hr₀ : own request₀) {bytes : List UInt8} (hhexadecimal : record.enrollmentId = bytesToHex bytes)
    (hown : ∀ r, Q r → r.enrollmentId = record.enrollmentId →
      ∃ now, issuanceRequest a record evidence now = some r)
    (hfirst : issuanceRequest a record evidence first = some request₀) (hstored : Claimed o w request₀)
    {issuance : CredentialIssuanceRecord}
    (hget : w.records.get? (enrollmentKey o request₀) = some issuance) :
    issuance = recordOf o request₀ issuance.result ∧ Issued o w request₀ issuance.result := by
  obtain ⟨r, result, rfl, hissued⟩ := hsound.stored.records _ _ hget
  obtain ⟨t, ht, rfl, hresult⟩ := hissued
  have hsent := hsound.stored.leaves t ht
  have hid : t.request.enrollmentId = record.enrollmentId := by
    have hkey : (recordOf o t.request result).enrollmentKey = enrollmentKey o request₀ :=
      KeyedList.key_of_get? hget
    have hid₀ : request₀.enrollmentId = record.enrollmentId := by
      obtain ⟨_, _, _, _, _, _, rfl⟩ := issuanceRequest_eq hfirst
      rfl
    have hbytes := hcollision.enrollment _ _ (hQ _ hsent.request) hr₀ (digest_eq_iff.mp hkey)
    rw [hid₀] at hbytes
    exact eq_of_bytes_of_hexadecimal hbytes hhexadecimal
  obtain ⟨now, hnow⟩ := hown _ hsent.request hid
  have hsame := eq_of_claimed hcollision (hQ _ hsent.request) hr₀ hnow hfirst hsent.claimed hstored
  rw [← hsame]
  exact ⟨rfl, t, ht, rfl, hresult⟩

/-- The claim of a request whose enrollment has a claim is accepted if the material is the same. -/
theorem claim_of_claimed (hvalid : w.evidence.Valid) (hstored : Claimed o w request₀)
    (hauthorization : request.evidenceAuthorization = request₀.evidenceAuthorization)
    (hid : request.enrollmentId = request₀.enrollmentId) :
    ∃ call, claimCall? request = some call ∧ ((w.evidence.claim o.sha256 call).1 = true ↔
      digest o.sha256 "material" (requestFingerprint request₀) =
        digest o.sha256 "material" (requestFingerprint request)) := by
  obtain ⟨call₀, hcall₀, r, hget, henrollment, hmaterial⟩ := hstored
  obtain ⟨hauthorization₀, hid₀, hfingerprint₀⟩ := claimCall?_eq hcall₀
  have hne : request.evidenceAuthorization ≠ [] ∧ request.enrollmentId ≠ [] := by
    rw [hauthorization, hid, ← hauthorization₀, ← hid₀]
    exact ⟨call₀.authorization_ne, call₀.enrollment_ne⟩
  obtain ⟨call, hcall⟩ : ∃ call, claimCall? request = some call := ⟨_, dif_pos hne⟩
  obtain ⟨hauthorization', hid', hfingerprint'⟩ := claimCall?_eq hcall
  refine ⟨call, hcall, ?_⟩
  rw [hauthorization₀, ← hauthorization, ← hauthorization'] at hget
  rw [hid₀, ← hid, ← hid'] at henrollment
  have hr : r.Valid := hvalid r (KeyedList.mem_of_get? hget)
  have hknown : present r.materialKey = some (digest o.sha256 "material" (requestFingerprint request₀)) := by
    rw [present_of_digests hr.materialKey]
    exact hmaterial _ hfingerprint₀
  have hnew : present (call.issuanceMaterial.map (digest o.sha256 "material")) =
      some (digest o.sha256 "material" (requestFingerprint request)) := by
    rw [hfingerprint', Option.map_some, present_of_isDigest (isDigest_digest _ _ _)]
  simp only [EvidenceState.claim, PlainObject.property, hget, henrollment, ne_eq, not_true_eq_false,
    if_false, hknown, hnew, decide_eq_true_eq]

end Stores

/-! ## The later poll -/

theorem validateIssuance_of_issued {privateState : RegistryPrivateState} {receipt : CanonicalReceipt}
    {result : IssuanceResult} (h : issuedResult o request privateState receipt = some result) :
    validateIssuance (deriveCredentialLeaf o) result request.holderBinding request.claims = .ok () ∧
      deriveCredentialLeaf o request.holderBinding request.claims privateState.credentialBlind =
        some result.credentialLeaf ∧ result.credentialBlind = privateState.credentialBlind := by
  unfold issuedResult at h
  split at h
  · cases h
  · next hreceipt =>
    obtain ⟨leaf, hleaf, rfl⟩ := Option.map_eq_some_iff.mp h
    simp only [not_or, not_not] at hreceipt
    obtain ⟨haction, hcircuit, _, hnetwork⟩ := hreceipt
    have hblank : isBlank (js "credential:" ++ receipt.transactionId) = false := by
      have hprefix : (js "credential:").all isSpace = false := by decide
      rw [isBlank, List.all_append, hprefix, Bool.false_and]
    refine ⟨?_, hleaf, rfl⟩
    simp only [validateIssuance, hblank, Bool.false_eq_true, if_false, haction, hcircuit, hnetwork, ne_eq,
      not_true_eq_false, or_self, hleaf, if_true]

section Poll

variable {retry : Retry} {w : World} (hstatus : record.status.isTerminal = false)
  (htime : retry.checkedAt < record.expiresAt)

include hstatus htime

theorem retry_record_eq : retry.record o a w record evidence =
    (pollIssuance a (deriveCredentialLeaf o) record evidence (retry.answers o w evidence)).1 := by
  simp only [Retry.record, pollEnrollmentStatus, hstatus, Bool.false_eq_true, if_false, Retry.answers,
    not_le.mpr htime]

/-- A poll that issues a credential has got it from the issuer. -/
theorem answer_of_issued (h : (retry.record o a w record evidence).status = .issued) :
    ∃ request result, issuanceRequest a record evidence retry.issuedAt = some request ∧
      (served o w request retry.blind retry.receipt).memory.answer request = some result ∧
      (retry.record o a w record evidence).credentialLeaf = some result.credentialLeaf := by
  have hpending : record.status ≠ .issued := fun heq ↦ by
    rw [heq] at hstatus
    cases hstatus
  rw [retry_record_eq hstatus htime] at h ⊢
  unfold pollIssuance at h ⊢
  cases hrequest : issuanceRequest a record evidence (retry.answers o w evidence).issuedAt with
  | none =>
    rw [hrequest] at h
    cases h
  | some request =>
    simp only [hrequest] at h ⊢
    cases hanswer : (retry.answers o w evidence).issuance request with
    | none =>
      simp only [hanswer] at h
      exact absurd h hpending
    | some result =>
      simp only [hanswer] at h ⊢
      cases hvalid : validateIssuance (deriveCredentialLeaf o) result record.holderBinding request.claims with
      | ok =>
        refine ⟨request, result, hrequest, hanswer, ?_⟩
        rfl
      | error e =>
        rw [hvalid] at h
        cases e with
        | issuanceFailed => exact absurd h hpending
        | _ => cases h

/-- A poll that gets the issuance of its request issues the credential. -/
theorem record_of_answer (hrequest : issuanceRequest a record evidence retry.issuedAt = some request)
    {privateState : RegistryPrivateState} {receipt : CanonicalReceipt} {result : IssuanceResult}
    (hissued : issuedResult o request privateState receipt = some result)
    (hanswer : (served o w request retry.blind retry.receipt).memory.answer request = some result) :
    retry.record o a w record evidence = cleanupProviderRecord
      { withIssuance record evidence request.claims result with
        status := .issued, updatedAt := retry.issuedAt / 1000 * 1000 } retry.deleted := by
  have hbinding : request.holderBinding = record.holderBinding := by
    obtain ⟨_, _, _, _, _, _, rfl⟩ := issuanceRequest_eq hrequest
    rfl
  have hvalid := (validateIssuance_of_issued hissued).1
  rw [hbinding] at hvalid
  rw [retry_record_eq hstatus htime]
  delta pollIssuance
  simp only [Retry.answers, hrequest, hanswer, hvalid, if_true]

end Poll

/-! ## When a retried enrollment completes -/

variable (o a) in
/-- A run of the issuer in which a call of an enrollment has got as far as the claim of its authorization.
The enrollment is pending in the browser, under an id of random bytes, only its adapter calls the issuer for it, and
the issuer has answered all calls. -/
structure Interrupted (es : List Event) (record : RarimoEnrollmentRecord)
    (evidence : RarimoVerifiedEvidence) (first : ℤ) (request : IssuanceRequest) : Prop where
  pending : record.status.isTerminal = false
  hexadecimal : ∃ bytes, record.enrollmentId = bytesToHex bytes
  first : issuanceRequest a record evidence first = some request
  called : .issueCredential request ∈ es
  stored : ClaimStored o (run (step o) ({} : World) es) request
  own : ∀ r, .issueCredential r ∈ es → r.enrollmentId = record.enrollmentId →
    ∃ now, issuanceRequest a record evidence now = some r
  idle : Idle (run (step o) ({} : World) es)

section Completes

variable {es : List Event} {first : ℤ} {request₀ : IssuanceRequest} {w : World} {retry : Retry}
  {P own : IssuanceRequest → Prop}

/-- An idle issuer remembers no call of an enrollment without a record. -/
theorem entry_of_fresh (hsound : Sound o Q w) (hidle : Idle w) (hfresh : Fresh o w request) :
    w.memory.issuances request.enrollmentId = none := by
  cases hentry : w.memory.issuances request.enrollmentId with
  | none => rfl
  | some issuance =>
    obtain ⟨result, hresult⟩ := result_of_entry hsound hidle hentry
    obtain ⟨record, hget, _⟩ := hsound.issuances _ _ _ hentry hresult
    cases hfresh.symm.trans hget

/-- The claimed request of an enrollment without a record gets a new leaf. -/
theorem served_fresh (hdeployed : Deployed o a registry) (hsound : Sound o Q w) (hidle : Idle w)
    (hfresh : Fresh o w request₀) (hfirst : issuanceRequest a record evidence first = some request₀)
    (hstored : ClaimStored o w request₀) (hreceipt : Canonical o retry.receipt) :
    ∃ t result, t.request = request₀ ∧
      (served o w request₀ retry.blind retry.receipt).leaves = w.leaves ++ [t] ∧
      (served o w request₀ retry.blind retry.receipt).memory.answer request₀ = some result ∧
      issuedResult o request₀ t.privateState retry.receipt = some result ∧
      registryLeaf o registry t = some result.credentialLeaf := by
  obtain ⟨privateState₀, hencodes₀⟩ := hstored.encodes
  obtain ⟨privateState, hencodes, _⟩ := privateStateFor_blind hencodes₀ retry.blind
  obtain ⟨call, hcall, haccepts⟩ := claim_of_claimed hsound.stored.evidence hstored.claimed rfl rfl
  have hid : request₀.enrollmentId ≠ [] := by
    obtain ⟨_, hid, _⟩ := claimCall?_eq hcall
    exact hid ▸ call.enrollment_ne
  let t : Transaction := ⟨w.sent, request₀, privateState⟩
  obtain ⟨hleaf, hsome⟩ := registryLeaf_eq (t := t) hdeployed hfirst ⟨_, hencodes⟩
  obtain ⟨leaf, hregistry⟩ := Option.isSome_iff_exists.mp hsome
  have hderived : deriveCredentialLeaf o request₀.holderBinding request₀.claims
      privateState.credentialBlind = some leaf := hleaf.symm.trans hregistry
  have hresult : issuedResult o request₀ privateState retry.receipt = some
      ⟨js "credential:" ++ retry.receipt.transactionId, privateState.credentialBlind, leaf,
        retry.receipt⟩ := by
    have hchecks : ¬(retry.receipt.action ≠ .credential ∨ retry.receipt.circuit ≠ js "addCredential" ∨
        retry.receipt.contractAddress ≠ o.registryContractAddress ∨
        retry.receipt.network ≠ js "preview") := by
      simp only [hreceipt.action, hreceipt.circuit, hreceipt.contractAddress, hreceipt.network, ne_eq,
        not_true_eq_false, or_self, not_false_eq_true]
    rw [issuedResult, if_neg hchecks, hderived, Option.map_some]
  obtain ⟨hleaves, hanswer⟩ := served_issued hsound hidle (entry_of_fresh hsound hidle hfresh) hfresh hid
    hcall hencodes (haccepts.mpr rfl) (leafWitness_isSome hdeployed hfirst ⟨_, hencodes⟩) hresult
    hreceipt.serializable
  exact ⟨t, _, rfl, hleaves, hanswer, hresult, hregistry⟩

/-- A request that is answered without a record of its enrollment has the material of the claim. -/
theorem material_of_answer (hsound : Sound o Q w) (hidle : Idle w) (hfresh : Fresh o w request)
    (hstored : Claimed o w request₀)
    (hauthorization : request.evidenceAuthorization = request₀.evidenceAuthorization)
    (hid : request.enrollmentId = request₀.enrollmentId) {blind : Bytes32} {receipt : CanonicalReceipt}
    {result : IssuanceResult}
    (hanswer : (served o w request blind receipt).memory.answer request = some result) :
    digest o.sha256 "material" (requestFingerprint request₀) = digest o.sha256 "material" (requestFingerprint request) := by
  obtain ⟨call, hcall, haccepts⟩ := claim_of_claimed hsound.stored.evidence hstored hauthorization hid
  have hne : request.enrollmentId ≠ [] := by
    obtain ⟨_, hid, _⟩ := claimCall?_eq hcall
    exact hid ▸ call.enrollment_ne
  have hentry := entry_of_fresh hsound hidle hfresh
  cases hencodes : privateStateFor o.dateParse request o.issuerSecret blind with
  | none =>
    rw [served_not_encoded hsound hidle hentry hfresh hne hencodes] at hanswer
    cases hanswer
  | some privateState =>
    cases hclaim : (w.evidence.claim o.sha256 call).1 with
    | true => exact haccepts.mp hclaim
    | false =>
      rw [served_refused hsound hidle hentry hfresh hne hcall hencodes hclaim] at hanswer
      cases hanswer

/-- An idle issuer answers a request whose enrollment has the record of the claimed request. -/
theorem served_of_record (hsound : Sound o Q w) (hidle : Idle w) (hQ : ∀ r, Q r → P r)
    (hcollision : NoCollision o P own) (hr : own request) (hid : request.enrollmentId ≠ [])
    {issuance : CredentialIssuanceRecord}
    (hget : w.records.get? (enrollmentKey o request) = some issuance) (blind : Bytes32)
    (receipt : CanonicalReceipt) :
    (served o w request blind receipt).leaves = w.leaves ∧
      (served o w request blind receipt).memory.answer request =
        if issuance.fingerprintHash = fingerprintHash o request then some issuance.result else none := by
  refine served_recorded hsound hidle hget (fun entry hentry hhash ↦ ?_) hid
  obtain ⟨r, hr', _, hfingerprint⟩ := hsound.entries _ _ hentry
  rw [hfingerprint] at hhash ⊢
  exact requestFingerprint_of_bytes (hcollision.issuance r request (hQ r hr') hr (digest_eq_iff.mp hhash))

section Main

variable (hdeployed : Deployed o a registry) (hinterrupted : Interrupted o a es record evidence first request₀)
  (hcollision : NoCollision o
    (fun r ↦ .issueCredential r ∈ es ∨ issuanceRequest a record evidence retry.issuedAt = some r)
    fun r ↦ r = request₀ ∨ issuanceRequest a record evidence retry.issuedAt = some r)
  (hwindow : retry.checkedAt < record.expiresAt) (hreceipt : Canonical o retry.receipt)

include hinterrupted hcollision hwindow in
/-- A poll that completes is in the second of the claim, and it has found every leaf recorded. -/
theorem repeatable_of_completes (hdeployed : Deployed o a registry) (hreceipt : Canonical o retry.receipt)
    (h : Completes o a registry (run (step o) ({} : World) es) record evidence retry) :
    retry.issuedAt / 1000 = first / 1000 ∧
      ∀ t ∈ (run (step o) ({} : World) es).leaves, t.request.enrollmentId = record.enrollmentId →
        HasRecord o registry (run (step o) ({} : World) es) t := by
  have hsound := sound_run (o := o) es
  obtain ⟨hpending, ⟨bytes, hhexadecimal⟩, hfirst, hcalled, hstored, hown, hidle⟩ := hinterrupted
  generalize run (step o) ({} : World) es = w at hsound hstored hidle h ⊢
  obtain ⟨request, result, hrequest, hanswer, hleaf⟩ := answer_of_issued hpending hwindow h.issued
  have honce := h.once
  rw [Retry.world_of_request hrequest, hleaf] at honce
  have hid : request.enrollmentId = record.enrollmentId ∧
      request.evidenceAuthorization = evidence.evidenceAuthorization := by
    obtain ⟨_, _, _, _, _, _, rfl⟩ := issuanceRequest_eq hrequest
    exact ⟨rfl, rfl⟩
  have hid₀ : request₀.enrollmentId = record.enrollmentId ∧
      request₀.evidenceAuthorization = evidence.evidenceAuthorization := by
    obtain ⟨_, _, _, _, _, _, rfl⟩ := issuanceRequest_eq hfirst
    exact ⟨rfl, rfl⟩
  have hkey : enrollmentKey o request = enrollmentKey o request₀ := by
    rw [enrollmentKey, enrollmentKey, hid.1, hid₀.1]
  have hne : request.enrollmentId ≠ [] := by
    obtain ⟨call, hcall, _⟩ := hstored.claimed
    obtain ⟨_, hcallId, _⟩ := claimCall?_eq hcall
    rw [hid.1, ← hid₀.1, ← hcallId]
    exact call.enrollment_ne
  cases hget : w.records.get? (enrollmentKey o request) with
  | some issuance =>
    obtain ⟨_, hserved⟩ := served_of_record hsound hidle (fun _ h ↦ Or.inl h) hcollision (Or.inr hrequest)
      hne hget retry.blind retry.receipt
    rw [hserved] at hanswer
    obtain ⟨hissuance, _⟩ := issued_of_record hsound (fun _ h ↦ Or.inl h) hcollision (Or.inl rfl) hhexadecimal hown
      hfirst hstored.claimed (hkey ▸ hget)
    split at hanswer
    · next hhash =>
      obtain rfl := Option.some.inj hanswer
      rw [hissuance] at hhash
      have hfingerprint := requestFingerprint_of_bytes
        (hcollision.issuance request₀ request (Or.inl hcalled) (Or.inr hrequest) (digest_eq_iff.mp hhash))
      refine ⟨(second_of_requestFingerprint hfirst hrequest hfingerprint).symm, fun t ht htid ↦ ?_⟩
      refine ⟨issuance, ?_, (honce t ht htid).2⟩
      rw [enrollmentKey, htid, ← hid.1]
      exact hget
    · cases hanswer
  | none =>
    have hmaterial := material_of_answer hsound hidle hget hstored.claimed (hid.2.trans hid₀.2.symm)
      (hid.1.trans hid₀.1.symm) hanswer
    have hfingerprint := requestFingerprint_of_bytes
      (hcollision.material request₀ request (Or.inl hcalled) (Or.inr hrequest) (digest_eq_iff.mp hmaterial))
    have hsecond := (second_of_requestFingerprint hfirst hrequest hfingerprint).symm
    refine ⟨hsecond, fun t ht htid ↦ ?_⟩
    -- A leaf of the enrollment excludes the new one that the issuer adds.
    obtain rfl : request = request₀ := by
      rw [issuanceRequest_congr hsecond] at hrequest
      exact Option.some.inj (hrequest.symm.trans hfirst)
    obtain ⟨t', _, _, hleaves, _⟩ := served_fresh hdeployed hsound hidle hget hfirst hstored hreceipt
    have hlength := congrArg List.length (honce t ht htid).1
    rw [hleaves, List.length_append, List.length_singleton] at hlength
    omega

include hinterrupted hcollision hwindow hdeployed hreceipt in
/-- A poll in the second of the claim completes if every leaf is recorded. -/
theorem completes_of_repeatable (hsecond : retry.issuedAt / 1000 = first / 1000)
    (hrecorded : ∀ t ∈ (run (step o) ({} : World) es).leaves,
      t.request.enrollmentId = record.enrollmentId →
        HasRecord o registry (run (step o) ({} : World) es) t) :
    Completes o a registry (run (step o) ({} : World) es) record evidence retry := by
  have hsound := sound_run (o := o) es
  obtain ⟨hpending, ⟨bytes, hhexadecimal⟩, hfirst, hcalled, hstored, hown, hidle⟩ := hinterrupted
  generalize run (step o) ({} : World) es = w at hsound hstored hidle hrecorded ⊢
  have hrequest : issuanceRequest a record evidence retry.issuedAt = some request₀ := by
    rw [issuanceRequest_congr hsecond]
    exact hfirst
  have hid : request₀.enrollmentId = record.enrollmentId ∧ request₀.holderBinding = record.holderBinding := by
    obtain ⟨_, _, _, _, _, _, rfl⟩ := issuanceRequest_eq hfirst
    exact ⟨rfl, rfl⟩
  have hne : request₀.enrollmentId ≠ [] := by
    obtain ⟨call, hcall, _⟩ := hstored.claimed
    obtain ⟨_, hcallId, _⟩ := claimCall?_eq hcall
    exact hcallId ▸ call.enrollment_ne
  have hworld := Retry.world_of_request (o := o) (w := w) hrequest
  -- It is enough to find the issuance and its leaf.
  have hcompletes : ∀ (t : Transaction) (result : IssuanceResult) (receipt : CanonicalReceipt),
      (served o w request₀ retry.blind retry.receipt).memory.answer request₀ = some result →
      issuedResult o request₀ t.privateState receipt = some result →
      t ∈ (served o w request₀ retry.blind retry.receipt).leaves →
      registryLeaf o registry t = some result.credentialLeaf →
      (∀ t' ∈ w.leaves, t'.request.enrollmentId = record.enrollmentId →
        (served o w request₀ retry.blind retry.receipt).leaves = w.leaves ∧
          registryLeaf o registry t' = some result.credentialLeaf) →
      Completes o a registry w record evidence retry := by
    intro t result receipt hanswer hissued ht hleaf honce
    have hrecord := record_of_answer hpending hwindow hrequest hissued hanswer
    obtain ⟨_, hderived, hblind⟩ := validateIssuance_of_issued hissued
    rw [hid.2] at hderived
    constructor
    · rw [hrecord]
      rfl
    · rw [hrecord, hworld]
      exact ⟨_, _, _, rfl, rfl, rfl, hblind ▸ hderived, t, ht, hleaf⟩
    · intro t' ht' hid'
      rw [hrecord, hworld]
      exact honce t' ht' hid'
  cases hget : w.records.get? (enrollmentKey o request₀) with
  | some issuance =>
    obtain ⟨hleaves, hserved⟩ := served_of_record hsound hidle (fun _ h ↦ Or.inl h) hcollision
      (Or.inl rfl) hne hget retry.blind retry.receipt
    obtain ⟨hissuance, t, ht, htr, receipt, hissued⟩ := issued_of_record hsound (fun _ h ↦ Or.inl h)
      hcollision (Or.inl rfl) hhexadecimal hown hfirst hstored.claimed hget
    have hhash : issuance.fingerprintHash = fingerprintHash o request₀ := by
      rw [hissuance]
      rfl
    rw [if_pos hhash] at hserved
    have hrecorded' : ∀ t' ∈ w.leaves, t'.request.enrollmentId = record.enrollmentId →
        registryLeaf o registry t' = some issuance.result.credentialLeaf := by
      intro t' ht' hid'
      obtain ⟨issuance', hget', hleaf⟩ := hrecorded t' ht' hid'
      rw [enrollmentKey, hid', ← hid.1] at hget'
      obtain rfl := Option.some.inj (hget.symm.trans hget')
      exact hleaf
    refine hcompletes t issuance.result receipt hserved hissued (hleaves ▸ ht) ?_ ?_
    · exact hrecorded' t ht (htr ▸ hid.1)
    · exact fun t' ht' hid' ↦ ⟨hleaves, hrecorded' t' ht' hid'⟩
  | none =>
    obtain ⟨t, result, _, hleaves, hanswer, hissued, hleaf⟩ :=
      served_fresh hdeployed hsound hidle hget hfirst hstored hreceipt
    refine hcompletes t result retry.receipt hanswer hissued ?_ hleaf fun t' ht' hid' ↦ ?_
    · rw [hleaves]
      exact List.mem_append_right _ (List.mem_singleton.mpr rfl)
    · obtain ⟨issuance, hget', _⟩ := hrecorded t' ht' hid'
      rw [enrollmentKey, hid', ← hid.1] at hget'
      cases hget.symm.trans hget'

/-- With a verifier, an issuer and a chain that work, a later poll of an enrollment whose claim is stored
ends with its credential if and only if its claims begin in the second of the claimed ones and every leaf
of the enrollment has its issuance record. -/
theorem retried_enrollment_completes_iff (hdeployed : Deployed o a registry)
    (hinterrupted : Interrupted o a es record evidence first request₀)
    (hcollision : NoCollision o
      (fun r ↦ .issueCredential r ∈ es ∨ issuanceRequest a record evidence retry.issuedAt = some r)
      fun r ↦ r = request₀ ∨ issuanceRequest a record evidence retry.issuedAt = some r)
    (hwindow : retry.checkedAt < record.expiresAt) (hreceipt : Canonical o retry.receipt) :
    Completes o a registry (run (step o) ({} : World) es) record evidence retry ↔
      retry.issuedAt / 1000 = first / 1000 ∧
        ∀ t ∈ (run (step o) ({} : World) es).leaves, t.request.enrollmentId = record.enrollmentId →
          HasRecord o registry (run (step o) ({} : World) es) t := by
  constructor
  · exact repeatable_of_completes hinterrupted hcollision hwindow hdeployed hreceipt
  · rintro ⟨hsecond, hrecorded⟩
    exact completes_of_repeatable hdeployed hinterrupted hcollision hwindow hreceipt hsecond hrecorded

end Main

end Completes

/-! ## Sample enrollments -/

/-- A hash that depends on every byte. -/
def checksum (bytes : List UInt8) : Bytes32 :=
  let sum := bytes.foldl (fun n b ↦ (n * 131 + b.toNat) % 65521) 0
  ⟨(List.replicate 30 0 ++ [(sum / 256).toUInt8, (sum % 256).toUInt8]).toArray, by simp⟩

def sampleIssuer : CredentialIssuerServiceOptions ℕ :=
  { sampleOptions with sha256 := checksum, dateParse := parseISOString }

def sampleAdapter : AdapterOptions where
  issuerId := js "cico"
  credentialEpoch := 1
  countryMapper := {
    fromAlpha3 := fun alpha3 ↦ if alpha3 = js "DEU" then some (js "276") else none
    toAlpha3 := fun numeric ↦ if numeric = js "276" then some (js "DEU") else none }
  uniquenessTimestampUpperBoundUnixSeconds := 0

def sampleRegistry : CredentialRegistryV1.Sealed Bytes32 where
  registryId := emptyBytes
  issuerId := (padBytes32 (js "cico")).getD emptyBytes
  credentialEpoch := 1
  issuerKey := emptyBytes

def sampleVerification : RarimoVerificationRequest where
  requestId := js "r1"
  eventId := js "17"
  eventData := js "0x05"
  eventDataDecimal := js "5"
  selector := js "49697"
  citizenshipMask := none
  birthDateLowerBound := defaultDateHex
  birthDateUpperBound := js "0x303830313031"
  identityCounterLowerBound := js "0"
  identityCounterUpperBound := js "1"
  expirationDateLowerBound := js "0x323630313031"
  expirationDateUpperBound := defaultDateHex
  timestampLowerBound := js "0"
  timestampUpperBound := js "1"

/-- A pending enrollment. -/
def sampleEnrollment : RarimoEnrollmentRecord where
  enrollmentId := js "e1"
  requestId := js "r1"
  userIdHash := js "u1"
  holderSecret := Vector.replicate 32 7
  holderBlind := Vector.replicate 32 8
  holderBinding := Vector.replicate 32 9
  createdAt := 1767225500000
  expiresAt := 1767226100000
  request := sampleVerification
  policy := none
  status := .pending
  updatedAt := 1767225500000

def sampleEvidence : RarimoVerifiedEvidence where
  requestId := js "r1"
  userIdHash := js "u1"
  evidenceAuthorization := js "a1"
  evidenceFingerprint := digest checksum "evidence" []
  eventId := js "17"
  eventDataDecimal := js "5"
  selector := js "49697"
  timestampUpperBound := js "1"
  identityCounterUpperBound := js "1"
  birthDateUpperBound := (hexToDecimal (js "0x303830313031")).getD []
  expirationDateLowerBound := (hexToDecimal (js "0x323630313031")).getD []
  citizenshipAlpha3 := js "DEU"
  adultPredicateSatisfied := true

/-- The request of the enrollment in the second in which its validity begins. -/
def enrolled (validFrom validUntil : JsString) : IssuanceRequest where
  enrollmentId := js "e1"
  provider := .rarimo
  evidenceAuthorization := js "a1"
  holderBinding := Vector.replicate 32 9
  claims := {
    issuerId := js "cico"
    country := js "276"
    ageClass := .adult
    assurance := .documentNfc
    credentialEpoch := 1
    validFrom
    validUntil }

def firstRequest : IssuanceRequest :=
  enrolled (js "2026-01-01T00:00:00.000Z") (js "2026-01-02T00:00:00.000Z")

def secondRequest : IssuanceRequest :=
  enrolled (js "2026-01-01T00:00:01.000Z") (js "2026-01-02T00:00:01.000Z")

/-- A call that claims the authorization of the enrollment, and what happens to it. -/
def firstCall (outcome : List Event) : List Event :=
  [.issueCredential firstRequest, .begin, .got, .validated true (Vector.replicate 32 1), .claimed] ++ outcome

/-- The contract cannot be joined after the claim. -/
def joinFails : List Event := [.fails false]

/-- The credential is issued, but the browser does not get the response. -/
def responseLost : List Event := [.joined, .accept 0, .receipt sampleReceipt, .stored]

/-- A later poll at a moment. -/
def sampleRetry (now : ℤ) : Retry where
  checkedAt := now
  issuedAt := now
  endedAt := now
  blind := Vector.replicate 32 2
  receipt := sampleReceipt
  deleted := true

theorem deployed_sample : Deployed sampleIssuer sampleAdapter sampleRegistry where
  issuerId := by decide +kernel
  credentialEpoch := by decide
  dateParse _ _ htext := parseISOString_toISOString htext

theorem canonical_sample : Canonical sampleIssuer sampleReceipt where
  action := rfl
  circuit := rfl
  contractAddress := rfl
  network := rfl
  serializable := by decide +kernel

theorem issuanceRequest_firstRequest :
    issuanceRequest sampleAdapter sampleEnrollment sampleEvidence 1767225600000 = some firstRequest := by
  decide +kernel

/-- A hash that keeps the requests of a list apart. -/
theorem noCollision_of_list {l : List IssuanceRequest} {P own : IssuanceRequest → Prop} (hmem : ∀ r, P r → r ∈ l)
    (hown : ∀ r, own r → r ∈ l) (hid : ∀ r ∈ l, ∀ r' ∈ l, r.enrollmentId = r'.enrollmentId)
    (h : ∀ domain ∈ ["material", "issuance"], ∀ r ∈ l, ∀ r' ∈ l,
      o.sha256 (digestBytes domain (requestFingerprint r)) = o.sha256 (digestBytes domain (requestFingerprint r')) →
        requestFingerprint r = requestFingerprint r') : NoCollision o P own where
  enrollment r r' hr hr' _ := by rw [hid r (hmem r hr) r' (hown r' hr')]
  material r r' hr hr' heq := by rw [h "material" (by simp) r (hmem r hr) r' (hown r' hr') heq]
  issuance r r' hr hr' heq := by rw [h "issuance" (by simp) r (hmem r hr) r' (hown r' hr') heq]

/-- The first call makes no other request. -/
theorem eq_of_mem_firstCall {outcome : List Event} (houtcome : outcome ∈ [joinFails, responseLost])
    {r : IssuanceRequest} (h : .issueCredential r ∈ firstCall outcome) : r = firstRequest := by
  simp only [List.mem_cons, List.not_mem_nil, or_false] at houtcome
  rcases houtcome with rfl | rfl
  · simpa [firstCall, joinFails] using h
  · simpa [firstCall, responseLost] using h

theorem noCollision_sample {outcome : List Event} (houtcome : outcome ∈ [joinFails, responseLost])
    {P : IssuanceRequest → Prop} (hP : ∀ r, P r → r = firstRequest ∨ r = secondRequest) :
    NoCollision sampleIssuer (fun r ↦ .issueCredential r ∈ firstCall outcome ∨ P r)
      fun r ↦ r = firstRequest ∨ P r := by
  have hhashes : ∀ domain ∈ ["material", "issuance"], ∀ r ∈ [firstRequest, secondRequest],
      ∀ r' ∈ [firstRequest, secondRequest],
      (checksum (digestBytes domain (requestFingerprint r)) = checksum (digestBytes domain (requestFingerprint r')) →
        requestFingerprint r = requestFingerprint r') := by
    decide +kernel
  have hlist : ∀ r, r = firstRequest ∨ P r → r ∈ [firstRequest, secondRequest] := by
    intro r hr
    rw [List.mem_cons, List.mem_singleton]
    exact hr.elim Or.inl (hP r)
  apply noCollision_of_list (l := [firstRequest, secondRequest]) _ hlist _ hhashes
  · exact fun r hr ↦ hlist r (hr.imp_left (eq_of_mem_firstCall houtcome))
  · simp [firstRequest, secondRequest, enrolled]

/-- After either first call its claim is stored and no call is running, and a poll in the next second fails. -/
theorem firstCall_sample : ∀ outcome ∈ [joinFails, responseLost],
    let w := run (step sampleIssuer) ({} : World) (firstCall outcome)
    let poll := pollEnrollmentStatus sampleAdapter (deriveCredentialLeaf sampleIssuer) sampleEnrollment
      ((sampleRetry 1767225601000).answers sampleIssuer w sampleEvidence)
    ((w.evidence.authorizations.get? (digest checksum "evidence" (js "a1"))).any fun r ↦
        r.enrollmentKey = digest checksum "enrollment" (js "e1") ∧
          r.materialKey = some (digest checksum "material" (requestFingerprint firstRequest))) ∧
      (w.memory.running.isNone ∧ w.memory.queue = []) ∧
      poll.1.status = .pending ∧ poll.2 = .throws (some .issuanceFailed) := by
  decide +kernel

theorem claimed_sample {outcome : List Event} (houtcome : outcome ∈ [joinFails, responseLost]) :
    Claimed sampleIssuer (run (step sampleIssuer) ({} : World) (firstCall outcome)) firstRequest := by
  obtain ⟨r, hget, hr⟩ := (Option.any_eq_true _ _).mp (firstCall_sample outcome houtcome).1
  obtain ⟨henrollment, hkey⟩ := of_decide_eq_true hr
  obtain ⟨call, hcall⟩ : ∃ call, claimCall? firstRequest = some call :=
    ⟨_, dif_pos ⟨by decide, by decide⟩⟩
  obtain ⟨hauthorization, hid, hmaterial⟩ := claimCall?_eq hcall
  refine ⟨call, hcall, r, ?_, ?_, fun m hm ↦ ?_⟩
  · rw [hauthorization]
    exact hget
  · rw [hid]
    exact henrollment
  · obtain rfl := Option.some.inj (hmaterial.symm.trans hm)
    exact hkey

/-- The claim of the first call is stored, and the call is over. -/
theorem interrupted_sample {outcome : List Event} (houtcome : outcome ∈ [joinFails, responseLost]) :
    Interrupted sampleIssuer sampleAdapter (firstCall outcome) sampleEnrollment sampleEvidence 1767225600000
      firstRequest where
  pending := rfl
  hexadecimal := ⟨[0xE1], by decide +kernel⟩
  first := issuanceRequest_firstRequest
  called := List.mem_append_left _ List.mem_cons_self
  stored := ⟨claimed_sample houtcome, by
    exact ⟨_, Vector.replicate 32 1, rfl⟩⟩
  own r hr _ := by
    rw [eq_of_mem_firstCall houtcome hr]
    exact ⟨_, issuanceRequest_firstRequest⟩
  idle := by
    obtain ⟨hrunning, hqueue⟩ := (firstCall_sample outcome houtcome).2.1
    exact ⟨Option.isNone_iff_eq_none.mp hrunning, hqueue⟩

/-- A retry in the second of the first poll completes. -/
theorem retried_enrollment_completes_iff_sample :
    Completes sampleIssuer sampleAdapter sampleRegistry
      (run (step sampleIssuer) ({} : World) (firstCall joinFails)) sampleEnrollment sampleEvidence
      (sampleRetry 1767225600500) := by
  have hsame : ∀ r, issuanceRequest sampleAdapter sampleEnrollment sampleEvidence
      (sampleRetry 1767225600500).issuedAt = some r → r = firstRequest ∨ r = secondRequest := by
    intro r hr
    have hsecond : (sampleRetry 1767225600500).issuedAt / 1000 = 1767225600000 / 1000 := by decide
    rw [issuanceRequest_congr hsecond, issuanceRequest_firstRequest] at hr
    exact Or.inl (Option.some.inj hr).symm
  have hcollision := @noCollision_sample joinFails List.mem_cons_self _ hsame
  have hleaves : (run (step sampleIssuer) ({} : World) (firstCall joinFails)).leaves = [] := by
    decide +kernel
  have hcanonical : Canonical sampleIssuer (sampleRetry 1767225600500).receipt := canonical_sample
  refine (retried_enrollment_completes_iff deployed_sample (interrupted_sample List.mem_cons_self)
    hcollision (by decide) hcanonical).mpr ⟨by decide, fun t ht ↦ ?_⟩
  rw [hleaves] at ht
  cases ht

/-- A retry in the next second fails, both if the first call failed after its claim and if it was answered
and its response was lost. -/
theorem retry_in_the_next_second : Deployed sampleIssuer sampleAdapter sampleRegistry ∧
    Canonical sampleIssuer sampleReceipt ∧
    ∀ outcome ∈ [joinFails, responseLost],
      Interrupted sampleIssuer sampleAdapter (firstCall outcome) sampleEnrollment sampleEvidence
          1767225600000 firstRequest ∧
        ¬Completes sampleIssuer sampleAdapter sampleRegistry
          (run (step sampleIssuer) ({} : World) (firstCall outcome)) sampleEnrollment sampleEvidence
          (sampleRetry 1767225601000) ∧
        (pollEnrollmentStatus sampleAdapter (deriveCredentialLeaf sampleIssuer) sampleEnrollment
          ((sampleRetry 1767225601000).answers sampleIssuer
            (run (step sampleIssuer) ({} : World) (firstCall outcome)) sampleEvidence)).2 =
          .throws (some .issuanceFailed) := by
  refine ⟨deployed_sample, canonical_sample, fun outcome houtcome ↦ ?_⟩
  obtain ⟨hpending, hthrows⟩ := (firstCall_sample outcome houtcome).2.2
  refine ⟨interrupted_sample houtcome, fun hcompletes ↦ ?_, hthrows⟩
  cases hpending.symm.trans hcompletes.issued

end MidnightReferendum.Cico
