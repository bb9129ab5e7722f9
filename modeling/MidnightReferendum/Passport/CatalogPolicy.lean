import Mathlib.Data.List.TakeWhile
import MidnightReferendum.Passport.Catalog

/-!
# The catalog and the policy of the circuit

The catalog decides with texts and dates what the circuit decides with padded bytes and codes. The two agree on each of
the five parts of a policy.
-/

namespace MidnightReferendum.Catalog

open Js Cico RuntimeConfig ReferendumV2 Checks MidnightReferendum.Compact Merkle

/-! ## Country policies -/

/-- As many zero units. -/
def nuls (count : ℕ) : JsString := List.replicate count 0

theorem isPlain_nuls (count : ℕ) : IsPlain (nuls count) := by
  intro u hu
  rw [List.eq_of_mem_replicate hu]
  rfl

theorem encodeUtf8_nuls (count : ℕ) : encodeUtf8 (nuls count) = List.replicate count 0 := by
  induction count with
  | zero => rfl
  | succ count ih =>
    have hsplit : nuls (count + 1) = [0] ++ nuls count := rfl
    rw [hsplit, encodeUtf8_append (by decide), ih]
    rfl

theorem encodeUtf8_append_nuls (text : JsString) (count : ℕ) :
    encodeUtf8 (text ++ nuls count) = encodeUtf8 text ++ List.replicate count 0 := by
  have hhead : ∀ v ∈ (nuls count).head?, isLowSurrogate v = false := by
    intro v hv
    rw [List.eq_of_mem_replicate (List.mem_of_mem_head? hv)]
    rfl
  rw [encodeUtf8_append_of_head text hhead, encodeUtf8_nuls]

/-- Zeros at the end do not change the bytes that are read with zero beyond it. -/
theorem getD_append_zeros (encoded : List UInt8) (count i : ℕ) :
    (encoded ++ List.replicate count 0).getD i 0 = encoded.getD i 0 := by
  rw [List.getD_eq_getElem?_getD, List.getD_eq_getElem?_getD]
  by_cases hi : i < encoded.length
  · rw [List.getElem?_append_left hi]
  · rw [List.getElem?_append_right (not_lt.mp hi), List.getElem?_replicate, List.getElem?_eq_none (not_lt.mp hi)]
    split <;> rfl

theorem ofFn_getD {encoded : List UInt8} (h : encoded.length = 32) :
    (Vector.ofFn fun i : Fin 32 ↦ encoded.getD i 0).toList = encoded := by
  refine List.ext_getElem (by simp [h]) fun i hi hi' ↦ ?_
  simp [List.getD_eq_getElem?_getD, hi']

/-- A padded text is the encoding of the text with zero units at its end. -/
theorem padBytes32_eq_some {text : JsString} {bytes : Bytes32} :
    padBytes32 text = some bytes ↔ ∃ count, bytes.toList = encodeUtf8 (text ++ nuls count) := by
  unfold padBytes32
  constructor
  · intro h
    split at h
    · next hlength =>
      have hzeros : ((encodeUtf8 text) ++ List.replicate (32 - (encodeUtf8 text).length) 0).length = 32 := by
        rw [List.length_append, List.length_replicate, Nat.add_sub_cancel' hlength]
      have hbytes := ofFn_getD hzeros
      simp only [getD_append_zeros] at hbytes
      exact ⟨32 - (encodeUtf8 text).length, by rw [← Option.some.inj h, encodeUtf8_append_nuls, hbytes]⟩
    · cases h
  · rintro ⟨count, hbytes⟩
    rw [encodeUtf8_append_nuls] at hbytes
    have hlength : (encodeUtf8 text ++ List.replicate count 0).length = 32 := by
      rw [← hbytes]
      exact bytes.size_toArray
    have hsame := ofFn_getD hlength
    simp only [getD_append_zeros] at hsame
    rw [← hbytes, Vector.toList_inj] at hsame
    rw [List.length_append] at hlength
    rw [if_pos (by omega), hsame]

/-- The units that are not zero at the end. -/
theorem withoutNuls_append (text : JsString) : ∃ count, text = withoutNuls text ++ nuls count := by
  have hall : ∀ u ∈ text.reverse.takeWhile (· == 0), u = 0 := fun u hu ↦ by
    simpa using List.mem_takeWhile_imp hu
  have hzeros := List.eq_replicate_of_mem hall
  refine ⟨(text.reverse.takeWhile (· == 0)).length, ?_⟩
  calc
    text = (text.reverse.takeWhile (· == 0) ++ text.reverse.dropWhile (· == 0)).reverse := by
      rw [List.takeWhile_append_dropWhile, List.reverse_reverse]
    _ = withoutNuls text ++ (text.reverse.takeWhile (· == 0)).reverse := List.reverse_append
    _ = withoutNuls text ++ nuls (text.reverse.takeWhile (· == 0)).length := by
      rw [hzeros, List.reverse_replicate, List.length_replicate]
      rfl

theorem withoutNuls_append_nuls {text : JsString} (h : ∀ u ∈ text, u ≠ 0) (count : ℕ) :
    withoutNuls (text ++ nuls count) = text := by
  have hnuls : ∀ u ∈ nuls count, (u == 0) = true := by
    intro u hu
    rw [List.eq_of_mem_replicate hu]
    rfl
  have htext : text.reverse.dropWhile (· == 0) = text.reverse := by
    cases hreverse : text.reverse with
    | nil => rfl
    | cons u rest =>
      have hu : u ∈ text := List.mem_reverse.mp (hreverse ▸ List.mem_cons_self)
      rw [List.dropWhile_cons_of_neg (by simpa using h u hu)]
  have hreverse : (nuls count).reverse = nuls count := List.reverse_replicate
  rw [withoutNuls, List.reverse_append, hreverse, List.dropWhile_append_of_pos hnuls, htext, List.reverse_reverse]

theorem isPlain_of_isCountryCode {country : JsString} (h : isCountryCode country) : IsPlain country := by
  rw [isCountryCode, Bool.and_eq_true, List.all_eq_true] at h
  exact isPlain_of_digits h.2

/-- The encoding of a text that is trimmed does not begin with a byte order mark. -/
theorem no_mark {raw : JsString} (hraw : trimmed raw ≠ []) (count : ℕ) :
    (encodeUtf8 (trimmed raw ++ nuls count)).take 3 ≠ [0xEF, 0xBB, 0xBF] := by
  intro hmark
  cases htext : trimmed raw with
  | nil => exact hraw htext
  | cons u rest =>
    have hdecode := decodeUtf8_encodeUtf8_eq (trimmed raw ++ nuls count)
    rw [← List.take_append_drop 3 (encodeUtf8 _), hmark, decodeUtf8_append_mark, htext] at hdecode
    have hspace := isSpace_of_trimmed htext
    obtain hu | hu := head_toWellFormed hdecode.symm
    · rw [← hu] at hspace
      exact absurd hspace (by decide)
    · exact absurd hu (by decide)

/-- The code of a country policy is a country exactly if the policy is the padded code of the country. -/
theorem policyCode_iff {raw country : JsString} {bytes : Bytes32} (hraw : trimmed raw ≠ [])
    (hbytes : padBytes32 (trimmed raw) = some bytes) (hcountry : isCountryCode country) :
    withoutNuls (textDecode bytes.toList) = country ↔ padBytes32 country = some bytes := by
  have hplain := isPlain_of_isCountryCode hcountry
  constructor
  · intro hcode
    obtain ⟨count, hcount⟩ := padBytes32_eq_some.mp hbytes
    rw [textDecode, hcount, if_neg (no_mark hraw count), decodeUtf8_encodeUtf8_eq] at hcode
    obtain ⟨zeros, hzeros⟩ := withoutNuls_append (toWellFormed (trimmed raw ++ nuls count))
    rw [hcode] at hzeros
    exact padBytes32_eq_some.mpr ⟨zeros, by rw [hcount, ← encodeUtf8_toWellFormed, hzeros]⟩
  · intro hpad
    obtain ⟨count, hcount⟩ := padBytes32_eq_some.mp hpad
    have hwell : isWellFormed (country ++ nuls count) :=
      isWellFormed_append (isWellFormed_of_plain hplain) (isWellFormed_of_plain (isPlain_nuls count))
    have hmark : (encodeUtf8 (country ++ nuls count)).take 3 ≠ [0xEF, 0xBB, 0xBF] := by
      obtain ⟨count', hcount'⟩ := padBytes32_eq_some.mp hbytes
      rw [← hcount, hcount']
      exact no_mark hraw count'
    rw [textDecode, hcount, if_neg hmark, decodeUtf8_encodeUtf8 hwell]
    refine withoutNuls_append_nuls (fun u hu hzero ↦ ?_) count
    rw [isCountryCode, Bool.and_eq_true, List.all_eq_true] at hcountry
    exact absurd (hcountry.2 u hu) (hzero ▸ by decide)

/-! ## Accepted configurations -/

variable {persistentHash : List Bytes32 → Bytes32} {dates : DateParser}

/-- The country policy is padded from a text that is not blank. -/
def HasTextPolicy (policy : ReferendumV2ExecutorConfig) : Prop :=
  policy.countryPolicyEnabled = true → ∃ raw, trimmed raw ≠ [] ∧ padBytes32 (trimmed raw) = some policy.countryPolicy

theorem trimmed_of_nonEmptyString {value : Option Json} {label : String} {text : JsString}
    (h : nonEmptyString value label = .ok text) : ∃ raw, trimmed raw ≠ [] ∧ trimmed raw = text := by
  unfold nonEmptyString at h
  split at h
  · next raw =>
    split at h
    · cases h
    · next hraw => exact ⟨raw, hraw, Except.ok.inj h⟩
  · cases h

theorem text_of_parseCountryPolicy {value : Option Json} {index : ℕ} {bytes : Bytes32}
    (h : parseCountryPolicy value index = .ok bytes) (henabled : isEnabled value = true) :
    ∃ raw, trimmed raw ≠ [] ∧ padBytes32 (trimmed raw) = some bytes := by
  unfold parseCountryPolicy at h
  split at h
  · cases henabled
  · obtain ⟨text, htext, hpadded⟩ := bind_eq_ok.mp h
    obtain ⟨raw, hraw, rfl⟩ := trimmed_of_nonEmptyString htext
    refine ⟨raw, hraw, ?_⟩
    unfold paddedBytes32 at hpadded
    split at hpadded
    · next bytes' hbytes => rw [hbytes, Except.ok.inj hpadded]
    · cases hpadded

theorem hasTextPolicy_of_parseReferendum {value : Json} {index : ℕ} {registry : FrozenCredentialRegistryReference}
    {network : RuntimeNetwork} {entry : PassportV2RuntimeReferendum}
    (h : parseReferendum dates value index registry network = .ok entry) : HasTextPolicy entry.config := by
  unfold parseReferendum at h
  split at h
  · cases h
  next fields hfields =>
  obtain ⟨referendumId, -, h⟩ := bind_eq_ok.mp h
  obtain ⟨contractAddress, -, h⟩ := bind_eq_ok.mp h
  obtain ⟨countryPolicy, hpolicy, h⟩ := bind_eq_ok.mp h
  obtain ⟨minimumAssurance, -, h⟩ := bind_eq_ok.mp h
  obtain ⟨requireAdult, -, h⟩ := bind_eq_ok.mp h
  obtain ⟨-, -, h⟩ := bind_eq_ok.mp h
  obtain ⟨title, -, h⟩ := bind_eq_ok.mp h
  obtain ⟨question, -, h⟩ := bind_eq_ok.mp h
  obtain ⟨eventId, -, h⟩ := bind_eq_ok.mp h
  obtain ⟨organizerKey, -, h⟩ := bind_eq_ok.mp h
  obtain ⟨rootPublisherKey, -, h⟩ := bind_eq_ok.mp h
  obtain ⟨opensAtUnix, -, h⟩ := bind_eq_ok.mp h
  obtain ⟨enrollmentClosesAtUnix, -, h⟩ := bind_eq_ok.mp h
  obtain ⟨closesAtUnix, -, h⟩ := bind_eq_ok.mp h
  obtain ⟨revealClosesAtUnix, -, h⟩ := bind_eq_ok.mp h
  obtain ⟨validityReference, -, h⟩ := bind_eq_ok.mp h
  rw [← Except.ok.inj h]
  exact text_of_parseCountryPolicy hpolicy

theorem hasTextPolicy_of_parseReferenda {registry : FrozenCredentialRegistryReference} {network : RuntimeNetwork}
    {wire : List Json} {index : ℕ} {entries : List PassportV2RuntimeReferendum}
    (h : parseReferenda dates registry network index wire = .ok entries) :
    ∀ entry ∈ entries, HasTextPolicy entry.config := by
  induction wire generalizing index entries with
  | nil =>
    rw [← Except.ok.inj h]
    exact fun entry hentry ↦ nomatch hentry
  | cons value rest ih =>
    obtain ⟨entry, hentry, h⟩ := bind_eq_ok.mp h
    obtain ⟨entries', hentries, h⟩ := bind_eq_ok.mp h
    rw [← Except.ok.inj h]
    intro other hother
    obtain rfl | hrest := List.mem_cons.mp hother
    · exact hasTextPolicy_of_parseReferendum hentry
    · exact ih hentries other hrest

/-- So is the country policy of every referendum of an accepted configuration. -/
theorem hasTextPolicy_of_parse {env : RuntimeEnv} {config : PassportV2RuntimeConfig}
    (h : parsePassportV2RuntimeConfig persistentHash dates env = .ok (some config)) :
    ∀ entry ∈ config.referenda, HasTextPolicy entry.config := by
  unfold parsePassportV2RuntimeConfig at h
  split at h
  · cases h
  obtain ⟨network, -, h⟩ := bind_eq_ok.mp h
  obtain ⟨issuerId, -, h⟩ := bind_eq_ok.mp h
  obtain ⟨credentialEpoch, -, h⟩ := bind_eq_ok.mp h
  obtain ⟨credentialTtlMs, -, h⟩ := bind_eq_ok.mp h
  obtain ⟨-, -, h⟩ := bind_eq_ok.mp h
  obtain ⟨timestamp, -, h⟩ := bind_eq_ok.mp h
  obtain ⟨registryContractAddress, -, h⟩ := bind_eq_ok.mp h
  obtain ⟨registryContractBinding, -, h⟩ := bind_eq_ok.mp h
  obtain ⟨registryId, -, h⟩ := bind_eq_ok.mp h
  obtain ⟨registryIssuerId, -, h⟩ := bind_eq_ok.mp h
  obtain ⟨frozenRoot, -, h⟩ := bind_eq_ok.mp h
  obtain ⟨paddedIssuerId, -, h⟩ := bind_eq_ok.mp h
  obtain ⟨-, -, h⟩ := bind_eq_ok.mp h
  obtain ⟨value, -, h⟩ := bind_eq_ok.mp h
  split at h
  · cases h
  obtain ⟨-, -, h⟩ := bind_eq_ok.mp h
  obtain ⟨referenda, hreferenda, h⟩ := bind_eq_ok.mp h
  obtain ⟨-, -, h⟩ := bind_eq_ok.mp h
  rw [← Option.some.inj (Except.ok.inj h)]
  exact hasTextPolicy_of_parseReferenda hreferenda

/-! ## Agreement -/

section Agreement

variable {policy : ReferendumV2ExecutorConfig} {credential : CredentialSummary}

/-- What a source asks of a credential of an epoch. -/
structure SourceAdmits (dates : DateParser) (policy : ReferendumV2ExecutorConfig) (credential : CredentialSummary)
    (epoch : ℤ) : Prop where
  epoch : epoch = policy.registry.credentialEpoch
  validity : (validUntilSeconds dates credential.validUntil).any
    (fun seconds ↦ (policy.validityReference : ℤ) ≤ seconds) = true
  assurance : policy.minimumAssurance ≤ assuranceLevel credential.assurance
  adult : policy.requireAdult = true → credential.ageClass = .adult

theorem sourceRefusal_cases (dates : DateParser) (policy : ReferendumV2ExecutorConfig) (credential : CredentialSummary)
    (epoch : ℤ) :
    (∃ reason, sourceRefusal dates policy credential epoch = some (unavailable reason)) ∧
        ¬SourceAdmits dates policy credential epoch ∨
      sourceRefusal dates policy credential epoch = none ∧ SourceAdmits dates policy credential epoch := by
  unfold sourceRefusal
  by_cases hepoch : epoch ≠ policy.registry.credentialEpoch
  · rw [if_pos hepoch]
    refine .inl ⟨?_, fun h ↦ hepoch h.epoch⟩
    split
    · exact ⟨_, rfl⟩
    · exact ⟨_, rfl⟩
  rw [if_neg hepoch]
  split
  · next hvalid => exact .inl ⟨⟨_, rfl⟩, fun h ↦ hvalid h.validity⟩
  next hvalid =>
  split
  · next hassurance => exact .inl ⟨⟨_, rfl⟩, fun h ↦ absurd hassurance (not_lt.mpr h.assurance)⟩
  next hassurance =>
  split
  · next hadult => exact .inl ⟨⟨_, rfl⟩, fun h ↦ hadult.2 (h.adult hadult.1)⟩
  next hadult =>
  refine .inr ⟨rfl, not_not.mp hepoch, not_not.mp hvalid, not_lt.mp hassurance, fun hrequire ↦ ?_⟩
  exact not_not.mp fun hclass ↦ hadult ⟨hrequire, hclass⟩

theorem countryEligibility_available {entry : PassportV2RuntimeReferendum} {country : JsString}
    (hcountry : isCountryCode country) :
    (countryEligibility (toPassportV2CatalogItem entry) country).available = true ↔
      (entry.config.countryPolicyEnabled = true →
        withoutNuls (textDecode entry.config.countryPolicy.toList) = country) := by
  unfold countryEligibility countryPolicyCode toPassportV2CatalogItem
  simp only
  by_cases henabled : entry.config.countryPolicyEnabled = true
  · rw [if_pos henabled]
    simp only
    by_cases hcode : isCountryCode (withoutNuls (textDecode entry.config.countryPolicy.toList)) = true
    · rw [if_pos hcode]
      simp only
      by_cases hsame : withoutNuls (textDecode entry.config.countryPolicy.toList) = country
      · rw [if_neg (not_not.mpr hsame)]
        exact iff_of_true rfl fun _ ↦ hsame
      · rw [if_pos hsame]
        exact iff_of_false Bool.false_ne_true fun h ↦ hsame (h henabled)
    · rw [if_neg hcode]
      exact iff_of_false Bool.false_ne_true fun h ↦ hcode (by rw [h henabled]; exact hcountry)
  · rw [if_neg henabled]
    exact iff_of_true rfl fun h ↦ absurd h henabled

/-- The catalog offers a referendum if its source admits the credential and its country policy is the country. -/
theorem catalogEligibility_available {entry : PassportV2RuntimeReferendum} (hcountry : isCountryCode credential.country) :
    (∃ result, catalogEligibility dates (toPassportV2CatalogItem entry) (some credential) = some result ∧
        result.available = true) ↔
      ∃ epoch, JsNumber.bigint? credential.credentialEpoch = some epoch ∧
        SourceAdmits dates entry.config credential epoch ∧
          (entry.config.countryPolicyEnabled = true →
            withoutNuls (textDecode entry.config.countryPolicy.toList) = credential.country) := by
  unfold catalogEligibility
  change (∃ result, (JsNumber.bigint? credential.credentialEpoch).bind (fun epoch ↦
    some ((sourceRefusal dates entry.config credential epoch).getD _)) = some result ∧ _) ↔ _
  cases hepoch : JsNumber.bigint? credential.credentialEpoch with
  | none => exact iff_of_false (fun ⟨_, hresult, _⟩ ↦ nomatch hresult) (fun ⟨_, hnone, _⟩ ↦ nomatch hnone)
  | some epoch =>
    have hitem := @countryEligibility_available entry _ hcountry
    rw [Option.bind_some]
    obtain ⟨⟨reason, hrefused⟩, hnot⟩ | ⟨hnone, hadmits⟩ := sourceRefusal_cases dates entry.config credential epoch
    · rw [hrefused]
      refine iff_of_false (fun ⟨result, hresult, havailable⟩ ↦ ?_) (fun ⟨_, hsame, h⟩ ↦ ?_)
      · rw [← Option.some.inj hresult] at havailable
        cases havailable
      · obtain rfl := Option.some.inj hsame
        exact hnot h.1
    · rw [hnone]
      constructor
      · intro ⟨result, hresult, havailable⟩
        rw [← Option.some.inj hresult] at havailable
        exact ⟨epoch, rfl, hadmits, hitem.mp havailable⟩
      · intro ⟨_, _, h⟩
        exact ⟨_, rfl, hitem.mpr h.2⟩

/-- The last second of a validity in whole seconds, in both readings. -/
theorem seconds_of_whole {milliseconds : ℤ} (hparse : dates.parse credential.validUntil = some milliseconds)
    (hwhole : milliseconds % 1000 = 0) :
    validUntilSeconds dates credential.validUntil = some (milliseconds / 1000) ∧
      isoTimestampSeconds dates.parse credential.validUntil =
        if 0 ≤ milliseconds / 1000 then some (milliseconds / 1000) else none := by
  have hrange := abs_le.mp (dates.range _ _ hparse)
  have hsafe : |milliseconds / 1000| ≤ maxSafeInteger := by
    rw [abs_le, maxSafeInteger]
    omega
  rw [validUntilSeconds, isoTimestampSeconds, hparse, Option.bind_some, Option.bind_some, if_pos hsafe]
  refine ⟨rfl, ?_⟩
  simp only [hwhole, true_and]

/-- A digit has one byte. -/
theorem length_encodeUtf8_digits {text : JsString} (h : AllDigits text) : (encodeUtf8 text).length = text.length := by
  induction text with
  | nil => rfl
  | cons u text ih =>
    have hplain : isSurrogate u = false := isPlain_of_digits h u List.mem_cons_self
    have hdigit := h u List.mem_cons_self
    rw [isDecimalDigit, Bool.and_eq_true, decide_eq_true_eq, decide_eq_true_eq] at hdigit
    have hascii : u.toNat < 0x80 := lt_of_le_of_lt hdigit.2 (by decide)
    have hone : (utf8Bytes u.toNat).length = 1 := by
      rw [utf8Bytes, utf8, if_pos hascii]
      rfl
    rw [← List.singleton_append, encodeUtf8_append (isWellFormed_singleton hplain), List.length_append,
      encodeUtf8_singleton hplain, hone, ih fun v hv ↦ h v (List.mem_cons_of_mem u hv), List.length_append]
    rfl

theorem padBytes32_country {country : JsString} (hcountry : isCountryCode country) :
    ∃ bytes, padBytes32 country = some bytes := by
  rw [isCountryCode, Bool.and_eq_true, beq_iff_eq, List.all_eq_true] at hcountry
  have hlength : (encodeUtf8 country).length ≤ 32 := by
    rw [length_encodeUtf8_digits hcountry.2, hcountry.1]
    decide
  exact ⟨_, if_pos hlength⟩

variable {D : Type} {cfg : Sealed Bytes32 D}

theorem toUInt64_eq_iff {value : ℤ} (h : IsUint64 value) {word : UInt64} :
    value.toNat.toUInt64 = word ↔ value = word.toNat := by
  have hlt : value.toNat < 2 ^ 64 := by
    have hhigh := h.2
    omega
  have hword : value.toNat.toUInt64.toNat = value.toNat := UInt64.toNat_ofNat_of_lt hlt
  have hlow := h.1
  rw [← UInt64.toNat_inj, hword]
  omega

theorem le_toUInt64_iff {value : ℤ} (h : IsUint64 value) {word : UInt64} :
    word ≤ value.toNat.toUInt64 ↔ (word.toNat : ℤ) ≤ value := by
  have hlt : value.toNat < 2 ^ 64 := by
    have hhigh := h.2
    omega
  have hword : value.toNat.toUInt64.toNat = value.toNat := UInt64.toNat_ofNat_of_lt hlt
  have hlow := h.1
  rw [UInt64.le_iff_toNat_le, hword]
  omega

theorem ageClassCode_eq_two {ageClass : CredentialAgeClass} : (ageClassCode ageClass).toUInt8 = 2 ↔ ageClass = .adult := by
  cases ageClass <;> decide

theorem assuranceCode_le_iff {assurance : CredentialAssurance} {minimum : UInt8} :
    (0 < minimum → minimum ≤ (assuranceCode assurance).toUInt8) ↔ minimum.toNat ≤ assuranceLevel assurance := by
  have hcode : (assuranceCode assurance).toUInt8.toNat = assuranceLevel assurance := by
    cases assurance <;> rfl
  rw [UInt8.lt_iff_toNat_lt, UInt8.le_iff_toNat_le, hcode]
  constructor
  · intro h
    by_cases hzero : minimum.toNat = 0
    · rw [hzero]
      exact Nat.zero_le _
    · exact h (Nat.pos_of_ne_zero hzero)
  · exact fun h _ ↦ h

/-- The witness values of a credential pass the policy checks if the source admits it and its padded country is the
policy. -/
theorem witness_passes_iff (hcfg : DeployedWith cfg policy) {material : CivicCredentialPrivateMaterial}
    {voterPath : Path Bytes32 D 16} {choice : Choice} {voteSalt : Bytes32} {milliseconds : ℤ}
    (hcountry : isCountryCode material.claims.country)
    (hparse : dates.parse material.claims.validUntil = some milliseconds) (hwhole : milliseconds % 1000 = 0) :
    (∃ w, (buildReferendumV2VoterPrivateState dates material voterPath choice voteSalt).bind castVoteWitness = some w ∧
        PassesPolicy cfg w) ↔
      ∃ epoch, JsNumber.bigint? material.claims.credentialEpoch = some epoch ∧
        SourceAdmits dates policy material.claims epoch ∧
          (policy.countryPolicyEnabled = true → padBytes32 material.claims.country = some policy.countryPolicy) := by
  obtain ⟨country, hpad⟩ := padBytes32_country hcountry
  obtain ⟨hvalid, hiso⟩ := seconds_of_whole hparse hwhole
  have hrange := abs_le.mp (dates.range _ _ hparse)
  have hreference : (0 : ℤ) ≤ policy.validityReference := Int.natCast_nonneg _
  have hvalidity : (validUntilSeconds dates material.claims.validUntil).any
      (fun seconds ↦ (policy.validityReference : ℤ) ≤ seconds) = true ↔
        (policy.validityReference : ℤ) ≤ milliseconds / 1000 := by
    rw [hvalid]
    exact decide_eq_true_iff
  unfold buildReferendumV2VoterPrivateState
  simp only [Option.bind_eq_bind, Option.pure_def]
  rw [hpad, hiso, Option.bind_some]
  cases hepoch : JsNumber.bigint? material.claims.credentialEpoch with
  | none => exact iff_of_false (fun ⟨_, hw, _⟩ ↦ nomatch hw) (fun ⟨_, hnone, _⟩ ↦ nomatch hnone)
  | some epoch =>
    rw [Option.bind_some]
    by_cases hnegative : 0 ≤ milliseconds / 1000
    · rw [if_pos hnegative, Option.bind_some]
      have hseconds : IsUint64 (milliseconds / 1000) := ⟨hnegative, by omega⟩
      by_cases hword : IsUint64 epoch
      · constructor
        · intro ⟨w, hw, h⟩
          rw [Option.bind_some, castVoteWitness, if_pos ⟨hword, hseconds⟩] at hw
          rw [← Option.some.inj hw] at h
          refine ⟨epoch, rfl, ⟨?_, ?_, ?_, ?_⟩, ?_⟩
          · rw [← hcfg.credentialEpoch]
            exact (toUInt64_eq_iff hword).mp h.epoch
          · rw [hvalidity, ← hcfg.validityReference]
            exact (le_toUInt64_iff hseconds).mp h.validity
          · rw [← hcfg.minimumAssurance]
            exact assuranceCode_le_iff.mp h.assurance
          · rw [← hcfg.requireAdult]
            exact fun hadult ↦ ageClassCode_eq_two.mp (h.adult hadult)
          · rw [← hcfg.countryPolicyEnabled, ← hcfg.countryPolicy]
            exact fun henabled ↦ congrArg some (h.country henabled)
        · intro ⟨_, hsame, hadmits, hpolicy⟩
          obtain rfl := Option.some.inj hsame
          refine ⟨_, if_pos ⟨hword, hseconds⟩, ?_, ?_, ?_, ?_, ?_⟩
          · refine (toUInt64_eq_iff hword).mpr ?_
            rw [hcfg.credentialEpoch]
            exact hadmits.epoch
          · refine (le_toUInt64_iff hseconds).mpr ?_
            rw [hcfg.validityReference]
            exact hvalidity.mp hadmits.validity
          · rw [hcfg.countryPolicyEnabled, hcfg.countryPolicy]
            exact fun henabled ↦ Option.some.inj (hpolicy henabled)
          · rw [hcfg.requireAdult]
            exact fun hadult ↦ ageClassCode_eq_two.mpr (hadmits.adult hadult)
          · refine assuranceCode_le_iff.mpr ?_
            rw [hcfg.minimumAssurance]
            exact hadmits.assurance
      · refine iff_of_false (fun ⟨_, hw, _⟩ ↦ ?_) (fun ⟨_, hsame, hadmits, _⟩ ↦ hword ?_)
        · rw [Option.bind_some, castVoteWitness, if_neg fun h ↦ hword h.1] at hw
          cases hw
        · obtain rfl := Option.some.inj hsame
          rw [hadmits.epoch, ← hcfg.credentialEpoch]
          have hlt := cfg.credentialEpoch.toNat_lt
          exact ⟨Int.natCast_nonneg _, by omega⟩
    · rw [if_neg hnegative]
      refine iff_of_false (fun ⟨_, hw, _⟩ ↦ nomatch hw) (fun ⟨_, _, h, _⟩ ↦ ?_)
      have hle := hvalidity.mp h.validity
      omega

/-- The catalog offers exactly the votes that the policy of the circuit allows. -/
theorem catalog_offers_iff {env : RuntimeEnv} {config : PassportV2RuntimeConfig}
    (hconfig : parsePassportV2RuntimeConfig persistentHash dates env = .ok (some config))
    {entry : PassportV2RuntimeReferendum} (hentry : entry ∈ config.referenda) (hcfg : DeployedWith cfg entry.config)
    {material : CivicCredentialPrivateMaterial} (hcountry : isCountryCode material.claims.country)
    {milliseconds : ℤ} (hparse : dates.parse material.claims.validUntil = some milliseconds)
    (hwhole : milliseconds % 1000 = 0) (voterPath : Path Bytes32 D 16) (choice : Choice) (voteSalt : Bytes32) :
    (∃ result, catalogEligibility dates (toPassportV2CatalogItem entry) (some material.claims) = some result ∧
        result.available = true) ↔
      ∃ w, (buildReferendumV2VoterPrivateState dates material voterPath choice voteSalt).bind castVoteWitness = some w ∧
        PassesPolicy cfg w := by
  rw [catalogEligibility_available hcountry, witness_passes_iff hcfg hcountry hparse hwhole]
  refine exists_congr fun epoch ↦ and_congr_right fun _ ↦ and_congr_right fun _ ↦ imp_congr_right fun henabled ↦ ?_
  obtain ⟨raw, hraw, hbytes⟩ := hasTextPolicy_of_parse hconfig entry hentry henabled
  exact policyCode_iff hraw hbytes hcountry

end Agreement

/-! ## A referendum for adults of one country -/

/-- `Date.parse` on the texts that `toISOString` writes. -/
def isoDates : DateParser where
  parse text := (parseISOString text).filter fun milliseconds ↦ |milliseconds| ≤ 8640000000000000
  range _ _ h := of_decide_eq_true (Option.filter_eq_some_iff.mp h).2

/-- Thirty-two equal bytes in hexadecimal digits. -/
def sampleHex (digit : UInt16) : JsString := List.replicate 64 digit

def sampleIssuerHex : JsString := js "6369636f" ++ List.replicate 56 0x30

def sampleWire : Json :=
  .array [.object [
    (js "referendumId", .string (js "r")),
    (js "contractAddress", .string (js "c")),
    (js "title", .string (js "t")),
    (js "question", .string (js "q")),
    (js "countryPolicy", .string (js "032")),
    (js "minimumAssurance", .number (.finite 2)),
    (js "requireAdult", .bool true),
    (js "validityReference", .string (js "1700000000")),
    (js "opensAtUnix", .string (js "1")),
    (js "enrollmentClosesAtUnix", .string (js "2")),
    (js "closesAtUnix", .string (js "3")),
    (js "revealClosesAtUnix", .string (js "4")),
    (js "eventIdHex", .string (sampleHex 0x33)),
    (js "organizerKeyHex", .string (sampleHex 0x34)),
    (js "rootPublisherKeyHex", .string (sampleHex 0x35))]]

def sampleEnvironment : RuntimeEnv := (List.lookup · [
  (js "VITE_PASSPORT_V2_API_URL", js "https://cico.example"),
  (js "VITE_CICO_ISSUER_ID", js "cico"),
  (js "VITE_CICO_CREDENTIAL_EPOCH", js "7"),
  (js "VITE_CICO_CREDENTIAL_TTL_MS", js "86400000"),
  (js "VITE_RARIMO_UNIQUENESS_TIMESTAMP_UPPER_BOUND", js "1800000000"),
  (js "VITE_CICO_REGISTRY_ADDRESS", sampleHex 0x31),
  (js "VITE_CICO_REGISTRY_ID_HEX", sampleHex 0x32),
  (js "VITE_CICO_ISSUER_ID_HEX", sampleIssuerHex),
  (js "VITE_CICO_FROZEN_ROOT_FIELD", js "5"),
  (js "VITE_CICO_REFERENDA_JSON", sampleWire.stringify)])

/-- The hash of the registry address of the sample. -/
def sampleBinding : Bytes32 :=
  #v[0xd9, 0x30, 0xd2, 0x46, 0x22, 0x25, 0x99, 0xa4, 0x47, 0xf8, 0xf1, 0xe1, 0xde, 0xda, 0x43, 0xad, 0x51, 0xa9, 0x1e,
    0x6e, 0x3f, 0x8e, 0xa6, 0x5e, 0xf0, 0x60, 0xd0, 0xc8, 0xfa, 0x8f, 0x4c, 0x00]

def samplePolicy : ReferendumV2ExecutorConfig where
  registry := {
    registryContractAddress := sampleHex 0x31
    registryContractBinding := sampleBinding
    registryId := Vector.replicate 32 0x22
    issuerId := hexBytes32 sampleIssuerHex
    credentialEpoch := 7
    frozenRoot := 5 }
  eventId := Vector.replicate 32 0x33
  organizerKey := Vector.replicate 32 0x44
  rootPublisherKey := Vector.replicate 32 0x55
  opensAtUnix := 1
  enrollmentClosesAtUnix := 2
  closesAtUnix := 3
  revealClosesAtUnix := 4
  countryPolicy := (padBytes32 (js "032")).getD emptyBytes
  countryPolicyEnabled := true
  minimumAssurance := 2
  requireAdult := true
  validityReference := 1700000000
  network := .preview
  explorerBaseUrl := some (js "https://explorer.preview.midnight.network/tx")

def sampleEntry : PassportV2RuntimeReferendum where
  referendumId := js "r"
  contractAddress := js "c"
  title := js "t"
  question := js "q"
  description := none
  opened := none
  deadline := none
  opensAt := none
  closesAt := none
  eligible := none
  participation := none
  config := samplePolicy

def sampleConfig : PassportV2RuntimeConfig where
  network := .preview
  apiUrl := js "https://cico.example"
  issuerId := js "cico"
  credentialEpoch := 7
  credentialTtlMs := 86400000
  uniquenessTimestampUpperBoundUnixSeconds := 1800000000
  registry := samplePolicy.registry
  referenda := [sampleEntry]

/-- The ledger fields with which the sample is deployed. -/
def sampleSealed : Sealed Bytes32 ℕ where
  registryId := samplePolicy.registry.registryId
  issuerId := samplePolicy.registry.issuerId
  credentialEpoch := 7
  initialCredentialRoot := 5
  registryContractBinding := sampleBinding
  registryContract := Vector.replicate 32 0x11
  eventId := samplePolicy.eventId
  organizerKey := samplePolicy.organizerKey
  rootPublisherKey := samplePolicy.rootPublisherKey
  countryPolicy := samplePolicy.countryPolicy
  countryPolicyEnabled := true
  minimumAssurance := 2
  requireAdult := true
  validityReference := 1700000000
  opensAtUnix := 1
  enrollmentClosesAtUnix := 2
  closesAtUnix := 3
  revealClosesAtUnix := 4

def sampleMaterial : CivicCredentialPrivateMaterial where
  voterSecret := Vector.replicate 32 1
  holderBinding := Vector.replicate 32 2
  holderBlind := Vector.replicate 32 3
  credentialBlind := Vector.replicate 32 4
  claims := ⟨js "032", .adult, .documentNfc, .finite 7, js "2023-11-14T22:13:20.000Z"⟩

def samplePath : Path Bytes32 ℕ 16 := ⟨emptyBytes, List.replicate 16 ⟨0, true⟩, rfl⟩

theorem catalog_offers_iff_sample :
    ∃ w, (buildReferendumV2VoterPrivateState isoDates sampleMaterial samplePath .yes emptyBytes).bind castVoteWitness =
        some w ∧ PassesPolicy sampleSealed w := by
  have hconfig : parsePassportV2RuntimeConfig (fun _ ↦ sampleBinding) isoDates sampleEnvironment =
      .ok (some sampleConfig) := by decide +kernel
  have hoffered : catalogEligibility isoDates (toPassportV2CatalogItem sampleEntry) (some sampleMaterial.claims) =
      some ⟨true, none⟩ := by decide +kernel
  have hparse : isoDates.parse sampleMaterial.claims.validUntil = some 1700000000000 := by decide +kernel
  exact (catalog_offers_iff hconfig List.mem_cons_self (⟨rfl, rfl, rfl, rfl, rfl, rfl⟩ : DeployedWith sampleSealed _)
    (by decide) hparse (by decide) samplePath .yes emptyBytes).mp ⟨_, hoffered, rfl⟩

end MidnightReferendum.Catalog
