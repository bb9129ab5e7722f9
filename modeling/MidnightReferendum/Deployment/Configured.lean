import MidnightReferendum.Deployment.Configuration

/-!
# From the manifest to the configuration

A complete manifest configures the runtime if and only if its registry is frozen and its texts and numbers are in the ranges
of the parser, which are narrower than those of the validator.
-/

namespace MidnightReferendum.Deployment

open Js Checks Cico RuntimeConfig

/-! ## Referenda -/

/-- The names of a referendum in the environment. -/
def wireNames : List JsString :=
  ["referendumId", "contractAddress", "registryContractBindingHex", "registryContractAddress", "eventIdHex",
    "organizerKeyHex", "rootPublisherKeyHex", "initialRootField", "acceptedRoots", "opensAtUnix",
    "enrollmentClosesAtUnix", "closesAtUnix", "revealClosesAtUnix", "countryPolicy", "minimumAssurance",
    "requireAdult", "validityReference", "title", "question", "description"].map js

theorem wireNames_distinct : wireNames.Nodup ∧ wireNames.Pairwise (fun a b ↦ propertyRank a ≤ propertyRank b) ∧
    js "opensAt" ∉ wireNames ∧ js "closesAt" ∉ wireNames := by
  decide +kernel

section Referendum

variable (referendum : ManifestReferendum)

theorem names_wire : ((referendum.fields ++ referendum.descriptionFields).map Prod.fst).Sublist wireNames := by
  have hdescription : (referendum.descriptionFields.map Prod.fst).Sublist [js "description"] := by
    unfold ManifestReferendum.descriptionFields
    cases present referendum.description with
    | none => exact List.nil_sublist _
    | some description => exact List.Sublist.refl _
  have hnames : wireNames = referendum.fields.map Prod.fst ++ [js "description"] := by
    simp only [wireNames, ManifestReferendum.fields, List.map_cons, List.map_nil, List.cons_append, List.nil_append]
  rw [List.map_append, hnames]
  exact hdescription.append_left (referendum.fields.map Prod.fst)

theorem nodup_wire : ((referendum.fields ++ referendum.descriptionFields).map Prod.fst).Nodup :=
  wireNames_distinct.1.sublist (names_wire referendum)

theorem valid_textOrNull (value : Option JsString) : (textOrNull value).Valid := by
  cases value with
  | none => exact .null
  | some text => exact .string text

theorem valid_wire : referendum.wire.Valid := by
  have hordered := (List.pairwise_map (f := Prod.fst) (R := fun a b ↦ propertyRank a ≤ propertyRank b)).mp
    (wireNames_distinct.2.1.sublist (names_wire referendum))
  have hroots : (Json.array (referendum.acceptedRoots.map .string)).Valid := .array fun item hitem ↦ by
    obtain ⟨root, -, rfl⟩ := List.mem_map.mp hitem
    exact .string root
  have hfields : ∀ field ∈ referendum.fields, field.2.Valid := by
    simp only [ManifestReferendum.fields, List.forall_mem_cons, valid_textOrNull, hroots, Json.Valid.string,
      Json.Valid.bool, true_and, List.not_mem_nil, false_implies, implies_true]
  have hdescription : ∀ field ∈ referendum.descriptionFields, field.2.Valid := fun field hfield ↦ by
    unfold ManifestReferendum.descriptionFields at hfield
    cases hpresent : present referendum.description with
    | none =>
      rw [hpresent] at hfield
      cases hfield
    | some description =>
      rw [hpresent] at hfield
      rw [List.mem_singleton.mp hfield]
      exact .string description
  exact .object (nodup_wire referendum) hordered fun field hfield ↦
    (List.mem_append.mp hfield).elim (hfields field) (hdescription field)

/-- The parser finds each field, and no dates of its own. -/
theorem field?_wire : (∀ field ∈ referendum.fields,
    field? (referendum.fields ++ referendum.descriptionFields) field.1 = some field.2) ∧
    field? (referendum.fields ++ referendum.descriptionFields) (js "opensAt") = none ∧
    field? (referendum.fields ++ referendum.descriptionFields) (js "closesAt") = none := by
  have habsent : ∀ {name}, name ∉ wireNames →
      field? (referendum.fields ++ referendum.descriptionFields) name = none := fun {name} hname ↦ by
    refine List.lookup_eq_none_iff.mpr fun field hfield ↦ ?_
    rw [bne_iff_ne]
    rintro rfl
    exact hname ((names_wire referendum).subset (List.mem_map_of_mem hfield))
  exact ⟨fun field hfield ↦ lookup_of_mem (nodup_wire referendum) (List.mem_append_left _ hfield),
    habsent wireNames_distinct.2.2.1, habsent wireNames_distinct.2.2.2⟩

end Referendum

section Entries

variable {index : ℕ}

theorem parseCountryPolicy_eq_ok {policy : Option JsString} {bytes : Bytes32} :
    parseCountryPolicy (some (textOrNull policy)) index = .ok bytes ↔
      policy.elim (emptyBytes = bytes) fun text ↦ trimmed text ≠ [] ∧ padBytes32 (trimmed text) = some bytes := by
  cases policy with
  | none => exact ⟨fun h ↦ Except.ok.inj h, fun h ↦ congrArg Except.ok h⟩
  | some text =>
    refine bind_eq_ok.trans ⟨?_, ?_⟩
    · rintro ⟨value, hvalue, h⟩
      obtain ⟨rfl, hne⟩ := nonEmptyString_eq_ok.mp hvalue
      exact ⟨hne, paddedBytes32_eq_ok.mp h⟩
    · rintro ⟨hne, h⟩
      exact ⟨trimmed text, nonEmptyString_eq_ok.mpr ⟨rfl, hne⟩, paddedBytes32_eq_ok.mpr h⟩

theorem isEnabled_textOrNull (policy : Option JsString) : isEnabled (some (textOrNull policy)) = policy.isSome := by
  cases policy <;> rfl

/-- The policy that was read is that of the manifest if there was nothing to trim. -/
theorem policy_agrees_iff {policy : Option JsString} {bytes : Bytes32}
    (h : parseCountryPolicy (some (textOrNull policy)) index = .ok bytes) :
    some bytes = policy.elim (some emptyBytes) padBytes32 ↔
      ∀ text ∈ policy, IsTrimmed text ∧ text ≠ [] ∧ (padBytes32 text).isSome := by
  rw [parseCountryPolicy_eq_ok] at h
  cases policy with
  | none => exact ⟨fun _ text htext ↦ (by cases htext), fun _ ↦ congrArg some h.symm⟩
  | some text =>
    obtain ⟨hne, hpad⟩ := h
    constructor
    · rintro hsame text' ⟨⟩
      have htrimmed := isTrimmed_of_padBytes32 hsame.symm hpad
      exact ⟨htrimmed, htrimmed ▸ hne, Option.isSome_of_eq_some hsame.symm⟩
    · intro h
      rw [← hpad, (h text rfl).1]
      rfl

variable (dates : DateParser) (registry : FrozenCredentialRegistryReference) (network : RuntimeNetwork) (index)

/-- What the parser reads of a referendum: its texts without white space at their ends, and numbers in their ranges. -/
structure ReadAs (referendum : ManifestReferendum) (address : JsString) (entry : PassportV2RuntimeReferendum) : Prop where
  referendumId : trimmed referendum.referendumId = entry.referendumId
  contractAddress : trimmed address = entry.contractAddress
  eventId : hexBytes32 referendum.eventIdHex = entry.config.eventId
  organizerKey : hexBytes32 referendum.organizerKeyHex = entry.config.organizerKey
  rootPublisherKey : hexBytes32 referendum.rootPublisherKeyHex = entry.config.rootPublisherKey
  opensAtUnix : numeral referendum.opensAtUnix = entry.config.opensAtUnix
  enrollmentClosesAtUnix : numeral referendum.enrollmentClosesAtUnix = entry.config.enrollmentClosesAtUnix
  closesAtUnix : numeral referendum.closesAtUnix = entry.config.closesAtUnix
  revealClosesAtUnix : numeral referendum.revealClosesAtUnix = entry.config.revealClosesAtUnix
  revealClosesAtUnix_lt : entry.config.revealClosesAtUnix < 2 ^ 64
  countryPolicy : parseCountryPolicy (some (textOrNull referendum.countryPolicy)) index = .ok entry.config.countryPolicy
  countryPolicyEnabled : referendum.countryPolicy.isSome = entry.config.countryPolicyEnabled
  minimumAssurance : numeral referendum.minimumAssurance = entry.config.minimumAssurance
  minimumAssurance_lt : entry.config.minimumAssurance < 2 ^ 8
  requireAdult : referendum.requireAdult = entry.config.requireAdult
  validityReference : numeral referendum.validityReference = entry.config.validityReference
  validityReference_lt : entry.config.validityReference < 2 ^ 64

section Wire

variable {referendum : ManifestReferendum} {address : JsString}

theorem record?_wire : referendum.wire.record? = some (referendum.fields ++ referendum.descriptionFields) := rfl

theorem readAs_of_parseReferendum (haccepted : referendum.Accepted) (haddress : referendum.contractAddress = some address)
    {entry : PassportV2RuntimeReferendum}
    (h : parseReferendum dates referendum.wire index registry network = .ok entry) :
    ReadAs index referendum address entry := by
  obtain ⟨hfields, hopensDate, hclosesDate⟩ := field?_wire referendum
  simp only [parseReferendum, record?_wire] at h
  generalize field? (referendum.fields ++ referendum.descriptionFields) = field at hfields hopensDate hclosesDate h
  simp only [ManifestReferendum.fields, List.forall_mem_cons, haddress] at hfields
  simp only [hfields, hopensDate, hclosesDate] at h
  obtain ⟨referendumId, hid, h⟩ := bind_eq_ok.mp h
  obtain ⟨contractAddress, hcontract, h⟩ := bind_eq_ok.mp h
  obtain ⟨countryPolicy, hpolicy, h⟩ := bind_eq_ok.mp h
  obtain ⟨minimumAssurance, hassurance, h⟩ := bind_eq_ok.mp h
  obtain ⟨requireAdult, hadult, h⟩ := bind_eq_ok.mp h
  obtain ⟨_, -, h⟩ := bind_eq_ok.mp h
  obtain ⟨_, -, h⟩ := bind_eq_ok.mp h
  obtain ⟨_, -, h⟩ := bind_eq_ok.mp h
  obtain ⟨eventId, hevent, h⟩ := bind_eq_ok.mp h
  obtain ⟨organizerKey, horganizer, h⟩ := bind_eq_ok.mp h
  obtain ⟨rootPublisherKey, hpublisher, h⟩ := bind_eq_ok.mp h
  obtain ⟨opensAtUnix, hopens, h⟩ := bind_eq_ok.mp h
  obtain ⟨enrollmentClosesAtUnix, henrollment, h⟩ := bind_eq_ok.mp h
  obtain ⟨closesAtUnix, hcloses, h⟩ := bind_eq_ok.mp h
  obtain ⟨revealClosesAtUnix, hreveal, h⟩ := bind_eq_ok.mp h
  obtain ⟨validityReference, hvalidity, h⟩ := bind_eq_ok.mp h
  obtain rfl := Except.ok.inj h
  obtain ⟨hassurance, hassurance_lt⟩ := (unsignedBigInt_decimal haccepted.minimumAssurance).mp hassurance
  obtain ⟨hreveal, hreveal_lt⟩ := (unsignedBigInt_decimal haccepted.revealClosesAtUnix).mp hreveal
  obtain ⟨hvalidity, hvalidity_lt⟩ := (unsignedBigInt_decimal haccepted.validityReference).mp hvalidity
  exact {
    referendumId := (nonEmptyString_eq_ok.mp hid).1
    contractAddress := (nonEmptyString_eq_ok.mp hcontract).1
    eventId := (bytes32_eq_ok.mp hevent).2
    organizerKey := (bytes32_eq_ok.mp horganizer).2
    rootPublisherKey := (bytes32_eq_ok.mp hpublisher).2
    opensAtUnix := ((unsignedBigInt_decimal haccepted.opensAtUnix).mp hopens).1
    enrollmentClosesAtUnix := ((unsignedBigInt_decimal haccepted.enrollmentClosesAtUnix).mp henrollment).1
    closesAtUnix := ((unsignedBigInt_decimal haccepted.closesAtUnix).mp hcloses).1
    revealClosesAtUnix := hreveal
    revealClosesAtUnix_lt := hreveal_lt
    countryPolicy := hpolicy
    countryPolicyEnabled := (isEnabled_textOrNull referendum.countryPolicy).symm
    minimumAssurance := hassurance
    minimumAssurance_lt := hassurance_lt
    requireAdult := Except.ok.inj hadult
    validityReference := hvalidity
    validityReference_lt := hvalidity_lt }

/-- A referendum that is read differs from that of the manifest only where white space has been trimmed. -/
theorem ReadAs.agrees_iff (haddress : referendum.contractAddress = some address) {entry : PassportV2RuntimeReferendum}
    (h : ReadAs index referendum address entry) : referendum.AgreesWith entry ↔ referendum.Configurable := by
  have hpolicy := policy_agrees_iff h.countryPolicy
  constructor
  · intro hagrees
    exact {
      referendumId := h.referendumId.trans hagrees.referendumId
      contractAddress := fun text htext ↦ by
        have hsame := hagrees.contractAddress.trans htext
        rw [haddress] at htext
        rw [← Option.some.inj htext] at hsame ⊢
        exact h.contractAddress.trans (Option.some.inj hsame)
      countryPolicy := hpolicy.mp hagrees.countryPolicy
      minimumAssurance := h.minimumAssurance ▸ h.minimumAssurance_lt
      revealClosesAtUnix := h.revealClosesAtUnix ▸ h.revealClosesAtUnix_lt
      validityReference := h.validityReference ▸ h.validityReference_lt }
  · intro hconfigurable
    exact {
      referendumId := h.referendumId.symm.trans hconfigurable.referendumId
      contractAddress := by
        rw [← h.contractAddress, hconfigurable.contractAddress address haddress, haddress]
      eventId := h.eventId.symm
      organizerKey := h.organizerKey.symm
      rootPublisherKey := h.rootPublisherKey.symm
      opensAtUnix := h.opensAtUnix.symm
      enrollmentClosesAtUnix := h.enrollmentClosesAtUnix.symm
      closesAtUnix := h.closesAtUnix.symm
      revealClosesAtUnix := h.revealClosesAtUnix.symm
      countryPolicy := hpolicy.mpr hconfigurable.countryPolicy
      countryPolicyEnabled := h.countryPolicyEnabled.symm
      minimumAssurance := h.minimumAssurance.symm
      requireAdult := h.requireAdult.symm
      validityReference := h.validityReference.symm }

/-- A policy that can be configured is read. -/
theorem parseCountryPolicy_of_configurable {policy : Option JsString}
    (h : ∀ text ∈ policy, IsTrimmed text ∧ text ≠ [] ∧ (padBytes32 text).isSome) :
    ∃ bytes, parseCountryPolicy (some (textOrNull policy)) index = .ok bytes := by
  simp only [parseCountryPolicy_eq_ok]
  cases policy with
  | none => exact ⟨emptyBytes, rfl⟩
  | some text =>
    obtain ⟨htrimmed, hne, hpad⟩ := h text rfl
    obtain ⟨bytes, hbytes⟩ := Option.isSome_iff_exists.mp hpad
    exact ⟨bytes, by rwa [Option.elim_some, htrimmed, and_iff_right hne]⟩

theorem parseReferendum_of_configurable (haccepted : referendum.Accepted)
    (haddress : referendum.contractAddress = some address) (hnonempty : address ≠ [])
    (hconfigurable : referendum.Configurable) :
    ∃ entry, parseReferendum dates referendum.wire index registry network = .ok entry := by
  have hdecimal : ∀ {text : JsString} {bits : ℕ}, isDecimal text → numeral text < 2 ^ bits →
      unsignedBigInt (some (.string text)) bits = .ok (numeral text) :=
    fun htext hlt ↦ (unsignedBigInt_decimal htext).mpr ⟨rfl, hlt⟩
  have hbytes : ∀ {text : JsString} (label : String), isHex32 text →
      bytes32 (some (.string text)) label = .ok (hexBytes32 text) := fun _ hhex ↦ bytes32_eq_ok.mpr ⟨hhex, rfl⟩
  have hstring : ∀ {text : JsString} (label : String), ¬isBlank text →
      nonEmptyString (some (.string text)) label = .ok (trimmed text) := fun _ hblank ↦
    nonEmptyString_eq_ok.mpr ⟨rfl, fun hnil ↦ hblank (trimmed_eq_nil.mp hnil)⟩
  have hreveal := hconfigurable.revealClosesAtUnix
  have hcloses := haccepted.closes_lt.trans hreveal
  obtain ⟨bytes, hpolicy⟩ := parseCountryPolicy_of_configurable index hconfigurable.countryPolicy
  have hblank : ¬isBlank address := fun hblank ↦ hnonempty
    ((hconfigurable.contractAddress address haddress).symm.trans (trimmed_eq_nil.mpr hblank))
  have htext : textOrNull (some address) = .string address := rfl
  obtain ⟨hfields, hopensDate, hclosesDate⟩ := field?_wire referendum
  simp only [parseReferendum, record?_wire]
  generalize field? (referendum.fields ++ referendum.descriptionFields) = field at hfields hopensDate hclosesDate
  simp only [ManifestReferendum.fields, List.forall_mem_cons, haddress, htext] at hfields
  simp only [hfields, hopensDate, hclosesDate]
  rw [hstring _ haccepted.referendumId, hstring _ hblank, hpolicy,
    hdecimal haccepted.minimumAssurance hconfigurable.minimumAssurance, hstring _ haccepted.title,
    hstring _ haccepted.question, hbytes _ haccepted.eventIdHex, hbytes _ haccepted.organizerKeyHex,
    hbytes _ haccepted.rootPublisherKeyHex, hdecimal haccepted.opensAtUnix (haccepted.opens_lt.trans hcloses),
    hdecimal haccepted.enrollmentClosesAtUnix (haccepted.enrollment_le.trans_lt hcloses),
    hdecimal haccepted.closesAtUnix hcloses, hdecimal haccepted.revealClosesAtUnix hreveal,
    hdecimal haccepted.validityReference hconfigurable.validityReference]
  exact ⟨_, rfl⟩

end Wire

/-- A referendum that is read agrees with that of the manifest if and only if it can be configured, and one that can be
configured is read. -/
theorem parseReferendum_wire {referendum : ManifestReferendum} (haccepted : referendum.Accepted) :
    (∀ entry, parseReferendum dates referendum.wire index registry network = .ok entry →
      (referendum.AgreesWith entry ↔ referendum.Configurable)) ∧
    (referendum.Configurable → ∃ entry, parseReferendum dates referendum.wire index registry network = .ok entry) := by
  obtain ⟨address, haddress, hnonempty⟩ := haccepted.contractAddress
  constructor
  · intro entry h
    exact (readAs_of_parseReferendum index dates registry network haccepted haddress h).agrees_iff index haddress
  · exact parseReferendum_of_configurable index dates registry network haccepted haddress hnonempty

/-- The same for the list, entry by entry. -/
theorem parseReferenda_wire {referenda : List ManifestReferendum} (haccepted : ∀ referendum ∈ referenda, referendum.Accepted) :
    (∀ entries, parseReferenda dates registry network index (referenda.map ManifestReferendum.wire) = .ok entries →
      (List.Forall₂ ManifestReferendum.AgreesWith referenda entries ↔
        ∀ referendum ∈ referenda, referendum.Configurable)) ∧
    ((∀ referendum ∈ referenda, referendum.Configurable) →
      ∃ entries, parseReferenda dates registry network index (referenda.map ManifestReferendum.wire) = .ok entries) := by
  induction referenda generalizing index with
  | nil =>
    constructor
    · intro entries h
      obtain rfl := Except.ok.inj h
      exact ⟨fun _ _ hmem ↦ (by cases hmem), fun _ ↦ .nil⟩
    · exact fun _ ↦ ⟨[], rfl⟩
  | cons referendum referenda ih =>
    obtain ⟨hreferendum, haccepted⟩ := List.forall_mem_cons.mp haccepted
    obtain ⟨hagrees, hparses⟩ := parseReferendum_wire index dates registry network hreferendum
    obtain ⟨hagreesRest, hparsesRest⟩ := ih (index + 1) haccepted
    rw [List.map_cons, List.forall_mem_cons]
    constructor
    · intro entries h
      obtain ⟨entry, hentry, h⟩ := bind_eq_ok.mp h
      obtain ⟨rest, hrest, h⟩ := bind_eq_ok.mp h
      obtain rfl := Except.ok.inj h
      rw [List.forall₂_cons, hagrees entry hentry, hagreesRest rest hrest]
    · rintro ⟨hconfigurable, hconfigurableRest⟩
      obtain ⟨entry, hentry⟩ := hparses hconfigurable
      obtain ⟨rest, hrest⟩ := hparsesRest hconfigurableRest
      exact ⟨entry :: rest, bind_eq_ok.mpr ⟨entry, hentry, bind_eq_ok.mpr ⟨rest, hrest, rfl⟩⟩⟩

end Entries

theorem referendumIds_of_agrees {referenda : List ManifestReferendum} {entries : List PassportV2RuntimeReferendum}
    (h : List.Forall₂ ManifestReferendum.AgreesWith referenda entries) :
    entries.map PassportV2RuntimeReferendum.referendumId = referenda.map ManifestReferendum.referendumId := by
  induction h with
  | nil => rfl
  | cons hagrees _ ih => rw [List.map_cons, List.map_cons, hagrees.referendumId, ih]

/-! ## Variables -/

/-- The names of the variables. -/
def variableNames : List JsString :=
  ["VITE_PASSPORT_V2_API_URL", "VITE_MIDNIGHT_NETWORK", "VITE_CICO_ISSUER_ID", "VITE_CICO_CREDENTIAL_EPOCH",
    "VITE_CICO_CREDENTIAL_TTL_MS", "VITE_RARIMO_UNIQUENESS_TIMESTAMP_UPPER_BOUND", "VITE_CICO_REGISTRY_ADDRESS",
    "VITE_CICO_REGISTRY_CONTRACT_BINDING_HEX", "VITE_CICO_REGISTRY_ID_HEX", "VITE_CICO_ISSUER_ID_HEX",
    "VITE_CICO_FROZEN_ROOT_FIELD", "VITE_CICO_ENROLLMENT_MODEL", "VITE_CICO_REFERENDA_JSON"].map js

theorem variableNames_nodup : variableNames.Nodup := by
  decide +kernel

theorem lookup_variables (manifest : DeploymentManifest) :
    ∀ entry ∈ manifest.variables, manifest.variables.lookup entry.1 = some entry.2 := by
  intro entry hentry
  have hnames : manifest.variables.map Prod.fst = variableNames := by
    simp only [variableNames, DeploymentManifest.variables, List.map_cons, List.map_nil]
  exact lookup_of_mem (hnames ▸ variableNames_nodup) hentry

theorem parseNetwork_networkName (network : RuntimeNetwork) :
    parseNetwork (some (js (networkName network))) = .ok network := by
  cases network <;> decide +kernel

/-- The list of the referenda is read back. -/
theorem parseWire_wire {manifest : DeploymentManifest} {env : RuntimeEnv}
    (hvalue : env (js "VITE_CICO_REFERENDA_JSON") = some manifest.wire.stringify) : parseWire env = .ok manifest.wire := by
  have htrimmed : trimmed manifest.wire.stringify = manifest.wire.stringify :=
    trimmed_of_ends (u := 0x5B) (v := 0x5D) rfl rfl _
  have hvalid : manifest.wire.Valid := .array fun item hitem ↦ by
    obtain ⟨referendum, -, rfl⟩ := List.mem_map.mp hitem
    exact valid_wire referendum
  have hne : manifest.wire.stringify ≠ [] := List.cons_ne_nil 0x5B _
  rw [parseWire, (required_eq_ok hvalue).mpr ⟨htrimmed, hne⟩]
  simp only [Except.toOption, Option.bind_some, Json.parse_stringify hvalid]

/-! ## The manifest -/

variable {p : Platform} (dates : DateParser)

/-- The text of a lifetime in the range of the parser is read as the lifetime. -/
theorem requiredNumber_stringOfNumber {env : RuntimeEnv} {key : String} {lifetime : ℕ}
    (hvalue : env (js key) = some (stringOfNumber (some (lifetime : ℚ)))) (hlow : 1000 ≤ lifetime)
    (hhigh : lifetime ≤ 2592000000) {n : ℕ} : requiredNumber env key 53 = .ok n ↔ lifetime = n := by
  obtain ⟨hdigits, hne, hnumeral⟩ := numberText_natCast (n := lifetime) (by omega) (by omega)
  have htext : stringOfNumber (some (lifetime : ℚ)) = numberText lifetime := rfl
  have htrimmed : trimmed (numberText lifetime) = numberText lifetime := isTrimmed_of_digits hdigits
  have hrange : lifetime = n → n < 2 ^ 53 ∧ IsSafe n := by
    intro hn
    unfold IsSafe maxSafeInteger
    omega
  rw [requiredNumber_eq_ok hvalue, htext, htrimmed, PrivateState.bigintOf?_of_digits hdigits hne, hnumeral,
    and_iff_right hne, Option.some.injEq, Nat.cast_inj]
  exact and_iff_left_of_imp hrange

theorem requiredNumber_decimal {env : RuntimeEnv} {key : String} {value : JsString} (hvalue : env (js key) = some value)
    (hdecimal : isDecimal value) {n : ℕ} : requiredNumber env key 64 = .ok n ↔ numeral value = n ∧ IsSafe n := by
  obtain ⟨hdigits, hne⟩ := digits_of_isDecimal hdecimal
  have htrimmed : trimmed value = value := isTrimmed_of_digits hdigits
  have hlt : IsSafe n → n < 2 ^ 64 := by
    unfold IsSafe maxSafeInteger
    omega
  rw [requiredNumber_eq_ok hvalue, htrimmed, PrivateState.bigintOf?_of_digits hdigits hne, and_iff_right hne,
    Option.some.injEq, Nat.cast_inj, and_iff_right_of_imp hlt]

/-- The variables that the parser reads are there. -/
structure Provides (env : RuntimeEnv) (manifest : DeploymentManifest) : Prop where
  apiUrl : present ((env (js "VITE_PASSPORT_V2_API_URL")).map trimmed) = some (trimmed manifest.runtime.apiUrl)
  network : parseNetwork (env (js "VITE_MIDNIGHT_NETWORK")) = .ok manifest.network
  issuerId : env (js "VITE_CICO_ISSUER_ID") = some manifest.registry.issuerId
  credentialEpoch : env (js "VITE_CICO_CREDENTIAL_EPOCH") = some manifest.registry.credentialEpoch
  credentialTtlMs : env (js "VITE_CICO_CREDENTIAL_TTL_MS") = some (stringOfNumber manifest.runtime.credentialTtlMs)
  upperBound : env (js "VITE_RARIMO_UNIQUENESS_TIMESTAMP_UPPER_BOUND") =
    some manifest.runtime.uniquenessTimestampUpperBoundUnixSeconds
  registryAddress : ∀ address ∈ manifest.registry.contractAddress, env (js "VITE_CICO_REGISTRY_ADDRESS") = some address
  registryIdHex : env (js "VITE_CICO_REGISTRY_ID_HEX") = some manifest.registry.registryIdHex
  issuerIdHex : env (js "VITE_CICO_ISSUER_ID_HEX") = some manifest.registry.issuerIdHex
  frozenRoot : env (js "VITE_CICO_FROZEN_ROOT_FIELD") = some (manifest.registry.frozenRootField.getD [])
  referenda : parseWire env = .ok manifest.wire

theorem provides_of_lookup {manifest : DeploymentManifest} (haccepted : manifest.Accepted p) {env : RuntimeEnv}
    (henv : ∀ entry ∈ manifest.variables, env entry.1 = some entry.2) : Provides env manifest := by
  simp only [DeploymentManifest.variables, List.forall_mem_cons] at henv
  obtain ⟨hapiUrl, hnetwork, hissuerId, hepoch, httl, hbound, haddress, -, hregistryId, hissuerIdHex, hroot, -, hreferenda,
    -⟩ := henv
  exact {
    apiUrl := by
      rw [hapiUrl, Option.map_some, present_of_ne]
      exact fun hnil ↦ haccepted.apiUrl (trimmed_eq_nil.mp (Option.some.inj hnil))
    network := by rw [hnetwork, parseNetwork_networkName]
    issuerId := hissuerId
    credentialEpoch := hepoch
    credentialTtlMs := httl
    upperBound := hbound
    registryAddress := fun address hcontract ↦ by rw [haddress, hcontract, Option.getD_some]
    registryIdHex := hregistryId
    issuerIdHex := hissuerIdHex
    frozenRoot := hroot
    referenda := parseWire_wire hreferenda }

section Manifest

variable {manifest : DeploymentManifest} {env : RuntimeEnv} (haccepted : manifest.Accepted p) (henv : Provides env manifest)

include haccepted henv

/-- A configuration that is read agrees with the manifest if and only if the manifest can be configured. -/
theorem agreesWith_iff {config : PassportV2RuntimeConfig}
    (h : parsePassportV2RuntimeConfig p.persistentHash dates env = .ok (some config)) :
    manifest.AgreesWith p config ↔ manifest.Configurable := by
  obtain ⟨address, binding, expected, hcontract, -, hbinding, hexpected, hsame⟩ := haccepted.binding
  rw [parsePassportV2RuntimeConfig, henv.apiUrl] at h
  obtain ⟨network, hnetwork, h⟩ := bind_eq_ok.mp h
  obtain ⟨issuerId, hissuer, h⟩ := bind_eq_ok.mp h
  obtain ⟨credentialEpoch, hepoch, h⟩ := bind_eq_ok.mp h
  obtain ⟨credentialTtlMs, httl, h⟩ := bind_eq_ok.mp h
  obtain ⟨hrange, h⟩ := check_bind_eq_ok.mp h
  obtain ⟨seconds, hseconds, h⟩ := bind_eq_ok.mp h
  obtain ⟨registryContractAddress, haddress, h⟩ := bind_eq_ok.mp h
  obtain ⟨registryContractBinding, hderived, h⟩ := bind_eq_ok.mp h
  obtain ⟨registryId, -, h⟩ := bind_eq_ok.mp h
  obtain ⟨registryIssuerId, hissuerIdHex, h⟩ := bind_eq_ok.mp h
  obtain ⟨frozenRoot, hroot, h⟩ := bind_eq_ok.mp h
  obtain ⟨paddedIssuerId, hpadded, h⟩ := bind_eq_ok.mp h
  obtain ⟨hsameIssuer, h⟩ := check_bind_eq_ok.mp h
  obtain ⟨wire, hwire, h⟩ := bind_eq_ok.mp h
  obtain rfl := Except.ok.inj (henv.referenda.symm.trans hwire)
  obtain ⟨-, h⟩ := check_bind_eq_ok.mp h
  obtain ⟨referenda, hparsed, h⟩ := bind_eq_ok.mp h
  obtain ⟨-, h⟩ := check_bind_eq_ok.mp h
  obtain rfl := Option.some.inj (Except.ok.inj h)
  have hissuer := ((required_eq_ok henv.issuerId).mp hissuer).1
  have haddress := ((required_eq_ok (henv.registryAddress address hcontract)).mp haddress).1
  have hissuerIdHex := (requiredBytes32_eq_ok henv.issuerIdHex haccepted.issuerIdHex).mp hissuerIdHex
  have hpadded := paddedBytes32_eq_ok.mp hpadded
  obtain ⟨hepoch, hsafe⟩ := (requiredNumber_decimal henv.credentialEpoch haccepted.credentialEpoch).mp hepoch
  obtain ⟨root, hroot, hfrozen, hlt⟩ := (requiredRoot_eq_ok henv.frozenRoot rfl haccepted.frozenRootField).mp hroot
  obtain ⟨hboundNe, hboundValue, -, hboundSafe⟩ := (requiredNumber_eq_ok henv.upperBound).mp hseconds
  have hreferenda := (parseReferenda_wire 0 dates _ network haccepted.referenda).1 referenda hparsed
  constructor
  · intro hagrees
    have htrimmed : trimmed manifest.registry.issuerId = manifest.registry.issuerId := hissuer.trans hagrees.issuerId
    exact {
      frozenRoot := ⟨root, hroot, hfrozen ▸ hlt⟩
      issuerId := htrimmed
      issuerIdHex := by
        rw [← hissuer, htrimmed] at hpadded
        rw [hpadded, hissuerIdHex, hsameIssuer]
      credentialEpoch := hepoch ▸ hsafe
      credentialTtlMs := ⟨credentialTtlMs, hagrees.credentialTtlMs.symm, hrange.1, hrange.2⟩
      upperBound := ⟨seconds, hboundNe, hboundValue, hboundSafe⟩
      registryAddress := fun text htext ↦ by
        have hsame := hagrees.registryContractAddress.trans htext
        rw [hcontract] at htext
        rw [← Option.some.inj htext] at hsame ⊢
        exact haddress.trans (Option.some.inj hsame)
      referenda := hreferenda.mp hagrees.referenda }
  · intro hconfigurable
    have hsameAddress : registryContractAddress = address :=
      haddress.symm.trans (hconfigurable.registryAddress address hcontract)
    obtain ⟨lifetime, hlifetime, hlow, hhigh⟩ := hconfigurable.credentialTtlMs
    have hvalue := henv.credentialTtlMs
    rw [hlifetime] at hvalue
    exact {
      network := Except.ok.inj (hnetwork.symm.trans henv.network)
      issuerId := hissuer.symm.trans hconfigurable.issuerId
      registryIssuerId := hissuerIdHex.symm
      credentialEpoch := hepoch.symm
      credentialTtlMs := by
        rw [← (requiredNumber_stringOfNumber hvalue hlow hhigh).mp httl]
        exact hlifetime.symm
      registryContractAddress := by rw [hsameAddress, hcontract]
      registryContractBinding := by
        rw [hsameAddress, hexpected] at hderived
        rw [hbinding, Option.map_some, hsame, Except.ok.inj hderived]
      referenda := hreferenda.mpr hconfigurable.referenda }

/-- A manifest that can be configured is read. -/
theorem exists_config (hconfigurable : manifest.Configurable) :
    ∃ config, parsePassportV2RuntimeConfig p.persistentHash dates env = .ok (some config) := by
  obtain ⟨address, binding, expected, hcontract, hnonempty, -, hexpected, -⟩ := haccepted.binding
  obtain ⟨root, hrootEq, hrootLt⟩ := hconfigurable.frozenRoot
  obtain ⟨lifetime, hlifetime, hlow, hhigh⟩ := hconfigurable.credentialTtlMs
  obtain ⟨seconds, hboundNe, hboundValue, hboundSafe⟩ := hconfigurable.upperBound
  have hvalue := henv.credentialTtlMs
  rw [hlifetime] at hvalue
  have hissuerNe : manifest.registry.issuerId ≠ [] := by
    intro hnil
    have hissuerId := haccepted.issuerId
    rw [hnil] at hissuerId
    exact hissuerId rfl
  have hlt : seconds < 2 ^ 64 := by
    unfold IsSafe maxSafeInteger at hboundSafe
    omega
  have hissuer := (required_eq_ok henv.issuerId).mpr ⟨hconfigurable.issuerId, hissuerNe⟩
  have hepoch := (requiredNumber_decimal henv.credentialEpoch haccepted.credentialEpoch).mpr
    ⟨rfl, hconfigurable.credentialEpoch⟩
  have httl := (requiredNumber_stringOfNumber hvalue hlow hhigh).mpr rfl
  have hseconds := (requiredNumber_eq_ok henv.upperBound).mpr ⟨hboundNe, hboundValue, hlt, hboundSafe⟩
  have haddress := (required_eq_ok (henv.registryAddress address hcontract)).mpr
    ⟨hconfigurable.registryAddress address hcontract, hnonempty⟩
  have hbytes : ∀ {key : String} {value : JsString} (label : String), env (js key) = some value → isHex32 value →
      requiredBytes32 env key label = .ok (hexBytes32 value) := fun _ hvalue hhex ↦ (requiredBytes32_eq_ok hvalue hhex).mpr rfl
  have hroot := (requiredRoot_eq_ok henv.frozenRoot rfl haccepted.frozenRootField).mpr ⟨root, hrootEq, rfl, hrootLt⟩
  have hpadded := paddedBytes32_eq_ok.mpr hconfigurable.issuerIdHex
  have hwire : manifest.referenda.map ManifestReferendum.wire ≠ [] :=
    fun hnil ↦ haccepted.referenda_ne (List.map_eq_nil_iff.mp hnil)
  let registry : FrozenCredentialRegistryReference := {
    registryContractAddress := address
    registryContractBinding := expected
    registryId := hexBytes32 manifest.registry.registryIdHex
    issuerId := hexBytes32 manifest.registry.issuerIdHex
    credentialEpoch := numeral manifest.registry.credentialEpoch
    frozenRoot := numeral root }
  obtain ⟨hagrees, hparses⟩ := parseReferenda_wire 0 dates registry manifest.network haccepted.referenda
  obtain ⟨entries, hentries⟩ := hparses hconfigurable.referenda
  have hids := referendumIds_of_agrees ((hagrees entries hentries).mpr hconfigurable.referenda)
  let config : PassportV2RuntimeConfig := {
    network := manifest.network
    apiUrl := trimmed manifest.runtime.apiUrl
    issuerId := manifest.registry.issuerId
    credentialEpoch := numeral manifest.registry.credentialEpoch
    credentialTtlMs := lifetime
    uniquenessTimestampUpperBoundUnixSeconds := seconds
    registry := registry
    referenda := entries }
  apply Exists.intro config
  rw [parsePassportV2RuntimeConfig, henv.apiUrl]
  refine bind_eq_ok.mpr ⟨_, henv.network, ?_⟩
  refine bind_eq_ok.mpr ⟨_, hissuer, ?_⟩
  refine bind_eq_ok.mpr ⟨_, hepoch, ?_⟩
  refine bind_eq_ok.mpr ⟨_, httl, ?_⟩
  refine check_bind_eq_ok.mpr ⟨⟨hlow, hhigh⟩, ?_⟩
  refine bind_eq_ok.mpr ⟨_, hseconds, ?_⟩
  refine bind_eq_ok.mpr ⟨_, haddress, ?_⟩
  refine bind_eq_ok.mpr ⟨_, hexpected, ?_⟩
  refine bind_eq_ok.mpr ⟨_, hbytes _ henv.registryIdHex haccepted.registryIdHex, ?_⟩
  refine bind_eq_ok.mpr ⟨_, hbytes _ henv.issuerIdHex haccepted.issuerIdHex, ?_⟩
  refine bind_eq_ok.mpr ⟨_, hroot, ?_⟩
  refine bind_eq_ok.mpr ⟨_, hpadded, ?_⟩
  refine check_bind_eq_ok.mpr ⟨rfl, ?_⟩
  refine bind_eq_ok.mpr ⟨_, henv.referenda, ?_⟩
  refine check_bind_eq_ok.mpr ⟨hwire, ?_⟩
  refine bind_eq_ok.mpr ⟨_, hentries, ?_⟩
  exact check_bind_eq_ok.mpr ⟨hids ▸ haccepted.ids_nodup, rfl⟩

end Manifest

section Complete

variable {manifest : Manifest} (hvalid : validatePassportV2DeploymentManifest p manifest = .ok ())
  (hcomplete : assertCompletePassportV2DeploymentManifest p manifest.record manifest.digestInput = .ok ())

include hvalid hcomplete

theorem provides_of_complete : manifest.record.Accepted p ∧
    passportV2ManifestRuntimeEnvironment p manifest = .ok (fun name ↦ manifest.record.variables.lookup name) ∧
    Provides (fun name ↦ manifest.record.variables.lookup name) manifest.record := by
  have haccepted := accepted_of_ok (record_of_validate hvalid) hcomplete
  exact ⟨haccepted, bind_eq_ok.mpr ⟨(), hcomplete, rfl⟩, provides_of_lookup haccepted (lookup_variables manifest.record)⟩

theorem configurable_of_configures (h : Configures p dates manifest) : manifest.record.Configurable := by
  obtain ⟨haccepted, hwritten, hprovides⟩ := provides_of_complete hvalid hcomplete
  obtain ⟨env, config, henv, hconfig, hagrees⟩ := h
  obtain rfl := Except.ok.inj (hwritten.symm.trans henv)
  exact (agreesWith_iff dates haccepted hprovides hconfig).mp hagrees

/-- A manifest that is accepted as a complete one configures the runtime exactly when it can be configured. -/
theorem configures_iff : Configures p dates manifest ↔ manifest.record.Configurable := by
  constructor
  · exact configurable_of_configures dates hvalid hcomplete
  · intro hconfigurable
    obtain ⟨haccepted, hwritten, hprovides⟩ := provides_of_complete hvalid hcomplete
    obtain ⟨config, hconfig⟩ := exists_config dates haccepted hprovides hconfigurable
    exact ⟨_, config, hwritten, hconfig, (agreesWith_iff dates haccepted hprovides hconfig).mpr hconfigurable⟩

end Complete

/-! ## The two models -/

instance (referendum : ManifestReferendum) : Decidable referendum.Configurable :=
  decidable_of_iff (IsTrimmed referendum.referendumId ∧ (∀ address ∈ referendum.contractAddress, IsTrimmed address) ∧
    (∀ policy ∈ referendum.countryPolicy, IsTrimmed policy ∧ policy ≠ [] ∧ (padBytes32 policy).isSome) ∧
    numeral referendum.minimumAssurance < 2 ^ 8 ∧ numeral referendum.revealClosesAtUnix < 2 ^ 64 ∧
    numeral referendum.validityReference < 2 ^ 64)
    ⟨fun ⟨hid, haddress, hpolicy, hassurance, hreveal, hvalidity⟩ ↦
      ⟨hid, haddress, hpolicy, hassurance, hreveal, hvalidity⟩,
    fun h ↦ ⟨h.referendumId, h.contractAddress, h.countryPolicy, h.minimumAssurance, h.revealClosesAtUnix,
      h.validityReference⟩⟩

/-- What the two manifests have for the parser. -/
structure SampleReads (frozen : Bool) (record : DeploymentManifest) : Prop where
  frozenRoot : record.registry.frozenRootField = if frozen then some (js "1") else none
  issuerId : record.registry.issuerId = js "i"
  issuerIdHex : padBytes32 (js "i") = some (hexBytes32 record.registry.issuerIdHex)
  credentialEpoch : record.registry.credentialEpoch = js "1"
  credentialTtlMs : record.runtime.credentialTtlMs = some 1000
  upperBound : record.runtime.uniquenessTimestampUpperBoundUnixSeconds = js "1"
  registryAddress : ∀ address ∈ record.registry.contractAddress, IsTrimmed address
  referenda : ∀ referendum ∈ record.referenda, referendum.Configurable

instance (frozen : Bool) (record : DeploymentManifest) : Decidable (SampleReads frozen record) :=
  decidable_of_iff (record.registry.frozenRootField = (if frozen then some (js "1") else none) ∧
    record.registry.issuerId = js "i" ∧ padBytes32 (js "i") = some (hexBytes32 record.registry.issuerIdHex) ∧
    record.registry.credentialEpoch = js "1" ∧ record.runtime.credentialTtlMs = some 1000 ∧
    record.runtime.uniquenessTimestampUpperBoundUnixSeconds = js "1" ∧
    (∀ address ∈ record.registry.contractAddress, IsTrimmed address) ∧
    ∀ referendum ∈ record.referenda, referendum.Configurable)
    ⟨fun ⟨hroot, hissuer, hhex, hepoch, httl, hbound, haddress, hreferenda⟩ ↦
      ⟨hroot, hissuer, hhex, hepoch, httl, hbound, haddress, hreferenda⟩,
    fun h ↦ ⟨h.frozenRoot, h.issuerId, h.issuerIdHex, h.credentialEpoch, h.credentialTtlMs, h.upperBound,
      h.registryAddress, h.referenda⟩⟩

theorem sampleReads_completeValue :
    ∀ frozen, (deploymentManifest (completeValue frozen)).any (fun record ↦ decide (SampleReads frozen record)) = true := by
  decide +kernel

theorem sampleReads_of_value {frozen : Bool} {manifest : Manifest} (h : manifest.value = completeValue frozen) :
    SampleReads frozen manifest.record := by
  have hreads := sampleReads_completeValue frozen
  rw [← h, manifest.reads, Option.any_some] at hreads
  exact of_decide_eq_true hreads

/-- The manifest with the frozen registry configures the runtime. -/
theorem configures_frozen : ∃ manifest : Manifest, manifest.value = completeValue true ∧
    Configures (completePlatform true) Catalog.isoDates manifest := by
  obtain ⟨manifest, hvalue, hvalid, hcomplete, -⟩ := completeManifest true
  have hreads := sampleReads_of_value hvalue
  have hissuer : IsTrimmed (js "i") := by decide +kernel
  have hepoch : IsSafe (numeral (js "1")) := by decide +kernel
  have hbound : trimmed (js "1") ≠ [] ∧ PrivateState.bigintOf? (trimmed (js "1")) = some ((1 : ℕ) : ℤ) := by decide +kernel
  have hroot : numeral (js "1") < 2 ^ 256 := by decide +kernel
  exact ⟨manifest, hvalue, (configures_iff Catalog.isoDates hvalid hcomplete).mpr {
    frozenRoot := ⟨js "1", hreads.frozenRoot, hroot⟩
    issuerId := hreads.issuerId ▸ hissuer
    issuerIdHex := hreads.issuerId ▸ hreads.issuerIdHex
    credentialEpoch := hreads.credentialEpoch ▸ hepoch
    credentialTtlMs := ⟨1000, hreads.credentialTtlMs, le_rfl, by decide⟩
    upperBound := ⟨1, by
      rw [hreads.upperBound]
      exact ⟨hbound.1, hbound.2, by decide⟩⟩
    registryAddress := hreads.registryAddress
    referenda := hreads.referenda }⟩

/-- The manifest with the open registry is accepted as a complete one and does not configure the runtime. -/
theorem open_manifest_configures_nothing : ∃ manifest : Manifest,
    validatePassportV2DeploymentManifest (completePlatform false) manifest = .ok () ∧
    assertCompletePassportV2DeploymentManifest (completePlatform false) manifest.record manifest.digestInput = .ok () ∧
    ¬Configures (completePlatform false) Catalog.isoDates manifest := by
  obtain ⟨manifest, hvalue, hvalid, hcomplete, -⟩ := completeManifest false
  refine ⟨manifest, hvalid, hcomplete, fun hconfigures ↦ ?_⟩
  obtain ⟨root, hroot, -⟩ := (configurable_of_configures Catalog.isoDates hvalid hcomplete hconfigures).frozenRoot
  rw [(sampleReads_of_value hvalue).frozenRoot] at hroot
  cases hroot

end MidnightReferendum.Deployment
