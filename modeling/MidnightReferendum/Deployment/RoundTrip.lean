import MidnightReferendum.Deployment.CompleteManifest

/-!
# The manifest in its file

A manifest is written as JSON and its digest is taken of another text, in which a field that is `undefined` has a place. The
file keeps the digest input if and only if no field but the digest itself is `undefined`.
-/

namespace MidnightReferendum.Deployment

open Js Reader Checks

/-! ## Records -/

instance : Keeps stepId := inferInstanceAs (Keeps (named _ _))

instance : Keeps stepStatus := inferInstanceAs (Keeps (named _ _))

instance : Keeps network := inferInstanceAs (Keeps (named _ _))

instance : Keeps manifestStatus := inferInstanceAs (Keeps (named _ _))

instance : Keeps canonicalReceipt := by
  unfold canonicalReceipt
  infer_instance

/-- Whatever is no text reads as no root. -/
instance : Keeps rootField where
  keeps v a hread := by
    have hfield : field "rootField" text v.finite = field "rootField" text v := by
      rw [field, field, JsValue.get_finite]
      cases v.get (js "rootField") with
      | number value => cases value <;> rfl
      | _ => rfl
    rw [rootField, hfield]
    exact hread

instance : Keeps deploymentStep := by
  unfold deploymentStep
  infer_instance

instance : Keeps manifestRuntime := by
  unfold manifestRuntime
  infer_instance

theorem finite_without (v : JsValue) (name : JsString) : (v.without name).finite = v.finite.without name := by
  cases v with
  | object fields =>
    rw [JsValue.without, JsValue.finite, JsValue.finite, JsValue.without, JsValue.finiteFields_eq,
      JsValue.finiteFields_eq, List.filter_map]
    rfl
  | number value => cases value <;> rfl
  | _ => rfl

instance : Keeps artifactTexts where
  keeps v a hread := by
    rw [artifactTexts, ← finite_without]
    exact Keeps.keeps _ a hread

instance : Keeps manifestArtifacts := by
  unfold manifestArtifacts
  infer_instance

instance : Keeps manifestSource := by
  unfold manifestSource
  infer_instance

instance : Keeps manifestServiceVersion := by
  unfold manifestServiceVersion
  infer_instance

instance : Keeps manifestActionEvidence := by
  unfold manifestActionEvidence
  infer_instance

instance : Keeps manifestRelayEvidence := by
  unfold manifestRelayEvidence
  infer_instance

instance : Keeps manifestLifecycleEvidence := by
  unfold manifestLifecycleEvidence
  infer_instance

instance : Keeps manifestEndpoints := by
  unfold manifestEndpoints
  infer_instance

instance : Keeps registryObservation := by
  unfold registryObservation
  infer_instance

instance : Keeps referendumObservation := by
  unfold referendumObservation
  infer_instance

instance : Keeps manifestObservation := by
  unfold manifestObservation
  infer_instance

instance : Keeps manifestDust := by
  unfold manifestDust
  infer_instance

instance : Keeps manifestRegistry := by
  unfold manifestRegistry
  infer_instance

instance : Keeps manifestReferendum := by
  unfold manifestReferendum
  infer_instance

set_option synthInstance.maxSize 1000 in
instance : Keeps deploymentManifest := by
  unfold deploymentManifest
  infer_instance

/-- The reader sees nothing of a manifest but its fields. -/
theorem deploymentManifest_congr {v w : JsValue} (h : ∀ name, v.get name = w.get name) :
    deploymentManifest v = deploymentManifest w := by
  simp only [deploymentManifest, field, h]

/-! ## The file -/

variable (p : Platform) (manifest : Manifest)

/-- A digest is a text, or it is not there. -/
theorem Manifest.digest_defined :
    manifest.value.get (js "manifestDigest") = .undefined ∨ (manifest.value.get (js "manifestDigest")).Defined := by
  cases hdigest : manifest.value.get (js "manifestDigest") with
  | undefined => exact Or.inl rfl
  | string value => exact Or.inr (.string value)
  | _ =>
    have hnone : field "manifestDigest" (optional text) manifest.value = none := by
      rw [field, hdigest]
      rfl
    have hreads := manifest.reads
    simp only [deploymentManifest, hnone, Option.bind_eq_bind, Option.bind_none, Option.bind_fun_none] at hreads
    cases hreads

theorem Manifest.get_reparsed (h : (manifest.value.without (js "manifestDigest")).Defined) (name : JsString) :
    manifest.value.reparsed.get name = manifest.value.finite.get name := by
  rw [JsValue.get_finite]
  apply JsValue.get_reparsed manifest.valid
  by_cases hname : name = js "manifestDigest"
  · rw [hname]
    exact manifest.digest_defined
  · exact JsValue.defined_get h hname

theorem Manifest.reads_reparsed (h : (manifest.value.without (js "manifestDigest")).Defined) :
    deploymentManifest manifest.value.reparsed = some manifest.record := by
  rw [deploymentManifest_congr (manifest.get_reparsed h)]
  exact Keeps.keeps manifest.value manifest.record manifest.reads

/-- The manifest that comes back from its file. -/
def Manifest.reparsed (h : (manifest.value.without (js "manifestDigest")).Defined) : Manifest where
  value := manifest.value.reparsed
  valid := manifest.valid.reparsed
  record := manifest.record
  reads := manifest.reads_reparsed h

theorem Manifest.digestInput_reparsed (h : (manifest.value.without (js "manifestDigest")).Defined) :
    (manifest.reparsed h).digestInput = manifest.digestInput := by
  rw [digestInput, digestInput, reparsed, ← JsValue.reparsed_without, JsValue.stableJson_reparsed h]

theorem assertNoPrivateManifestFields_reparsed {v : JsValue} (h : assertNoPrivateManifestFields p v = .ok ()) :
    assertNoPrivateManifestFields p v.reparsed = .ok () := by
  have hnames := check_eq_ok.mp h
  apply check_of
  intro name hname
  exact hnames name ((JsValue.names_reparsed v).subset hname)

/-- What was accepted is accepted again, with the same record and the same digest input. -/
theorem validate_reparsed (hvalid : validatePassportV2DeploymentManifest p manifest = .ok ())
    (h : (manifest.value.without (js "manifestDigest")).Defined) :
    validatePassportV2DeploymentManifest p (manifest.reparsed h) = .ok () := by
  rw [validatePassportV2DeploymentManifest, bind_eq_ok] at hvalid ⊢
  obtain ⟨_, hnames, hrest⟩ := hvalid
  rw [manifest.digestInput_reparsed h]
  exact ⟨(), assertNoPrivateManifestFields_reparsed p hnames, hrest⟩

theorem serialize_eq_ok {text : JsString} :
    serializePassportV2DeploymentManifest p manifest = .ok text ↔
      validatePassportV2DeploymentManifest p manifest = .ok () ∧ manifest.value.toJson.pretty 0 ++ [0x0A] = text := by
  rw [serializePassportV2DeploymentManifest, bind_eq_ok]
  constructor
  · rintro ⟨_, hvalid, htext⟩
    exact ⟨hvalid, Except.ok.inj htext⟩
  · rintro ⟨hvalid, rfl⟩
    exact ⟨(), hvalid, rfl⟩

/-- What is parsed from the text of the manifest is a manifest that is accepted too, has the same digest input and is
written as the same text. -/
def RoundTrips (text : JsString) : Prop :=
  ∃ manifest' : Manifest, (Json.parse text).map JsValue.ofJson = some manifest'.value ∧
    validatePassportV2DeploymentManifest p manifest' = .ok () ∧ manifest'.digestInput = manifest.digestInput ∧
    serializePassportV2DeploymentManifest p manifest' = .ok text

/-- The digest inputs have different lengths when a field is `undefined`. -/
theorem defined_of_roundTrips {text : JsString} (h : serializePassportV2DeploymentManifest p manifest = .ok text)
    (hround : RoundTrips p manifest text) : (manifest.value.without (js "manifestDigest")).Defined := by
  obtain ⟨-, rfl⟩ := (serialize_eq_ok p manifest).mp h
  obtain ⟨manifest', hvalue, -, hinput, -⟩ := hround
  have heq := Option.some.inj ((JsValue.parse_pretty manifest.valid).symm.trans hvalue)
  rw [Manifest.digestInput, Manifest.digestInput, ← heq, ← JsValue.reparsed_without] at hinput
  exact (manifest.valid.without _).stableJson_reparsed_iff.mp hinput

theorem roundTrips_of_defined {text : JsString} (h : serializePassportV2DeploymentManifest p manifest = .ok text)
    (hdefined : (manifest.value.without (js "manifestDigest")).Defined) : RoundTrips p manifest text := by
  obtain ⟨hvalid, rfl⟩ := (serialize_eq_ok p manifest).mp h
  have hvalid' := validate_reparsed p manifest hvalid hdefined
  have htext : (manifest.reparsed hdefined).value.toJson = manifest.value.toJson :=
    JsValue.toJson_ofJson manifest.valid.toJson
  refine ⟨manifest.reparsed hdefined, JsValue.parse_pretty manifest.valid, hvalid',
    manifest.digestInput_reparsed hdefined, ?_⟩
  rw [serialize_eq_ok, htext]
  exact ⟨hvalid', rfl⟩

/-- The file of a manifest gives the manifest back if and only if none of its fields but the digest is `undefined`. -/
theorem roundTrips_iff {text : JsString} (h : serializePassportV2DeploymentManifest p manifest = .ok text) :
    RoundTrips p manifest text ↔ (manifest.value.without (js "manifestDigest")).Defined :=
  ⟨defined_of_roundTrips p manifest h, roundTrips_of_defined p manifest h⟩

/-! ## A journal in progress -/

/-- `new URL` of a local origin -/
def localUrl : Url := ⟨js "http:", [], [], js "localhost", [], []⟩

/-- The functions on the texts of the sample, which asks for no hash and no date. -/
def samplePlatform : Platform where
  sha256 _ := []
  persistentHash _ := Vector.replicate 32 0
  parseUrl value := if value = js "http://localhost" then some localUrl else none
  parseDate _ := none
  toLowerCase := lowerHex

def sampleText (text : String) : JsValue := .string (js text)

def sampleHex (digit : UInt16) : JsString := List.replicate 64 digit

/-- A referendum with its contract, the binding and the address of the registry, its roots and more fields. -/
def sampleReferendum (contractAddress binding registryContractAddress : JsValue) (acceptedRoots : List JsValue)
    (more : List (JsString × JsValue)) : JsValue :=
  .object ([
    (js "referendumId", sampleText "r"),
    (js "contractAddress", contractAddress),
    (js "registryContractBindingHex", binding),
    (js "registryContractAddress", registryContractAddress),
    (js "eventIdHex", .string (sampleHex 0x31)),
    (js "organizerKeyHex", .string (sampleHex 0x32)),
    (js "rootPublisherKeyHex", .string (sampleHex 0x33)),
    (js "initialRootField", sampleText "1"),
    (js "acceptedRoots", .array acceptedRoots),
    (js "opensAtUnix", sampleText "1"),
    (js "enrollmentClosesAtUnix", sampleText "2"),
    (js "closesAtUnix", sampleText "3"),
    (js "revealClosesAtUnix", sampleText "4"),
    (js "countryPolicy", .null),
    (js "minimumAssurance", sampleText "1"),
    (js "requireAdult", .bool false),
    (js "validityReference", sampleText "1"),
    (js "title", sampleText "t"),
    (js "question", sampleText "q")] ++ more)

def sampleArtifacts (more : List (JsString × JsValue)) : JsValue :=
  .object ((["compactLanguageVersion", "compactCompilerVersion", "compactRuntimeVersion", "midnightJsVersion",
    "ledgerVersion", "onchainRuntimeVersion", "registryArtifact", "referendumArtifact"].map fun name ↦
      (js name, sampleText "1")) ++ more)

def sampleRuntime : JsValue :=
  .object [
    (js "apiUrl", sampleText "http://localhost"),
    (js "credentialTtlMs", .number (some 1000)),
    (js "uniquenessTimestampUpperBoundUnixSeconds", sampleText "1")]

/-- A manifest with one referendum and more fields of it. -/
def sampleValue (more : List (JsString × JsValue)) : JsValue :=
  .object [
    (js "kind", sampleText "midnight-passport-v2-runtime"),
    (js "version", .number (some 3)),
    (js "status", sampleText "in-progress"),
    (js "network", sampleText "undeployed"),
    (js "networkId", sampleText "undeployed"),
    (js "generatedAt", sampleText "g"),
    (js "runtime", sampleRuntime),
    (js "artifacts", sampleArtifacts []),
    (js "endpoints", .object (["nodeRpc", "indexerHttp", "indexerWs", "proofServer", "relay", "explorer"].map fun name ↦
      (js name, .null))),
    (js "dust", .object ((["before", "after", "spent", "beforeObservedAt", "afterObservedAt", "valuationAt"].map fun name ↦
      (js name, .null)) ++ [(js "accounted", .bool false)])),
    (js "registry", .object [
      (js "contractAddress", .null),
      (js "registryContractBindingHex", .null),
      (js "registryIdHex", .string (sampleHex 0x34)),
      (js "issuerId", sampleText "i"),
      (js "issuerIdHex", .string (sampleHex 0x35)),
      (js "credentialEpoch", sampleText "1"),
      (js "currentRootField", .null),
      (js "frozenRootField", .null),
      (js "credentialCount", .null),
      (js "frozen", .bool false),
      (js "enrollmentModel", sampleText "open")]),
    (js "referenda", .array [sampleReferendum .null .null .null [sampleText "1"] more]),
    (js "transcript", .object [(js "steps", .array []), (js "observations", .array [])])]

/-- The optional description that is there with the value `undefined`. -/
def undescribed : List (JsString × JsValue) := [(js "description", .undefined)]

/-- The value is a manifest in progress, and the checks pass. -/
def accepts (value : JsValue) : Bool :=
  value.isValid && (deploymentManifest value).any fun record ↦
    decide (assertNoPrivateManifestFields samplePlatform value = .ok ()) &&
      decide (assertRecord samplePlatform record = .ok ()) && record.status ≠ .complete

theorem manifest_of_accepts {value : JsValue} (h : accepts value = true) :
    ∃ manifest : Manifest, manifest.value = value ∧
      serializePassportV2DeploymentManifest samplePlatform manifest = .ok (value.toJson.pretty 0 ++ [0x0A]) := by
  obtain ⟨hvalid, hrecord⟩ := (Bool.and_eq_true _ _).mp h
  obtain ⟨record, hreads, hchecks⟩ := (Option.any_eq_true _ _).mp hrecord
  simp only [Bool.and_eq_true, decide_eq_true_eq] at hchecks
  obtain ⟨⟨hnames, hpass⟩, hstatus⟩ := hchecks
  let manifest : Manifest := ⟨value, JsValue.valid_of_isValid hvalid, record, hreads⟩
  have hvalidate : validatePassportV2DeploymentManifest samplePlatform manifest = .ok () := by
    rw [validatePassportV2DeploymentManifest, hnames, hpass, if_neg hstatus]
    rfl
  exact ⟨manifest, rfl, (serialize_eq_ok samplePlatform manifest).mpr ⟨hvalidate, rfl⟩⟩

theorem accepts_sampleValue : ∀ more ∈ [[], undescribed], accepts (sampleValue more) = true := by
  decide +kernel

/-- The description `undefined` has a place in the digest input of the manifest, and none in that of its file. -/
theorem undescribed_lost : ∃ (manifest : Manifest) (text : JsString),
    serializePassportV2DeploymentManifest samplePlatform manifest = .ok text ∧ ¬RoundTrips samplePlatform manifest text := by
  obtain ⟨manifest, hvalue, htext⟩ := manifest_of_accepts
    (accepts_sampleValue undescribed (List.mem_cons_of_mem _ List.mem_cons_self))
  refine ⟨manifest, _, htext, fun hround ↦ ?_⟩
  have hdefined := defined_of_roundTrips samplePlatform manifest htext hround
  rw [hvalue] at hdefined
  revert hdefined
  decide +kernel

theorem roundTrips_iff_sample : ∃ (manifest : Manifest) (text : JsString),
    serializePassportV2DeploymentManifest samplePlatform manifest = .ok text ∧ RoundTrips samplePlatform manifest text := by
  obtain ⟨manifest, hvalue, htext⟩ := manifest_of_accepts (accepts_sampleValue [] List.mem_cons_self)
  have hdefined : (manifest.value.without (js "manifestDigest")).Defined := by
    rw [hvalue]
    decide +kernel
  exact ⟨manifest, _, htext, (roundTrips_iff samplePlatform manifest htext).mpr hdefined⟩

end MidnightReferendum.Deployment
