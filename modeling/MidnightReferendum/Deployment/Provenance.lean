import MidnightReferendum.Deployment.RoundTrip
import MidnightReferendum.Passport.CatalogPolicy

/-!
# Where the later roots come from

A complete manifest has, for every accepted root but the initial one, a step that publishes it on the referendum and a step
that attests it on the registry, in another transaction that the first one names.
-/

namespace MidnightReferendum.Deployment

open Js Checks Cico

variable (p : Platform)

/-! ## Evidence -/

/-- A step of the transcript that took effect, with a receipt of the contract, for the root. -/
structure RecordedOn (id : StepId) (contractAddress root : JsString) (step : DeploymentStep) (receipt : CanonicalReceipt) :
    Prop where
  id_eq : step.id = id
  done : step.status = .confirmed ∨ step.status = .reconciled
  receipt_eq : step.receipt = some receipt
  contract : stripHexPrefix p receipt.contractAddress = stripHexPrefix p contractAddress
  root_eq : step.rootField = some root

/-- A root that is published on one contract and attested on the other, in two transactions. -/
structure AdmittedBy (contractAddress registryContractAddress root : JsString) (publish attest : DeploymentStep)
    (publishReceipt attestReceipt : CanonicalReceipt) : Prop where
  published : RecordedOn p .referendumPublishRoot contractAddress root publish publishReceipt
  attested : RecordedOn p .registryAttest registryContractAddress root attest attestReceipt
  named : publish.attestationTransactionId = some attestReceipt.transactionId
  separate : attestReceipt.transactionId ≠ publishReceipt.transactionId
  published_id : publishReceipt.transactionId ≠ []
  attested_id : ¬isBlank attestReceipt.transactionId

/-- The transcript has the evidence for a root of a referendum. -/
def Provenance (steps : List DeploymentStep) (referendum : ManifestReferendum) (root : JsString) : Prop :=
  ∃ contractAddress registryContractAddress, referendum.contractAddress = some contractAddress ∧
    referendum.registryContractAddress = some registryContractAddress ∧
    ∃ publish ∈ steps, ∃ attest ∈ steps, ∃ publishReceipt attestReceipt,
      AdmittedBy p contractAddress registryContractAddress root publish attest publishReceipt attestReceipt

/-! ## The search -/

variable {p}

theorem assertAll_eq_ok {α : Type} {assert : α → Except JsString Unit} {items : List α} {u : Unit} :
    assertAll assert items = .ok u ↔ ∀ item ∈ items, assert item = .ok () := by
  induction items with
  | nil => exact ⟨fun _ item hitem ↦ (by cases hitem), fun _ ↦ rfl⟩
  | cons item items ih =>
    rw [assertAll, bind_eq_ok, List.forall_mem_cons]
    constructor
    · rintro ⟨_, hitem, hitems⟩
      exact ⟨hitem, ih.mp hitems⟩
    · rintro ⟨hitem, hitems⟩
      exact ⟨(), hitem, ih.mpr hitems⟩

theorem requireText_eq_ok {value : Option JsString} {message text : JsString} :
    requireText value message = .ok text ↔ value = some text ∧ text ≠ [] := by
  rcases value with _ | _ | ⟨u, rest⟩
  · simp [requireText]
  · simp only [requireText, Option.some.injEq, reduceCtorEq, ne_eq, false_iff, not_and, not_not]
    exact fun h ↦ h.symm
  · simp only [requireText, Except.ok.injEq, Option.some.injEq, iff_self_and]
    rintro rfl
    exact List.cons_ne_nil u rest

theorem recordedOn_of_publishes {step : DeploymentStep} {contractAddress root : JsString}
    (h : step.publishes p contractAddress root = true) :
    ∃ receipt, RecordedOn p .referendumPublishRoot contractAddress root step receipt := by
  simp only [DeploymentStep.publishes, DeploymentStep.isDone, DeploymentStep.isOn, Bool.and_eq_true, Bool.or_eq_true,
    decide_eq_true_eq, Option.any_eq_true] at h
  obtain ⟨⟨⟨hid, hdone⟩, receipt, hreceipt, hcontract⟩, hroot⟩ := h
  exact ⟨receipt, hid, hdone, hreceipt, hcontract, hroot⟩

theorem recordedOn_of_attests {step : DeploymentStep} {transactionId registryContractAddress root : JsString}
    (h : step.attests p transactionId registryContractAddress root = true) :
    ∃ receipt, RecordedOn p .registryAttest registryContractAddress root step receipt ∧
      receipt.transactionId = transactionId := by
  simp only [DeploymentStep.attests, DeploymentStep.isDone, DeploymentStep.isOn, Bool.and_eq_true, Bool.or_eq_true,
    decide_eq_true_eq, Option.any_eq_true] at h
  obtain ⟨⟨⟨⟨hid, hdone⟩, receipt, hreceipt, htransaction⟩, other, hother, hcontract⟩, hroot⟩ := h
  obtain rfl : receipt = other := Option.some.inj (hreceipt.symm.trans hother)
  exact ⟨receipt, ⟨hid, hdone, hreceipt, hcontract, hroot⟩, htransaction⟩

variable {steps : List DeploymentStep} {referendumId contractAddress registryContractAddress root : JsString}

/-- What the search for a publish step finds, when it goes on. -/
theorem published_of_ok {attestationId : JsString}
    (h : assertPublished p steps referendumId contractAddress root = .ok attestationId) :
    ∃ publish ∈ steps, ∃ receipt, RecordedOn p .referendumPublishRoot contractAddress root publish receipt ∧
      receipt.transactionId ≠ [] ∧ publish.attestationTransactionId = some attestationId ∧ ¬isBlank attestationId ∧
      attestationId ≠ receipt.transactionId := by
  obtain ⟨receiptId, hreceiptId, hchecks⟩ := bind_eq_ok.mp h
  obtain ⟨hblank, hchecks⟩ := check_bind_eq_ok.mp hchecks
  obtain ⟨hseparate, hattestation⟩ := check_bind_eq_ok.mp hchecks
  obtain ⟨hfound, hnonempty⟩ := requireText_eq_ok.mp hreceiptId
  cases hfind : steps.find? fun step ↦ step.publishes p contractAddress root with
  | none =>
    rw [hfind] at hfound
    cases hfound
  | some publish =>
    rw [hfind, Option.bind_some] at hfound hblank hseparate hattestation
    have hpublishes : publish.publishes p contractAddress root = true := by
      have hsome := List.find?_some hfind
      exact hsome
    obtain ⟨receipt, hrecorded⟩ := recordedOn_of_publishes hpublishes
    rw [hrecorded.receipt_eq] at hfound
    obtain rfl : receipt.transactionId = receiptId := Option.some.inj hfound
    obtain rfl : publish.attestationTransactionId.getD [] = attestationId := Except.ok.inj hattestation
    refine ⟨publish, List.mem_of_find?_eq_some hfind, receipt, hrecorded, hnonempty, ?_, hblank, hseparate⟩
    cases hnamed : publish.attestationTransactionId with
    | none =>
      rw [hnamed] at hblank
      exact absurd rfl hblank
    | some id => rfl

theorem admitted_of_ok (h : assertProvenance p steps referendumId contractAddress registryContractAddress root = .ok ()) :
    ∃ publish ∈ steps, ∃ attest ∈ steps, ∃ publishReceipt attestReceipt,
      AdmittedBy p contractAddress registryContractAddress root publish attest publishReceipt attestReceipt := by
  obtain ⟨attestationId, hpublished, hattest⟩ := bind_eq_ok.mp h
  obtain ⟨publish, hpublish, publishReceipt, hrecorded, hid, hnamed, hblank, hseparate⟩ := published_of_ok hpublished
  obtain ⟨attest, hmem, hattests⟩ := List.any_eq_true.mp (check_eq_ok.mp hattest)
  obtain ⟨attestReceipt, hattested, rfl⟩ := recordedOn_of_attests hattests
  exact ⟨publish, hpublish, attest, hmem, publishReceipt, attestReceipt, hrecorded, hattested, hnamed, hseparate, hid,
    hblank⟩

theorem provenance_of_ok {referendum : ManifestReferendum} (h : assertReferendumRoots p steps referendum = .ok ())
    {root : JsString} (hroot : root ∈ referendum.nonInitialRoots) : Provenance p steps referendum root := by
  obtain ⟨contractAddress, hcontract, h⟩ := bind_eq_ok.mp h
  obtain ⟨binding, -, h⟩ := bind_eq_ok.mp h
  obtain ⟨_, -, h⟩ := bind_eq_ok.mp h
  obtain ⟨registryContractAddress, hregistry, h⟩ := bind_eq_ok.mp h
  obtain ⟨_, -, hroots⟩ := bind_eq_ok.mp h
  exact ⟨contractAddress, registryContractAddress, (requireText_eq_ok.mp hcontract).1,
    (requireText_eq_ok.mp hregistry).1, admitted_of_ok (assertAll_eq_ok.mp hroots root hroot)⟩

theorem roots_of_complete {manifest : DeploymentManifest} {digestInput : JsString}
    (h : assertCompletePassportV2DeploymentManifest p manifest digestInput = .ok ()) :
    assertAll (assertReferendumRoots p manifest.steps) manifest.referenda = .ok () := by
  obtain ⟨_, -, h⟩ := bind_eq_ok.mp h
  obtain ⟨_, -, h⟩ := bind_eq_ok.mp h
  obtain ⟨_, -, h⟩ := bind_eq_ok.mp h
  obtain ⟨_, -, h⟩ := bind_eq_ok.mp h
  obtain ⟨_, -, h⟩ := bind_eq_ok.mp h
  obtain ⟨_, hroots, -⟩ := bind_eq_ok.mp h
  exact hroots

/-- Every later root of a complete manifest was published on its referendum and attested on the registry. -/
theorem complete_provenance {manifest : Manifest}
    (h : assertCompletePassportV2DeploymentManifest p manifest.record manifest.digestInput = .ok ()) :
    ∀ referendum ∈ manifest.record.referenda, ∀ root ∈ referendum.acceptedRoots, root ≠ referendum.initialRootField →
      Provenance p manifest.record.steps referendum root := by
  intro referendum hreferendum root hroot hinitial
  have hroots := assertAll_eq_ok.mp (roots_of_complete h) referendum hreferendum
  exact provenance_of_ok hroots (List.mem_filter.mpr ⟨hroot, decide_eq_true hinitial⟩)

/-! ## Two complete manifests -/

/-- The SHA-256 hash of the text for the action `a`. -/
def actionIdDigest : List UInt8 :=
  [0x0e, 0x23, 0x68, 0x3c, 0x3c, 0x5f, 0x1c, 0x33, 0xc8, 0xf0, 0xd4, 0x88, 0x0a, 0x32, 0x4f, 0x49,
    0xb4, 0x14, 0x34, 0x02, 0x3f, 0x5a, 0x06, 0x1b, 0x72, 0xf4, 0x03, 0xa7, 0x2d, 0x66, 0x25, 0x66]

/-- The SHA-256 hashes of the digest inputs of the two manifests. -/
def manifestDigest (frozen : Bool) : List UInt8 :=
  if frozen then
    [0x9a, 0xcb, 0x9d, 0x6e, 0xf5, 0xf7, 0x76, 0x60, 0x91, 0x82, 0x01, 0x88, 0xab, 0x06, 0xe9, 0xbe,
    0x95, 0x0e, 0x6d, 0x4e, 0x33, 0x2b, 0x7f, 0xbc, 0x07, 0x24, 0x0f, 0xd9, 0x75, 0x30, 0x90, 0xaa]
  else
    [0x5c, 0xf6, 0xef, 0xc4, 0x03, 0x25, 0x4f, 0xc0, 0xb0, 0x17, 0x7d, 0x42, 0x8c, 0xbb, 0xf4, 0xd5,
    0xba, 0xe5, 0xb4, 0x31, 0x26, 0xa4, 0x28, 0xd2, 0x3a, 0xe2, 0x11, 0x9c, 0x6d, 0xe4, 0xcf, 0x94]

/-- The functions on the texts of the sample: that for the action begins with an `m`, the other one with a brace. -/
def completePlatform (frozen : Bool) : Platform where
  sha256 bytes := if bytes.head? = some 0x6D then actionIdDigest else manifestDigest frozen
  persistentHash _ := Catalog.sampleBinding
  parseUrl value := if value = js "http://localhost" then some localUrl else none
  parseDate := parseISOString
  toLowerCase := lowerHex

def registryAddress : JsValue := .string (sampleHex 0x31)

def referendumAddress : JsValue := .string (sampleHex 0x36)

def bindingHex : JsValue := .string (bytesToHex Catalog.sampleBinding.toList)

def sampleReceipt (action circuit transactionId : String) (contractAddress : JsValue) : JsValue :=
  .object [
    (js "status", sampleText "confirmed"),
    (js "action", sampleText action),
    (js "network", sampleText "undeployed"),
    (js "transactionId", sampleText transactionId),
    (js "transactionHash", sampleText "h"),
    (js "contractAddress", contractAddress),
    (js "circuit", sampleText circuit),
    (js "blockHeight", .number (some 1)),
    (js "blockHash", sampleText "b"),
    (js "blockTimestamp", sampleText "t")]

def sampleStep (id : StepId) (status : StepStatus) (more : List (JsString × JsValue)) : JsValue :=
  .object ([
    (js "id", sampleText id.name),
    (js "status", sampleText status.name),
    (js "completedAt", sampleText "t")] ++ more)

/-- The transactions of the lifecycle. -/
def sampleLifecycle : List (StepId × String) :=
  [(.lifecycleCast, "1"), (.lifecycleClose, "2"), (.lifecycleReveal, "3"), (.lifecycleFinalize, "4")]

/-- The second root is published under a circuit of another name, as in a test of the validator. -/
def rootSteps : List JsValue :=
  [sampleStep .referendumPublishRoot .confirmed [
      (js "receipt", sampleReceipt "vote" "publishRoot" "5" referendumAddress),
      (js "details", .object [(js "rootField", sampleText "2")]),
      (js "attestationTransactionId", sampleText "6")],
    sampleStep .registryAttest .confirmed [
      (js "receipt", sampleReceipt "credential" "attestCurrentRoot" "6" registryAddress),
      (js "details", .object [(js "rootField", sampleText "2")])]]

def sampleSteps (frozen : Bool) : List JsValue :=
  [sampleStep .registryDeploy .confirmed [], sampleStep .registryIssue .confirmed []] ++
    (if frozen then [sampleStep .registryFreeze .confirmed []] else rootSteps) ++
    [sampleStep .referendumDeploy .confirmed [], sampleStep .lifecycleReplayRejected .rejected []] ++
    sampleLifecycle.map fun step ↦ sampleStep step.1 .confirmed [
      (js "receipt", sampleReceipt "vote" (expectedCircuit step.1) step.2 referendumAddress)]

def sampleObservation (stage : StepId) (more : List (JsString × JsValue)) : JsValue :=
  .object ([
    (js "stage", sampleText stage.name),
    (js "observedAt", sampleText "t"),
    (js "indexer", .object [(js "available", .bool true), (js "source", sampleText "http://localhost")])] ++ more)

def sampleRegistry (frozen : Bool) : JsValue :=
  .object [
    (js "contractAddress", registryAddress),
    (js "registryContractBindingHex", bindingHex),
    (js "registryIdHex", .string (sampleHex 0x34)),
    (js "issuerId", sampleText "i"),
    (js "issuerIdHex", .string (js "69" ++ List.replicate 62 0x30)),
    (js "credentialEpoch", sampleText "1"),
    (js "currentRootField", sampleText "1"),
    (js "frozenRootField", if frozen then sampleText "1" else .null),
    (js "credentialCount", sampleText "1"),
    (js "frozen", .bool frozen),
    (js "enrollmentModel", if frozen then sampleText "frozen" else sampleText "open")]

/-- A complete manifest with a frozen registry and one root, or with an open one and a second root. -/
def completeValue (frozen : Bool) : JsValue :=
  .object [
    (js "kind", sampleText "midnight-passport-v2-runtime"),
    (js "version", .number (some 3)),
    (js "status", sampleText "complete"),
    (js "network", sampleText "undeployed"),
    (js "networkId", sampleText "undeployed"),
    (js "generatedAt", sampleText "g"),
    (js "source", .object (["commit", "tree"].map fun name ↦ (js name, .string (List.replicate 40 0x31)))),
    (js "services", .object (["api", "relayer", "node", "indexer", "proofServer", "lockfile"].map fun name ↦
      (js name, .object [(js "version", sampleText "1"), (js "hash", .string (sampleHex 0x31))]))),
    (js "runtime", sampleRuntime),
    (js "artifacts", sampleArtifacts [(js "hashes", .object [(js "registry", .string (sampleHex 0x31))])]),
    (js "endpoints", .object ((["nodeRpc", "indexerHttp", "indexerWs", "proofServer", "relay"].map fun name ↦
      (js name, sampleText "http://localhost")) ++ [(js "explorer", .null)])),
    (js "dust", .object ([
      (js "before", sampleText "2"), (js "after", sampleText "1"), (js "spent", sampleText "1")] ++
      (["beforeObservedAt", "afterObservedAt", "valuationAt"].map fun name ↦
        (js name, sampleText "2026-01-01T00:00:00.000Z")) ++ [(js "accounted", .bool true)])),
    (js "submissionTransport", sampleText "v2-actions"),
    (js "action", .object ([
      (js "actionId", sampleText "a"), (js "actionIdDigest", .string (bytesToHex actionIdDigest))] ++
      (["idempotencyKeyDigest", "requestHash", "txDigest", "capabilityDigest"].map fun name ↦
        (js name, .string (sampleHex 0x31))) ++
      [(js "transactionId", sampleText "1"), (js "status", sampleText "confirmed")])),
    (js "relay", .object ([
      (js "submissionTransport", sampleText "v2-actions"), (js "durableStore", sampleText "postgresql"),
      (js "legacyApiEnabled", .bool false), (js "states", .array (requiredRelayStates.map .string))] ++
      (["accepted", "duplicateResolved", "concurrentIdempotent", "restartRecovered"].map fun name ↦
        (js name, .bool true)))),
    (js "lifecycle", .object ([
      (js "castTransactionId", sampleText "1"), (js "closeTransactionId", sampleText "2"),
      (js "revealTransactionId", sampleText "3"), (js "finalizeTransactionId", sampleText "4"),
      (js "replayRejected", .bool true), (js "finalized", .bool true), (js "indexerObservations", .number (some 4))])),
    (js "registry", sampleRegistry frozen),
    (js "referenda", .array [sampleReferendum referendumAddress bindingHex registryAddress
      (if frozen then [sampleText "1"] else [sampleText "1", sampleText "2"]) []]),
    (js "transcript", .object [
      (js "steps", .array (sampleSteps frozen)),
      (js "observations", .array (sampleObservation .lifecycleReplayRejected [] ::
        sampleLifecycle.map fun step ↦ sampleObservation step.1 [(js "transactionId", sampleText step.2)]))]),
    (js "manifestDigest", .string (bytesToHex (manifestDigest frozen)))]

/-- There is a later root, and no receipt is one of `publishCredentialRoot`. -/
def hasForeignCircuit (record : DeploymentManifest) : Bool :=
  record.referenda.any (fun referendum ↦ referendum.acceptedRoots.any fun root ↦ root ≠ referendum.initialRootField) &&
    record.steps.all fun step ↦ step.receipt.all fun receipt ↦ receipt.circuit ≠ js "publishCredentialRoot"

/-- The value is a manifest that is accepted as a complete one, and with an open registry it has such a root. -/
def isComplete (frozen : Bool) : Bool :=
  (completeValue frozen).isValid && (deploymentManifest (completeValue frozen)).any fun record ↦
    decide (assertNoPrivateManifestFields (completePlatform frozen) (completeValue frozen) = .ok ()) &&
      decide (assertRecord (completePlatform frozen) record = .ok ()) &&
      decide (assertCompletePassportV2DeploymentManifest (completePlatform frozen) record
        ((completeValue frozen).without (js "manifestDigest")).stableJson = .ok ()) &&
      (frozen || hasForeignCircuit record)

theorem isComplete_eq : ∀ frozen, isComplete frozen = true := by
  decide +kernel

theorem completeManifest (frozen : Bool) : ∃ manifest : Manifest, manifest.value = completeValue frozen ∧
    validatePassportV2DeploymentManifest (completePlatform frozen) manifest = .ok () ∧
    assertCompletePassportV2DeploymentManifest (completePlatform frozen) manifest.record manifest.digestInput = .ok () ∧
    (frozen = false → hasForeignCircuit manifest.record = true) := by
  obtain ⟨hvalid, hrecord⟩ := (Bool.and_eq_true _ _).mp (isComplete_eq frozen)
  obtain ⟨record, hreads, hchecks⟩ := (Option.any_eq_true _ _).mp hrecord
  simp only [Bool.and_eq_true, decide_eq_true_eq] at hchecks
  obtain ⟨⟨⟨hnames, hpass⟩, hcomplete⟩, hforeign⟩ := hchecks
  let manifest : Manifest := ⟨completeValue frozen, JsValue.valid_of_isValid hvalid, record, hreads⟩
  have hdigest : manifest.digestInput = ((completeValue frozen).without (js "manifestDigest")).stableJson := rfl
  have hvalidate : validatePassportV2DeploymentManifest (completePlatform frozen) manifest = .ok () := by
    rw [validatePassportV2DeploymentManifest, hnames, hpass, hdigest]
    change (if record.status = .complete then _ else _) = _
    rw [hcomplete]
    split <;> rfl
  refine ⟨manifest, rfl, hvalidate, hcomplete, fun hopen ↦ ?_⟩
  rw [hopen] at hforeign
  exact hforeign

theorem complete_provenance_open : ∃ manifest : Manifest, manifest.value = completeValue false ∧
    ∀ referendum ∈ manifest.record.referenda, ∀ root ∈ referendum.acceptedRoots, root ≠ referendum.initialRootField →
      Provenance (completePlatform false) manifest.record.steps referendum root := by
  obtain ⟨manifest, hvalue, -, hcomplete, -⟩ := completeManifest false
  exact ⟨manifest, hvalue, complete_provenance hcomplete⟩

/-- A confirmed canonical receipt of a call on the network -/
structure IsCallOf (network : RuntimeConfig.RuntimeNetwork) (circuit : String) (receipt : CanonicalReceipt) : Prop where
  canonical : sanitizeCanonicalReceipt receipt = .ok receipt
  network_eq : receipt.network = js (networkName network)
  circuit_eq : receipt.circuit = js circuit

/-- The receipts of a later root are those of the two calls. -/
def ProvenByCalls (p : Platform) (manifest : DeploymentManifest) : Prop :=
  ∀ referendum ∈ manifest.referenda, ∀ root ∈ referendum.acceptedRoots, root ≠ referendum.initialRootField →
    ∃ contractAddress registryContractAddress, referendum.contractAddress = some contractAddress ∧
      referendum.registryContractAddress = some registryContractAddress ∧
      ∃ publish ∈ manifest.steps, ∃ attest ∈ manifest.steps, ∃ publishReceipt attestReceipt,
        AdmittedBy p contractAddress registryContractAddress root publish attest publishReceipt attestReceipt ∧
        IsCallOf manifest.network "publishCredentialRoot" publishReceipt ∧
        IsCallOf manifest.network "attestCurrentRoot" attestReceipt

/-- No attestation transaction serves two roots. -/
def OneRootEach (manifest : DeploymentManifest) : Prop :=
  ∀ attest ∈ manifest.steps, ∀ attest' ∈ manifest.steps, attest.id = .registryAttest → attest'.id = .registryAttest →
    attest.receipt.map CanonicalReceipt.transactionId = attest'.receipt.map CanonicalReceipt.transactionId →
      attest.rootField = attest'.rootField

/-- The check accepts a publish step whose receipt is of no circuit of the contract. -/
theorem foreign_circuit_accepted : ∃ manifest : Manifest,
    assertCompletePassportV2DeploymentManifest (completePlatform false) manifest.record manifest.digestInput = .ok () ∧
      ¬(ProvenByCalls (completePlatform false) manifest.record ∧ OneRootEach manifest.record) := by
  obtain ⟨manifest, -, -, hcomplete, hforeign⟩ := completeManifest false
  obtain ⟨hlater, hcircuits⟩ := (Bool.and_eq_true _ _).mp (hforeign rfl)
  obtain ⟨referendum, hreferendum, hroots⟩ := List.any_eq_true.mp hlater
  obtain ⟨root, hroot, hinitial⟩ := List.any_eq_true.mp hroots
  refine ⟨manifest, hcomplete, fun hproven ↦ ?_⟩
  obtain ⟨_, _, -, -, publish, hpublish, _, -, receipt, _, hadmitted, hcall, -⟩ :=
    hproven.1 referendum hreferendum root hroot (of_decide_eq_true hinitial)
  have hcircuit := List.all_eq_true.mp hcircuits publish hpublish
  rw [hadmitted.published.receipt_eq] at hcircuit
  exact of_decide_eq_true hcircuit hcall.circuit_eq

end MidnightReferendum.Deployment
