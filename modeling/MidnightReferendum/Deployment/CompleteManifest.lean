import MidnightReferendum.Deployment.ManifestChecks

/-!
# Checks of a complete manifest

`assertCompletePassportV2DeploymentManifest`, in the order of the source: the build and the services, the evidence of the
action and of the relay, the provenance of every later root, the transcript with its receipts and observations, and last the
digest, which is taken of the manifest without it.
-/

namespace MidnightReferendum.Deployment

open Js Checks Reader RuntimeConfig Cico

variable (p : Platform)

/-! ## Build and services -/

def assertServices (services : Option (List (JsString × ManifestServiceVersion))) : Except JsString Unit :=
  match services with
  | none => .error (js "Complete manifest is missing service versions and hashes")
  | some services =>
    assertAll (fun entry ↦ check (¬isBlank entry.2.version ∧ isHexOf 64 entry.2.hash)
      (js "Complete manifest is missing " ++ entry.1 ++ js " service version/hash")) services

def assertArtifactHashes (hashes : Option (List (JsString × JsString))) : Except JsString Unit :=
  match hashes with
  | none | some [] => .error (js "Complete manifest is missing artifact hashes")
  | some hashes =>
    assertAll (fun entry ↦ check (isHexOf 64 entry.2)
      (js "Complete manifest artifact hash " ++ entry.1 ++ js " is invalid")) hashes

def assertBuild (manifest : DeploymentManifest) : Except JsString Unit := do
  check (manifest.source.any fun source ↦ isHexOf 40 source.commit && isHexOf 40 source.tree)
    (js "Complete manifest is missing the source commit/tree identity")
  assertServices manifest.services
  assertArtifactHashes manifest.artifacts.hashes
  check (manifest.submissionTransport = some (js "v2-actions"))
    (js "Complete manifest must prove submissionTransport=v2-actions")

/-! ## Evidence of the action and of the relay -/

/-- The evidence has all of its texts and digests. -/
def ManifestActionEvidence.isWhole (action : ManifestActionEvidence) : Bool :=
  !isBlank action.actionId && !isBlank action.transactionId && action.status == js "confirmed" &&
    isHexOf 64 action.actionIdDigest && isHexOf 64 action.idempotencyKeyDigest && isHexOf 64 action.requestHash &&
    isHexOf 64 action.txDigest && isHexOf 64 action.capabilityDigest

def expectedActionIdDigest (actionId : JsString) : JsString :=
  bytesToHex (p.sha256 (encodeUtf8 (js "midnight-referendum:v2-action-id-digest:1:" ++ actionId)))

def assertAction (action : Option ManifestActionEvidence) : Except JsString ManifestActionEvidence :=
  match action with
  | none => .error (js "Complete manifest is missing atomic action/idempotency evidence")
  | some action => do
    check (action.isWhole) (js "Complete manifest is missing atomic action/idempotency evidence")
    check (action.actionIdDigest = expectedActionIdDigest p action.actionId)
      (js "Complete manifest action ID digest does not match its public action ID")
    return action

def requiredRelayStates : List JsString :=
  ["authorized", "validated", "dust_reserved", "finalized", "submitted", "indexer_pending", "confirmed"].map js

def ManifestRelayEvidence.isExact (relay : ManifestRelayEvidence) : Bool :=
  relay.submissionTransport == js "v2-actions" && relay.durableStore == js "postgresql" && !relay.legacyApiEnabled &&
    relay.accepted && relay.duplicateResolved && relay.concurrentIdempotent && relay.restartRecovered &&
    relay.states == requiredRelayStates

def assertRelay (relay : Option ManifestRelayEvidence) : Except JsString Unit :=
  check (relay.any ManifestRelayEvidence.isExact)
    (js "Complete manifest is missing the exact PostgreSQL relay policy/state/idempotency sequence")

/-! ## Registry and roots -/

/-- A text that has to be there and must not be empty. -/
def requireText (value : Option JsString) (message : JsString) : Except JsString JsString :=
  match value with
  | some (u :: rest) => .ok (u :: rest)
  | _ => .error message

def assertRegistrySnapshot (registry : ManifestRegistry) : Except JsString Unit := do
  let missing := js "Complete manifest is missing a registry snapshot"
  let _ ← requireText registry.contractAddress missing
  let binding ← requireText registry.registryContractBindingHex missing
  let currentRootField ← requireText registry.currentRootField missing
  let credentialCount ← requireText registry.credentialCount missing
  assertDecimal currentRootField (js "currentRootField")
  assertDecimal credentialCount (js "credentialCount")
  assertHex32 binding (js "registryContractBindingHex")
  if registry.enrollmentModel = js "frozen" then do
    let notFrozen := js "Complete manifest is missing a frozen registry snapshot"
    check (registry.frozen = true) notFrozen
    let frozenRootField ← requireText registry.frozenRootField notFrozen
    assertDecimal frozenRootField (js "frozenRootField")
  else
    check (registry.frozen = false ∧ truthy registry.frozenRootField = false)
      (js "Complete manifest with an open enrollmentModel must not be frozen")

/-- The step took effect on the chain. -/
def DeploymentStep.isDone (step : DeploymentStep) : Bool := step.status = .confirmed || step.status = .reconciled

/-- The receipt of the step is one of the contract. -/
def DeploymentStep.isOn (step : DeploymentStep) (contractAddress : JsString) : Bool :=
  step.receipt.any fun receipt ↦ stripHexPrefix p receipt.contractAddress = stripHexPrefix p contractAddress

def DeploymentStep.publishes (step : DeploymentStep) (contractAddress root : JsString) : Bool :=
  step.id = .referendumPublishRoot && step.isDone && step.isOn p contractAddress && step.rootField = some root

def DeploymentStep.attests (step : DeploymentStep) (transactionId registryContractAddress root : JsString) : Bool :=
  step.id = .registryAttest && step.isDone && step.receipt.any (fun receipt ↦ receipt.transactionId = transactionId) &&
    step.isOn p registryContractAddress && step.rootField = some root

/-- The transaction that a publish step names for its attestation. -/
def assertPublished (steps : List DeploymentStep) (referendumId contractAddress root : JsString) :
    Except JsString JsString := do
  let publishStep := steps.find? fun step ↦ step.publishes p contractAddress root
  let receiptId ← requireText ((publishStep.bind DeploymentStep.receipt).map CanonicalReceipt.transactionId)
    (js "Complete manifest is missing a referendum.publish-root transcript step for " ++ referendumId ++ js " root " ++
      root)
  let attestationId := (publishStep.bind DeploymentStep.attestationTransactionId).getD []
  let publishRootStep := js "Complete manifest " ++ referendumId ++ js " publish-root step for root " ++ root
  check (¬isBlank attestationId) (publishRootStep ++ js " is missing a registry.attest attestation")
  check (attestationId ≠ receiptId)
    (publishRootStep ++ js " attestation must be a separate registry.attest transaction, " ++
      js "not the publish-root transaction itself")
  return attestationId

def assertProvenance (steps : List DeploymentStep) (referendumId contractAddress registryContractAddress root : JsString) :
    Except JsString Unit := do
  let attestationId ← assertPublished p steps referendumId contractAddress root
  check (steps.any fun step ↦ step.attests p attestationId registryContractAddress root)
    (js "Complete manifest " ++ referendumId ++ js " root " ++ root ++
      js " has no matching registry.attest transcript step attesting that root on the registry")

def ManifestReferendum.nonInitialRoots (referendum : ManifestReferendum) : List JsString :=
  referendum.acceptedRoots.filter fun root ↦ root ≠ referendum.initialRootField

def assertReferendumRoots (steps : List DeploymentStep) (referendum : ManifestReferendum) : Except JsString Unit := do
  let id := referendum.referendumId
  let missing := js "Complete manifest is missing " ++ id
  let contractAddress ← requireText referendum.contractAddress (missing ++ js " address")
  let binding ← requireText referendum.registryContractBindingHex (missing ++ js " registry binding")
  assertHex32 binding (id ++ js " registryContractBindingHex")
  let registryContractAddress ←
    requireText referendum.registryContractAddress (missing ++ js " registryContractAddress")
  assertHex32 registryContractAddress (id ++ js " registryContractAddress")
  assertAll (assertProvenance p steps id contractAddress registryContractAddress) referendum.nonInitialRoots

/-! ## Transcript -/

def requiredStepIds (registry : ManifestRegistry) : List StepId :=
  [.registryDeploy, .registryIssue] ++
    (if registry.enrollmentModel = js "frozen" then [.registryFreeze] else []) ++
    [.referendumDeploy, .lifecycleCast, .lifecycleReplayRejected, .lifecycleClose, .lifecycleReveal,
      .lifecycleFinalize]

def requiredReceipts : List StepId := [.lifecycleCast, .lifecycleClose, .lifecycleReveal, .lifecycleFinalize]

def StepId.isRepeatable : StepId → Bool
  | .referendumPublishRoot | .registryAttest | .referendumRevokeRoot => true
  | _ => false

def assertSteps (registry : ManifestRegistry) (steps : List DeploymentStep) : Except JsString Unit := do
  check ((requiredStepIds registry).length ≤ steps.length ∧
      ∀ id ∈ requiredStepIds registry, steps.any fun step ↦ step.id = id)
    (js "Complete manifest is missing deployment or lifecycle transcript steps")
  check (¬(registry.enrollmentModel = js "open" ∧ steps.any fun step ↦ step.id = .registryFreeze))
    (js "Complete manifest with an open enrollmentModel must not record a registry.freeze step")
  check (((steps.map DeploymentStep.id).filter fun id ↦ !id.isRepeatable).Nodup)
    (js "Complete manifest contains duplicate deployment transcript steps")

/-- The texts of a receipt that have to be there. -/
def CanonicalReceipt.texts (receipt : CanonicalReceipt) : List JsString :=
  [receipt.transactionId, receipt.transactionHash, receipt.contractAddress, receipt.circuit, receipt.blockHash,
    receipt.blockTimestamp]

/-- `Number.isSafeInteger(value) && value >= 0` -/
def isHeight (value : Option ℚ) : Bool :=
  value.any fun value ↦ value.den = 1 && 0 ≤ value.num && value.num ≤ maxSafeInteger

/-- `sanitizeCanonicalReceipt`, which gives the receipt back as it is. -/
def sanitizeCanonicalReceipt (receipt : CanonicalReceipt) : Except JsString CanonicalReceipt := do
  check (receipt.status = js "confirmed" ∧ receipt.action ∈ [js "credential", js "vote", js "cohort"] ∧
      receipt.network ∈ [js "preview", js "devnet", js "undeployed", js "mainnet"] ∧ isHeight receipt.blockHeight ∧
      ∀ text ∈ receipt.texts, text ≠ [])
    (js "receipt is not a canonical confirmed public receipt")
  return receipt

def expectedCircuit : StepId → String
  | .lifecycleCast => "castVote"
  | .lifecycleClose => "closeVote"
  | .lifecycleReveal => "revealVote"
  | _ => "finalizeVote"

/-- The receipt of a step of the lifecycle. -/
def lifecycleReceipt (network : RuntimeNetwork) (steps : List DeploymentStep) (referendumAddress : JsString) (id : StepId) :
    Except JsString (StepId × CanonicalReceipt) := do
  let missing := js "Complete manifest is missing " ++ js id.name ++ js " transaction evidence"
  let step := steps.find? fun candidate ↦ candidate.id = id
  check (step.any DeploymentStep.isDone) missing
  match step.bind DeploymentStep.receipt with
  | none => .error missing
  | some evidence => do
    check (evidence.transactionId ≠ []) missing
    let receipt ← (sanitizeCanonicalReceipt evidence).mapError fun _ ↦
      js "Complete manifest has an invalid " ++ js id.name ++ js " canonical receipt"
    check (receipt.status = js "confirmed" ∧ receipt.action = js "vote" ∧ receipt.network = js (networkName network) ∧
        receipt.circuit = js (expectedCircuit id) ∧ ¬isBlank receipt.transactionId ∧
        stripHexPrefix p receipt.contractAddress = stripHexPrefix p referendumAddress)
      (js "Complete manifest " ++ js id.name ++ js " receipt is not a confirmed " ++ js (expectedCircuit id) ++
        js " receipt")
    return (id, receipt)

/-- The receipts after those whose transactions were seen. -/
def assertDistinctReceipts : List JsString → List (StepId × CanonicalReceipt) → Except JsString Unit
  | _, [] => .ok ()
  | seen, (id, receipt) :: receipts => do
    check (receipt.transactionId ∉ seen)
      (js "Complete manifest has duplicate " ++ js id.name ++ js " lifecycle transaction evidence")
    assertDistinctReceipts (receipt.transactionId :: seen) receipts

/-! ## Observations -/

/-- The observations after those whose transactions were seen. -/
def assertObservedTransactions : List JsString → List ManifestObservation → Except JsString Unit
  | _, [] => .ok ()
  | seen, observation :: observations =>
    match observation.available, observation.transactionId with
    | true, some transactionId => do
      check (¬isBlank transactionId) (js "Complete manifest contains an empty indexer transaction observation")
      check (transactionId ∉ seen) (js "Complete manifest contains duplicate indexer transaction observations")
      assertObservedTransactions (transactionId :: seen) observations
    | _, _ => assertObservedTransactions seen observations

def assertObserved (indexerHttp : Option JsString) (observations : List ManifestObservation)
    (receipt : StepId × CanonicalReceipt) : Except JsString Unit :=
  match observations.filter fun observation ↦ observation.stage = receipt.1 && observation.available with
  | [observation] =>
    check (observation.transactionId = some receipt.2.transactionId ∧ observation.source = indexerHttp)
      (js "Complete manifest " ++ js receipt.1.name ++ js " indexer observation is not bound to its receipt")
  | _ => .error (js "Complete manifest is missing " ++ js receipt.1.name ++ js " indexer observation")

/-- The transaction of a step of the lifecycle. -/
def transactionOf (receipts : List (StepId × CanonicalReceipt)) (id : StepId) : Option JsString :=
  (receipts.lookup id).map CanonicalReceipt.transactionId

def assertLifecycle (lifecycle : Option ManifestLifecycleEvidence) (receipts : List (StepId × CanonicalReceipt)) :
    Except JsString Unit :=
  check (lifecycle.any fun lifecycle ↦ lifecycle.replayRejected && lifecycle.finalized &&
      lifecycle.indexerObservations == some (requiredReceipts.length : ℚ) &&
      some lifecycle.castTransactionId == transactionOf receipts .lifecycleCast &&
      some lifecycle.closeTransactionId == transactionOf receipts .lifecycleClose &&
      some lifecycle.revealTransactionId == transactionOf receipts .lifecycleReveal &&
      some lifecycle.finalizeTransactionId == transactionOf receipts .lifecycleFinalize)
    (js "Complete manifest is missing or has inconsistent finalized lifecycle evidence")

/-! ## Digest, endpoints and fees -/

def assertManifestDigest (manifestDigest : Option JsString) (digestInput : JsString) : Except JsString Unit := do
  let digest ← requireText manifestDigest (js "Complete manifest is missing its manifest digest")
  check (isHexOf 64 digest) (js "Complete manifest is missing its manifest digest")
  check (digest = bytesToHex (p.sha256 (encodeUtf8 digestInput)))
    (js "Complete manifest manifest digest does not match its canonical content")

def assertEndpoints (endpoints : ManifestEndpoints) : Except JsString Unit :=
  check (endpoints.nodeRpc.isSome ∧ endpoints.indexerHttp.isSome ∧ endpoints.indexerWs.isSome ∧
      endpoints.proofServer.isSome ∧ endpoints.relay.isSome)
    (js "Complete manifest is missing public infrastructure endpoints")

def assertDustAccounting (dust : ManifestDust) : Except JsString Unit :=
  check (dust.before.isSome ∧ dust.after.isSome ∧ dust.spent.isSome ∧ dust.beforeObservedAt.isSome ∧
      dust.afterObservedAt.isSome ∧ dust.valuationAt.isSome ∧ dust.accounted = true)
    (js "Complete manifest is missing DUST accounting")

/-! ## The whole -/

/-- The steps, the receipts of the lifecycle and the observations of them. -/
def assertTranscript (manifest : DeploymentManifest) (action : ManifestActionEvidence) : Except JsString Unit := do
  assertSteps manifest.registry manifest.steps
  let referendumAddress ← requireText (manifest.referenda.head?.bind ManifestReferendum.contractAddress)
    (js "Complete manifest is missing the lifecycle referendum address")
  assertHex32 referendumAddress (js "lifecycle referendum address")
  let receipts ← requiredReceipts.mapM (lifecycleReceipt p manifest.network manifest.steps referendumAddress)
  assertDistinctReceipts [] receipts
  check (transactionOf receipts .lifecycleCast = some action.transactionId)
    (js "Complete manifest action transaction does not match the cast receipt")
  check ((manifest.steps.find? fun step ↦ step.id = .lifecycleReplayRejected).any fun step ↦ step.status = .rejected)
    (js "Complete manifest is missing replay rejection evidence")
  check (5 ≤ manifest.observations.length) (js "Complete manifest is missing canonical indexer observations")
  assertObservedTransactions [] manifest.observations
  assertAll (assertObserved manifest.endpoints.indexerHttp manifest.observations) receipts
  assertLifecycle manifest.lifecycle receipts

def assertCompletePassportV2DeploymentManifest (manifest : DeploymentManifest) (digestInput : JsString) :
    Except JsString Unit := do
  check (manifest.status = .complete) (js "Passport v2 deployment manifest is not complete")
  assertBuild manifest
  let action ← assertAction p manifest.action
  assertRelay manifest.relay
  assertRegistrySnapshot manifest.registry
  assertAll (assertReferendumRoots p manifest.steps) manifest.referenda
  assertTranscript p manifest action
  assertManifestDigest p manifest.manifestDigest digestInput
  assertEndpoints manifest.endpoints
  assertDustAccounting manifest.dust

/-! ## Manifests -/

/-- A value in memory of the type of manifests. -/
structure Manifest where
  value : JsValue
  valid : value.Valid
  record : DeploymentManifest
  reads : deploymentManifest value = some record

/-- The text that the digest is taken of. -/
def Manifest.digestInput (manifest : Manifest) : JsString := (manifest.value.without (js "manifestDigest")).stableJson

/-- The checks that a manifest passes as a record. -/
def assertRecord (manifest : DeploymentManifest) : Except JsString Unit := do
  check (manifest.kind = js "midnight-passport-v2-runtime") (js "Unsupported Passport v2 deployment manifest kind")
  check (manifest.version = some 3) (js "Unsupported Passport v2 deployment manifest version")
  check (manifest.network = manifest.networkId) (js "Manifest network and networkId must match")
  check (¬isBlank manifest.generatedAt ∧ ¬isBlank manifest.runtime.apiUrl)
    (js "Manifest runtime metadata is incomplete")
  assertRuntimeApiUrl p manifest.runtime.apiUrl manifest.network
  assertPublicArtifacts manifest.artifacts
  assertPublicEndpoints p manifest.endpoints
  assertDust p manifest.dust
  assertRegistry p manifest.registry
  check (manifest.referenda ≠ []) (js "Manifest must contain at least one referendum")
  assertReferenda p manifest.registry [] manifest.referenda
  assertAll (assertObservation p) manifest.observations

def validatePassportV2DeploymentManifest (manifest : Manifest) : Except JsString Unit := do
  assertNoPrivateManifestFields p manifest.value
  assertRecord p manifest.record
  if manifest.record.status = .complete then
    assertCompletePassportV2DeploymentManifest p manifest.record manifest.digestInput

/-- `JSON.stringify(manifest, null, 2)` with the end of its last line -/
def serializePassportV2DeploymentManifest (manifest : Manifest) : Except JsString JsString := do
  validatePassportV2DeploymentManifest p manifest
  return manifest.value.toJson.pretty 0 ++ [0x0A]

end MidnightReferendum.Deployment
