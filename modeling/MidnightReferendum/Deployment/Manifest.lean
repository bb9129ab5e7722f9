import MidnightReferendum.Js.Readers
import MidnightReferendum.Passport.RuntimeConfig

/-!
# The deployment manifest

`deployment-manifest.ts`: the public journal of a deployment, as the records of its type. A manifest is a value in memory
that reads as such a record; what the validator goes through by its own names (the services, the artifacts, the endpoints)
keeps the names.
-/

namespace MidnightReferendum.Deployment

open Js Reader RuntimeConfig

/-- `PassportV2DeploymentStepId` -/
inductive StepId where
  | registryDeploy
  | registryIssue
  | registryFreeze
  | registryAttest
  | referendumDeploy
  | referendumPublishRoot
  | referendumRevokeRoot
  | lifecycleCast
  | lifecycleReplayRejected
  | lifecycleClose
  | lifecycleReveal
  | lifecycleFinalize
  deriving DecidableEq

def StepId.name : StepId → String
  | .registryDeploy => "registry.deploy"
  | .registryIssue => "registry.issue"
  | .registryFreeze => "registry.freeze"
  | .registryAttest => "registry.attest"
  | .referendumDeploy => "referendum.deploy"
  | .referendumPublishRoot => "referendum.publish-root"
  | .referendumRevokeRoot => "referendum.revoke-root"
  | .lifecycleCast => "lifecycle.cast"
  | .lifecycleReplayRejected => "lifecycle.replay-rejected"
  | .lifecycleClose => "lifecycle.close"
  | .lifecycleReveal => "lifecycle.reveal"
  | .lifecycleFinalize => "lifecycle.finalize"

def StepId.all : List StepId :=
  [.registryDeploy, .registryIssue, .registryFreeze, .registryAttest, .referendumDeploy, .referendumPublishRoot,
    .referendumRevokeRoot, .lifecycleCast, .lifecycleReplayRejected, .lifecycleClose, .lifecycleReveal,
    .lifecycleFinalize]

inductive StepStatus where
  | confirmed
  | reconciled
  | rejected
  deriving DecidableEq

def StepStatus.name : StepStatus → String
  | .confirmed => "confirmed"
  | .reconciled => "reconciled"
  | .rejected => "rejected"

/-- `PassportV2ManifestStatus` -/
inductive ManifestStatus where
  | inProgress
  | complete
  deriving DecidableEq

def ManifestStatus.name : ManifestStatus → String
  | .inProgress => "in-progress"
  | .complete => "complete"

/-- The name of a `PassportV2ManifestNetwork` -/
def networkName : RuntimeNetwork → String
  | .undeployed => "undeployed"
  | .preview => "preview"

/-! ## Records -/

/-- `CanonicalReceipt`, as it stands in a manifest, before it is checked -/
structure CanonicalReceipt where
  status : JsString
  action : JsString
  network : JsString
  transactionId : JsString
  transactionHash : JsString
  contractAddress : JsString
  circuit : JsString
  blockHeight : Option ℚ
  blockHash : JsString
  blockTimestamp : JsString
  explorerUrl : Option JsString
  deriving DecidableEq

/-- `PassportV2DeploymentStep`. Of its details only the text `rootField` is read. -/
structure DeploymentStep where
  id : StepId
  status : StepStatus
  receipt : Option CanonicalReceipt
  rootField : Option JsString
  attestationTransactionId : Option JsString
  deriving DecidableEq

structure ManifestRuntime where
  apiUrl : JsString
  credentialTtlMs : Option ℚ
  uniquenessTimestampUpperBoundUnixSeconds : JsString

/-- `PassportV2ManifestArtifacts`: the texts by their names, and the hashes. -/
structure ManifestArtifacts where
  texts : List (JsString × JsString)
  hashes : Option (List (JsString × JsString))

structure ManifestSource where
  commit : JsString
  tree : JsString

structure ManifestServiceVersion where
  version : JsString
  hash : JsString

structure ManifestActionEvidence where
  actionId : JsString
  actionIdDigest : JsString
  idempotencyKeyDigest : JsString
  requestHash : JsString
  txDigest : JsString
  capabilityDigest : JsString
  transactionId : JsString
  status : JsString

structure ManifestRelayEvidence where
  submissionTransport : JsString
  durableStore : JsString
  legacyApiEnabled : Bool
  states : List JsString
  accepted : Bool
  duplicateResolved : Bool
  concurrentIdempotent : Bool
  restartRecovered : Bool

structure ManifestLifecycleEvidence where
  castTransactionId : JsString
  closeTransactionId : JsString
  revealTransactionId : JsString
  finalizeTransactionId : JsString
  replayRejected : Bool
  finalized : Bool
  indexerObservations : Option ℚ

/-- `PassportV2ManifestEndpoints`, with all of them by name -/
structure ManifestEndpoints where
  nodeRpc : Option JsString
  indexerHttp : Option JsString
  indexerWs : Option JsString
  proofServer : Option JsString
  relay : Option JsString
  entries : List (JsString × Option JsString)

structure RegistryObservation where
  contractAddress : JsString
  currentRootField : JsString
  frozenRootField : JsString
  credentialCount : JsString

structure ReferendumObservation where
  contractAddress : JsString
  issuedVotes : JsString
  yes : JsString
  no : JsString
  abstain : JsString

/-- `PassportV2ManifestObservation` -/
structure ManifestObservation where
  stage : StepId
  observedAt : JsString
  available : Bool
  source : Option JsString
  transactionId : Option JsString
  registry : Option RegistryObservation
  referendum : Option ReferendumObservation

structure ManifestDust where
  before : Option JsString
  after : Option JsString
  spent : Option JsString
  beforeObservedAt : Option JsString
  afterObservedAt : Option JsString
  valuationAt : Option JsString
  accounted : Bool

/-- `PassportV2ManifestRegistry` -/
structure ManifestRegistry where
  contractAddress : Option JsString
  registryContractBindingHex : Option JsString
  registryIdHex : JsString
  issuerId : JsString
  issuerIdHex : JsString
  credentialEpoch : JsString
  currentRootField : Option JsString
  frozenRootField : Option JsString
  credentialCount : Option JsString
  frozen : Bool
  enrollmentModel : JsString

/-- `PassportV2ManifestReferendum` -/
structure ManifestReferendum where
  referendumId : JsString
  contractAddress : Option JsString
  registryContractBindingHex : Option JsString
  registryContractAddress : Option JsString
  eventIdHex : JsString
  organizerKeyHex : JsString
  rootPublisherKeyHex : JsString
  initialRootField : JsString
  acceptedRoots : List JsString
  opensAtUnix : JsString
  enrollmentClosesAtUnix : JsString
  closesAtUnix : JsString
  revealClosesAtUnix : JsString
  countryPolicy : Option JsString
  minimumAssurance : JsString
  requireAdult : Bool
  validityReference : JsString
  title : JsString
  question : JsString
  description : Option JsString

/-- `PassportV2DeploymentManifest` -/
structure DeploymentManifest where
  kind : JsString
  version : Option ℚ
  status : ManifestStatus
  network : RuntimeNetwork
  networkId : RuntimeNetwork
  generatedAt : JsString
  source : Option ManifestSource
  services : Option (List (JsString × ManifestServiceVersion))
  runtime : ManifestRuntime
  artifacts : ManifestArtifacts
  endpoints : ManifestEndpoints
  dust : ManifestDust
  submissionTransport : Option JsString
  action : Option ManifestActionEvidence
  relay : Option ManifestRelayEvidence
  lifecycle : Option ManifestLifecycleEvidence
  manifestDigest : Option JsString
  registry : ManifestRegistry
  referenda : List ManifestReferendum
  steps : List DeploymentStep
  observations : List ManifestObservation

/-! ## Readers -/

def stepId : Reader StepId := named StepId.all StepId.name

def stepStatus : Reader StepStatus := named [.confirmed, .reconciled, .rejected] StepStatus.name

def network : Reader RuntimeNetwork := named [.undeployed, .preview] networkName

def manifestStatus : Reader ManifestStatus := named [.inProgress, .complete] ManifestStatus.name

def canonicalReceipt : Reader CanonicalReceipt := fun v ↦ do
  let status ← field "status" text v
  let action ← field "action" text v
  let network ← field "network" text v
  let transactionId ← field "transactionId" text v
  let transactionHash ← field "transactionHash" text v
  let contractAddress ← field "contractAddress" text v
  let circuit ← field "circuit" text v
  let blockHeight ← field "blockHeight" number v
  let blockHash ← field "blockHash" text v
  let blockTimestamp ← field "blockTimestamp" text v
  let explorerUrl ← field "explorerUrl" (optional text) v
  return {
    status, action, network, transactionId, transactionHash, contractAddress, circuit, blockHeight, blockHash
    blockTimestamp, explorerUrl }

/-- `step.details?.rootField`, when it is a text -/
def rootField : Reader (Option JsString) := fun v ↦ pure (field "rootField" text v)

def deploymentStep : Reader DeploymentStep := fun v ↦ do
  let id ← field "id" stepId v
  let status ← field "status" stepStatus v
  let receipt ← field "receipt" (optional canonicalReceipt) v
  let rootField ← field "details" rootField v
  let attestationTransactionId ← field "attestationTransactionId" (optional text) v
  return { id, status, receipt, rootField, attestationTransactionId }

def manifestRuntime : Reader ManifestRuntime := fun v ↦ do
  let apiUrl ← field "apiUrl" text v
  let credentialTtlMs ← field "credentialTtlMs" number v
  let uniquenessTimestampUpperBoundUnixSeconds ← field "uniquenessTimestampUpperBoundUnixSeconds" text v
  return { apiUrl, credentialTtlMs, uniquenessTimestampUpperBoundUnixSeconds }

/-- The fields but the hashes, which have to be texts. -/
def artifactTexts : Reader (List (JsString × JsString)) := fun v ↦ record text (v.without (js "hashes"))

def manifestArtifacts : Reader ManifestArtifacts := fun v ↦ do
  let texts ← artifactTexts v
  let hashes ← field "hashes" (optional (record text)) v
  return { texts, hashes }

def manifestSource : Reader ManifestSource := fun v ↦ do
  let commit ← field "commit" text v
  let tree ← field "tree" text v
  return { commit, tree }

def manifestServiceVersion : Reader ManifestServiceVersion := fun v ↦ do
  let version ← field "version" text v
  let hash ← field "hash" text v
  return { version, hash }

def manifestActionEvidence : Reader ManifestActionEvidence := fun v ↦ do
  let actionId ← field "actionId" text v
  let actionIdDigest ← field "actionIdDigest" text v
  let idempotencyKeyDigest ← field "idempotencyKeyDigest" text v
  let requestHash ← field "requestHash" text v
  let txDigest ← field "txDigest" text v
  let capabilityDigest ← field "capabilityDigest" text v
  let transactionId ← field "transactionId" text v
  let status ← field "status" text v
  return {
    actionId, actionIdDigest, idempotencyKeyDigest, requestHash, txDigest, capabilityDigest, transactionId, status }

def manifestRelayEvidence : Reader ManifestRelayEvidence := fun v ↦ do
  let submissionTransport ← field "submissionTransport" text v
  let durableStore ← field "durableStore" text v
  let legacyApiEnabled ← field "legacyApiEnabled" bool v
  let states ← field "states" (list text) v
  let accepted ← field "accepted" bool v
  let duplicateResolved ← field "duplicateResolved" bool v
  let concurrentIdempotent ← field "concurrentIdempotent" bool v
  let restartRecovered ← field "restartRecovered" bool v
  return {
    submissionTransport, durableStore, legacyApiEnabled, states, accepted, duplicateResolved, concurrentIdempotent
    restartRecovered }

def manifestLifecycleEvidence : Reader ManifestLifecycleEvidence := fun v ↦ do
  let castTransactionId ← field "castTransactionId" text v
  let closeTransactionId ← field "closeTransactionId" text v
  let revealTransactionId ← field "revealTransactionId" text v
  let finalizeTransactionId ← field "finalizeTransactionId" text v
  let replayRejected ← field "replayRejected" bool v
  let finalized ← field "finalized" bool v
  let indexerObservations ← field "indexerObservations" number v
  return {
    castTransactionId, closeTransactionId, revealTransactionId, finalizeTransactionId, replayRejected, finalized
    indexerObservations }

def manifestEndpoints : Reader ManifestEndpoints := fun v ↦ do
  let nodeRpc ← field "nodeRpc" (nullable text) v
  let indexerHttp ← field "indexerHttp" (nullable text) v
  let indexerWs ← field "indexerWs" (nullable text) v
  let proofServer ← field "proofServer" (nullable text) v
  let relay ← field "relay" (nullable text) v
  let entries ← record (nullable text) v
  return { nodeRpc, indexerHttp, indexerWs, proofServer, relay, entries }

def registryObservation : Reader RegistryObservation := fun v ↦ do
  let contractAddress ← field "contractAddress" text v
  let currentRootField ← field "currentRootField" text v
  let frozenRootField ← field "frozenRootField" text v
  let credentialCount ← field "credentialCount" text v
  return { contractAddress, currentRootField, frozenRootField, credentialCount }

def referendumObservation : Reader ReferendumObservation := fun v ↦ do
  let contractAddress ← field "contractAddress" text v
  let issuedVotes ← field "issuedVotes" text v
  let yes ← field "tally" (field "YES" text) v
  let no ← field "tally" (field "NO" text) v
  let abstain ← field "tally" (field "ABSTAIN" text) v
  return { contractAddress, issuedVotes, yes, no, abstain }

def manifestObservation : Reader ManifestObservation := fun v ↦ do
  let stage ← field "stage" stepId v
  let observedAt ← field "observedAt" text v
  let available ← field "indexer" (field "available" bool) v
  let source ← field "indexer" (field "source" (nullable text)) v
  let transactionId ← field "transactionId" (optional text) v
  let registry ← field "registry" (optional registryObservation) v
  let referendum ← field "referendum" (optional referendumObservation) v
  return { stage, observedAt, available, source, transactionId, registry, referendum }

def manifestDust : Reader ManifestDust := fun v ↦ do
  let before ← field "before" (nullable text) v
  let after ← field "after" (nullable text) v
  let spent ← field "spent" (nullable text) v
  let beforeObservedAt ← field "beforeObservedAt" (nullable text) v
  let afterObservedAt ← field "afterObservedAt" (nullable text) v
  let valuationAt ← field "valuationAt" (nullable text) v
  let accounted ← field "accounted" bool v
  return { before, after, spent, beforeObservedAt, afterObservedAt, valuationAt, accounted }

def manifestRegistry : Reader ManifestRegistry := fun v ↦ do
  let contractAddress ← field "contractAddress" (nullable text) v
  let registryContractBindingHex ← field "registryContractBindingHex" (nullable text) v
  let registryIdHex ← field "registryIdHex" text v
  let issuerId ← field "issuerId" text v
  let issuerIdHex ← field "issuerIdHex" text v
  let credentialEpoch ← field "credentialEpoch" text v
  let currentRootField ← field "currentRootField" (nullable text) v
  let frozenRootField ← field "frozenRootField" (nullish text) v
  let credentialCount ← field "credentialCount" (nullable text) v
  let frozen ← field "frozen" bool v
  let enrollmentModel ← field "enrollmentModel" text v
  return {
    contractAddress, registryContractBindingHex, registryIdHex, issuerId, issuerIdHex, credentialEpoch
    currentRootField, frozenRootField, credentialCount, frozen, enrollmentModel }

def manifestReferendum : Reader ManifestReferendum := fun v ↦ do
  let referendumId ← field "referendumId" text v
  let contractAddress ← field "contractAddress" (nullable text) v
  let registryContractBindingHex ← field "registryContractBindingHex" (nullable text) v
  let registryContractAddress ← field "registryContractAddress" (nullable text) v
  let eventIdHex ← field "eventIdHex" text v
  let organizerKeyHex ← field "organizerKeyHex" text v
  let rootPublisherKeyHex ← field "rootPublisherKeyHex" text v
  let initialRootField ← field "initialRootField" text v
  let acceptedRoots ← field "acceptedRoots" (list text) v
  let opensAtUnix ← field "opensAtUnix" text v
  let enrollmentClosesAtUnix ← field "enrollmentClosesAtUnix" text v
  let closesAtUnix ← field "closesAtUnix" text v
  let revealClosesAtUnix ← field "revealClosesAtUnix" text v
  let countryPolicy ← field "countryPolicy" (nullable text) v
  let minimumAssurance ← field "minimumAssurance" text v
  let requireAdult ← field "requireAdult" bool v
  let validityReference ← field "validityReference" text v
  let title ← field "title" text v
  let question ← field "question" text v
  let description ← field "description" (optional text) v
  return {
    referendumId, contractAddress, registryContractBindingHex, registryContractAddress, eventIdHex, organizerKeyHex
    rootPublisherKeyHex, initialRootField, acceptedRoots, opensAtUnix, enrollmentClosesAtUnix, closesAtUnix
    revealClosesAtUnix, countryPolicy, minimumAssurance, requireAdult, validityReference, title, question
    description }

def deploymentManifest : Reader DeploymentManifest := fun v ↦ do
  let kind ← field "kind" text v
  let version ← field "version" number v
  let status ← field "status" manifestStatus v
  let network ← field "network" Deployment.network v
  let networkId ← field "networkId" Deployment.network v
  let generatedAt ← field "generatedAt" text v
  let source ← field "source" (optional manifestSource) v
  let services ← field "services" (optional (record manifestServiceVersion)) v
  let runtime ← field "runtime" manifestRuntime v
  let artifacts ← field "artifacts" manifestArtifacts v
  let endpoints ← field "endpoints" manifestEndpoints v
  let dust ← field "dust" manifestDust v
  let submissionTransport ← field "submissionTransport" (optional text) v
  let action ← field "action" (optional manifestActionEvidence) v
  let relay ← field "relay" (optional manifestRelayEvidence) v
  let lifecycle ← field "lifecycle" (optional manifestLifecycleEvidence) v
  let manifestDigest ← field "manifestDigest" (optional text) v
  let registry ← field "registry" manifestRegistry v
  let referenda ← field "referenda" (list manifestReferendum) v
  let steps ← field "transcript" (field "steps" (list deploymentStep)) v
  let observations ← field "transcript" (field "observations" (list manifestObservation)) v
  return {
    kind, version, status, network, networkId, generatedAt, source, services, runtime, artifacts, endpoints, dust
    submissionTransport, action, relay, lifecycle, manifestDigest, registry, referenda, steps, observations }

end MidnightReferendum.Deployment
