import MidnightReferendum.Deployment.Manifest
import MidnightReferendum.Js.Numbers
import MidnightReferendum.ReferendumV2.Roots
import MidnightReferendum.Registry.Contract

/-!
# Admitting a later root

The part of `deploy-passport-v2.mjs` that admits the current root of an open registry to the referendum: an
attestation, a publication, an entry of the manifest for each, and at last the list of the accepted roots. The manifest
is saved after every change, so a run that is started again goes on from what the runs before it have recorded. A
transaction takes effect before it is recorded, and the process can end anywhere.
-/

namespace MidnightReferendum.DeployScript

open MidnightReferendum.Compact Deployment Execution Js

/-- The two contracts, the secret of the root publisher, and the only field of a digest. -/
structure Script (B D : Type) where
  hashing : Hashing B D
  registry : CredentialRegistryV1.Sealed B
  referendum : ReferendumV2.Sealed B D
  rootPublisherSecret : B
  field : D → ℕ
  field_injective : Function.Injective field

/-- `root.field.toString()` -/
def Script.rootField {B D : Type} (s : Script B D) (root : D) : JsString := decimal (s.field root)

theorem Script.rootField_injective {B D : Type} (s : Script B D) : Function.Injective s.rootField := by
  intro root root' h
  have hnumeral := congrArg numeral h
  rw [Script.rootField, Script.rootField, numeral_decimal, numeral_decimal] at hnumeral
  exact s.field_injective hnumeral

/-! ## The manifest -/

/-- A step for a repeatable id, keyed by `details.rootField`. -/
def isStep (id : StepId) (rootField : JsString) (step : DeploymentStep) : Bool :=
  step.id == id && step.rootField == some rootField

def findRepeatableStep (manifest : DeploymentManifest) (id : StepId) (rootField : JsString) : Option DeploymentStep :=
  manifest.steps.find? (isStep id rootField)

/-- The receipt of a step, if it has one. -/
def stepReceipt (manifest : DeploymentManifest) (id : StepId) (rootField : JsString) : Option CanonicalReceipt :=
  (findRepeatableStep manifest id rootField).bind DeploymentStep.receipt

def recordRepeatableStep (manifest : DeploymentManifest) (id : StepId) (rootField : JsString) (status : StepStatus)
    (receipt : CanonicalReceipt) (attestationTransactionId : Option JsString) : DeploymentManifest :=
  let existing := findRepeatableStep manifest id rootField
  let others := manifest.steps.filter fun step ↦ !isStep id rootField step
  { manifest with
    steps := others ++ [{
      id
      status
      receipt := some receipt
      rootField := some rootField
      attestationTransactionId :=
        (present attestationTransactionId).or (present (existing.bind DeploymentStep.attestationTransactionId)) }] }

/-- `observe`, where what it has read is given. -/
def observe (manifest : DeploymentManifest) (observation : ManifestObservation) : DeploymentManifest :=
  { manifest with
    observations := manifest.observations.filter (fun candidate ↦ candidate.stage ≠ observation.stage) ++
      [observation] }

/-- `manifest.referenda[0].acceptedRoots` -/
def acceptedRoots (manifest : DeploymentManifest) : List JsString :=
  (manifest.referenda.head?.map ManifestReferendum.acceptedRoots).getD []

/-- `updateReferendum` with a patch of `acceptedRoots` -/
def updateReferendum (manifest : DeploymentManifest) (roots : List JsString) : DeploymentManifest :=
  { manifest with
    referenda := manifest.referenda.modifyHead fun referendum ↦ { referendum with acceptedRoots := roots } }

section Journal

/-- The manifest has a step with a receipt. -/
def Recorded (manifest : DeploymentManifest) (id : StepId) (rootField : JsString) : Prop :=
  (stepReceipt manifest id rootField).isSome

/-- The root has an attestation step and a publish step. -/
structure Admitted (manifest : DeploymentManifest) (rootField : JsString) : Prop where
  attested : Recorded manifest .registryAttest rootField
  published : Recorded manifest .referendumPublishRoot rootField

variable {manifest : DeploymentManifest} {id id' : StepId} {rootField rootField' : JsString} {status : StepStatus}
  {receipt : CanonicalReceipt} {attestationTransactionId : Option JsString}

theorem isStep_eq_true {step : DeploymentStep} :
    isStep id rootField step = true ↔ step.id = id ∧ step.rootField = some rootField := by
  rw [isStep, Bool.and_eq_true, beq_iff_eq, beq_iff_eq]

/-- A step has one key. -/
theorem eq_of_isStep {step : DeploymentStep} (h : isStep id rootField step = true)
    (h' : isStep id' rootField' step = true) : id' = id ∧ rootField' = rootField := by
  obtain ⟨hid, hroot⟩ := isStep_eq_true.mp h
  obtain ⟨hid', hroot'⟩ := isStep_eq_true.mp h'
  exact ⟨hid'.symm.trans hid, Option.some.inj (hroot'.symm.trans hroot)⟩

theorem stepReceipt_record_self :
    stepReceipt (recordRepeatableStep manifest id rootField status receipt attestationTransactionId) id rootField =
      some receipt := by
  have hothers : (manifest.steps.filter fun step ↦ !isStep id rootField step).find? (isStep id rootField) = none := by
    apply List.find?_eq_none.mpr
    intro step hstep
    simpa using (List.mem_filter.mp hstep).2
  rw [stepReceipt, findRepeatableStep, recordRepeatableStep, List.find?_append, hothers, Option.none_or,
    List.find?_singleton]
  simp [isStep]

theorem stepReceipt_record_of_ne (h : ¬(id' = id ∧ rootField' = rootField)) :
    stepReceipt (recordRepeatableStep manifest id rootField status receipt attestationTransactionId) id' rootField' =
      stepReceipt manifest id' rootField' := by
  have hothers : (manifest.steps.filter fun step ↦ !isStep id rootField step).find? (isStep id' rootField') =
      manifest.steps.find? (isStep id' rootField') := by
    rw [List.find?_filter]
    congr 1
    funext step
    cases hstep : isStep id' rootField' step with
    | false => simp
    | true =>
      have hkey : isStep id rootField step = false := by
        rw [← Bool.not_eq_true]
        exact fun hkey ↦ h (eq_of_isStep hkey hstep)
      simp [hkey]
  rw [stepReceipt, findRepeatableStep, recordRepeatableStep, List.find?_append, hothers, List.find?_singleton,
    if_neg fun hstep ↦ h (eq_of_isStep (isStep_eq_true.mpr ⟨rfl, rfl⟩) hstep), Option.or_none]
  rfl

/-- A recorded step stays recorded. -/
theorem Recorded.record (h : Recorded manifest id' rootField') :
    Recorded (recordRepeatableStep manifest id rootField status receipt attestationTransactionId) id' rootField' := by
  by_cases hkey : id' = id ∧ rootField' = rootField
  · rw [Recorded, hkey.1, hkey.2, stepReceipt_record_self]
    rfl
  · rwa [Recorded, stepReceipt_record_of_ne hkey]

theorem Recorded.of_record
    (h : Recorded (recordRepeatableStep manifest id rootField status receipt attestationTransactionId) id' rootField') :
    (id' = id ∧ rootField' = rootField) ∨ Recorded manifest id' rootField' := by
  by_cases hkey : id' = id ∧ rootField' = rootField
  · exact Or.inl hkey
  · rw [Recorded, stepReceipt_record_of_ne hkey] at h
    exact Or.inr h

theorem recorded_record :
    Recorded (recordRepeatableStep manifest id rootField status receipt attestationTransactionId) id rootField := by
  rw [Recorded, stepReceipt_record_self]
  rfl

theorem Recorded.exists_mem (h : Recorded manifest id rootField) :
    ∃ step ∈ manifest.steps, step.id = id ∧ step.rootField = some rootField := by
  obtain ⟨receipt, hreceipt⟩ := Option.isSome_iff_exists.mp h
  obtain ⟨step, hstep, _⟩ := Option.bind_eq_some_iff.mp hreceipt
  exact ⟨step, List.mem_of_find?_eq_some hstep, isStep_eq_true.mp (List.find?_some hstep)⟩

theorem acceptedRoots_updateReferendum (h : rootField ∈ acceptedRoots manifest) (roots : List JsString) :
    acceptedRoots (updateReferendum manifest roots) = roots := by
  rw [acceptedRoots] at h ⊢
  rw [updateReferendum]
  cases hreferenda : manifest.referenda with
  | nil =>
    rw [hreferenda] at h
    cases h
  | cons referendum rest => rfl

end Journal

/-! ## Runs of the script -/

/-- Where a run waits, with the variables that it still reads. -/
inductive Frame (D : Type) where
  | readRegistryState
  | attestRegistryRoot (root : D)
  | recordAttest (root : D) (attestStatus : StepStatus) (attestReceipt : CanonicalReceipt)
  | observeAttest (root : D) (attestReceipt : CanonicalReceipt)
  | publishCredentialRoot (root : D) (attestReceipt : CanonicalReceipt)
  | recordPublish (root : D) (attestReceipt : CanonicalReceipt) (publishStatus : StepStatus)
      (publishReceipt : CanonicalReceipt)
  | observePublish (root : D)
  | updateReferendum (root : D)

variable {B D : Type} [DecidableEq B] [DecidableEq D]

/-- The contracts on the chain, the manifest in its file, and the run of the script if there is one. -/
structure World (s : Script B D) where
  registry : CredentialRegistryV1.Ledger B D
  referendum : ReferendumV2.Ledger s.hashing
  manifest : DeploymentManifest
  running : Option (Frame D)
  /-- how the last run has ended, unless the process was killed -/
  ended : Option (Except String Unit)
  /-- the roots that the script has published, in order -/
  published : List D

/-- What a run waits for: a read of the registry, a block with its transaction, or that a change of the manifest is
saved. -/
inductive Answer where
  | state
  | block (time : UInt64) (receipt : CanonicalReceipt)
  | saved
  | observed (observation : ManifestObservation)

inductive Event (B D : Type) where
  | start
  | answer (answer : Answer)
  | crash
  /-- a transaction of others -/
  | registry (call : CredentialRegistryV1.Call B D)
  | referendum (tx : ReferendumV2.Tx B D)

section Steps

variable {s : Script B D}

def World.await (w : World s) (frame : Frame D) : World s := { w with running := some frame }

def World.finish (w : World s) (result : Except String Unit) : World s :=
  { w with running := none, ended := some result }

/-- `admitRegistryRoot`, up to its first call. -/
def admitRegistryRoot (s : Script B D) (manifest : DeploymentManifest) (root : D) : Frame D :=
  match stepReceipt manifest .registryAttest (s.rootField root) with
  | some receipt => .recordAttest root .reconciled receipt
  | none => .attestRegistryRoot root

/-- The second half of `admitRegistryRoot`, up to its first call. -/
def publishStep (s : Script B D) (manifest : DeploymentManifest) (root : D) (attestReceipt : CanonicalReceipt) :
    Frame D :=
  match stepReceipt manifest .referendumPublishRoot (s.rootField root) with
  | some receipt => .recordPublish root attestReceipt .reconciled receipt
  | none => .publishCredentialRoot root attestReceipt

/-- The next piece of a run, if the answer is one to the call for which it waits. -/
def resume (w : World s) : Frame D → Answer → Option (World s)
  | .readRegistryState, .state =>
    let root := CredentialRegistryV1.currentRoot s.hashing w.registry
    some (if s.rootField root ∈ acceptedRoots w.manifest then w.finish (.ok ())
      else w.await (admitRegistryRoot s w.manifest root))
  | .attestRegistryRoot root, .block _ receipt =>
    match CredentialRegistryV1.step s.hashing s.registry w.registry (.attestCurrentRoot root) with
    | .error message => some (w.finish (.error message))
    | .ok registry => some ({ w with registry }.await (.recordAttest root .confirmed receipt))
  | .recordAttest root status receipt, .saved =>
    let manifest := recordRepeatableStep w.manifest .registryAttest (s.rootField root) status receipt none
    some ({ w with manifest }.await (.observeAttest root receipt))
  | .observeAttest root receipt, .observed observation =>
    let manifest := observe w.manifest { observation with stage := .registryAttest }
    some ({ w with manifest }.await (publishStep s manifest root receipt))
  | .publishCredentialRoot root attestReceipt, .block time receipt =>
    match ReferendumV2.step s.hashing s.referendum w.referendum
        ⟨time, .publishCredentialRoot root s.rootPublisherSecret⟩ with
    | .error message => some (w.finish (.error message))
    | .ok referendum =>
      some ({ w with referendum, published := w.published ++ [root] }.await
        (.recordPublish root attestReceipt .confirmed receipt))
  | .recordPublish root attestReceipt status receipt, .saved =>
    let manifest := recordRepeatableStep w.manifest .referendumPublishRoot (s.rootField root) status receipt
      (some attestReceipt.transactionId)
    some ({ w with manifest }.await (.observePublish root))
  | .observePublish root, .observed observation =>
    let manifest := observe w.manifest { observation with stage := .referendumPublishRoot }
    some ({ w with manifest }.await (.updateReferendum root))
  | .updateReferendum root, .saved =>
    let manifest := updateReferendum w.manifest (acceptedRoots w.manifest ++ [s.rootField root])
    some ({ w with manifest }.finish (.ok ()))
  | _, _ => none

/-- The roots of the referendum are published and revoked by nobody else. -/
def keepsRoots : ReferendumV2.Call B D → Bool
  | .publishCredentialRoot _ _ | .revokeCredentialRoot _ _ => false
  | _ => true

/-- One step of the chain or of the script. A save or a read that throws ends the process as a crash does. -/
def step (w : World s) : Event B D → Except String (World s)
  | .start =>
    match w.running with
    | none => .ok { w with running := some .readRegistryState, ended := none }
    | some _ => .error "A run is going on"
  | .answer answer =>
    match w.running.bind fun frame ↦ resume w frame answer with
    | none => .error "No run waits for this"
    | some w' => .ok w'
  | .crash => .ok { w with running := none, ended := none }
  | .registry call => do
    let registry ← CredentialRegistryV1.step s.hashing s.registry w.registry call
    return { w with registry }
  | .referendum tx =>
    if keepsRoots tx.call then do
      let referendum ← ReferendumV2.step s.hashing s.referendum w.referendum tx
      return { w with referendum }
    else .error "The roots are the script's"

end Steps

end MidnightReferendum.DeployScript
