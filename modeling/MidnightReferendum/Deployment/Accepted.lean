import MidnightReferendum.Deployment.Environment
import MidnightReferendum.Deployment.Provenance

/-!
# What the validator promises

The texts of a manifest that was accepted as a complete one: which of them are decimal or hexadecimal, that the binding is
that of the address, and the order of the schedule.
-/

namespace MidnightReferendum.Deployment

open Js Checks Cico RuntimeConfig

variable {p : Platform}

/-- The texts of a referendum that was accepted. -/
structure ManifestReferendum.Accepted (referendum : ManifestReferendum) : Prop where
  referendumId : ¬isBlank referendum.referendumId
  contractAddress : ∃ address, referendum.contractAddress = some address ∧ address ≠ []
  eventIdHex : isHex32 referendum.eventIdHex
  organizerKeyHex : isHex32 referendum.organizerKeyHex
  rootPublisherKeyHex : isHex32 referendum.rootPublisherKeyHex
  opensAtUnix : isDecimal referendum.opensAtUnix
  enrollmentClosesAtUnix : isDecimal referendum.enrollmentClosesAtUnix
  closesAtUnix : isDecimal referendum.closesAtUnix
  revealClosesAtUnix : isDecimal referendum.revealClosesAtUnix
  opens_lt : numeral referendum.opensAtUnix < numeral referendum.closesAtUnix
  enrollment_le : numeral referendum.enrollmentClosesAtUnix ≤ numeral referendum.closesAtUnix
  closes_lt : numeral referendum.closesAtUnix < numeral referendum.revealClosesAtUnix
  minimumAssurance : isDecimal referendum.minimumAssurance
  validityReference : isDecimal referendum.validityReference
  title : ¬isBlank referendum.title
  question : ¬isBlank referendum.question

/-- The texts of a manifest that was accepted as a complete one. -/
structure DeploymentManifest.Accepted (p : Platform) (manifest : DeploymentManifest) : Prop where
  apiUrl : ¬isBlank manifest.runtime.apiUrl
  registryIdHex : isHex32 manifest.registry.registryIdHex
  issuerIdHex : isHex32 manifest.registry.issuerIdHex
  issuerId : ¬isBlank manifest.registry.issuerId
  binding : ∃ address binding expected, manifest.registry.contractAddress = some address ∧ address ≠ [] ∧
    manifest.registry.registryContractBindingHex = some binding ∧
    deriveRegistryContractBinding p.persistentHash address = .ok expected ∧
    stripHexPrefix p binding = bytesToHex expected.toList
  credentialEpoch : isDecimal manifest.registry.credentialEpoch
  frozenRootField : ∀ root ∈ manifest.registry.frozenRootField, isDecimal root
  referenda_ne : manifest.referenda ≠ []
  ids_nodup : (manifest.referenda.map ManifestReferendum.referendumId).Nodup
  referenda : ∀ referendum ∈ manifest.referenda, referendum.Accepted

theorem assertHex32_eq_ok {value label : JsString} {u : Unit} : assertHex32 value label = .ok u ↔ isHex32 value :=
  check_eq_ok

theorem assertDecimal_eq_ok {value label : JsString} {u : Unit} : assertDecimal value label = .ok u ↔ isDecimal value :=
  check_eq_ok

theorem mapError_eq_ok {ε ε' α : Type} {x : Except ε α} {f : ε → ε'} {a : α} : x.mapError f = .ok a ↔ x = .ok a := by
  cases x <;> simp [Except.mapError]

section Registry

variable {registry : ManifestRegistry}

theorem binding_of_ok {u : Unit} (h : assertBinding p registry = .ok u) {address binding : JsString}
    (haddress : registry.contractAddress = some address) (hbinding : registry.registryContractBindingHex = some binding) :
    ∃ expected, deriveRegistryContractBinding p.persistentHash address = .ok expected ∧
      stripHexPrefix p binding = bytesToHex expected.toList := by
  rw [assertBinding, hbinding, haddress] at h
  obtain ⟨_, -, h⟩ := bind_eq_ok.mp h
  obtain ⟨expected, hexpected, h⟩ := bind_eq_ok.mp h
  exact ⟨expected, mapError_eq_ok.mp hexpected, check_eq_ok.mp h⟩

/-- A frozen root stands in a frozen registry only, where the checks of a complete manifest ask for a decimal one. -/
theorem frozenRoot_of_ok {u u' : Unit} (h : assertEnrollmentModel registry = .ok u)
    (hsnapshot : assertRegistrySnapshot registry = .ok u') : ∀ root ∈ registry.frozenRootField, isDecimal root := by
  intro root hroot
  obtain ⟨hmodel, h⟩ := check_bind_eq_ok.mp h
  obtain ⟨_, -, hsnapshot⟩ := bind_eq_ok.mp hsnapshot
  obtain ⟨_, -, hsnapshot⟩ := bind_eq_ok.mp hsnapshot
  obtain ⟨_, -, hsnapshot⟩ := bind_eq_ok.mp hsnapshot
  obtain ⟨_, -, hsnapshot⟩ := bind_eq_ok.mp hsnapshot
  obtain ⟨_, -, hsnapshot⟩ := bind_eq_ok.mp hsnapshot
  obtain ⟨_, -, hsnapshot⟩ := bind_eq_ok.mp hsnapshot
  obtain ⟨_, -, hsnapshot⟩ := bind_eq_ok.mp hsnapshot
  split at h
  · obtain ⟨-, h⟩ := check_bind_eq_ok.mp h
    rw [check_eq_ok.mp h] at hroot
    cases hroot
  · next hopen =>
    rw [if_pos (hmodel.resolve_left hopen)] at hsnapshot
    obtain ⟨-, hsnapshot⟩ := check_bind_eq_ok.mp hsnapshot
    obtain ⟨root', hroot', hsnapshot⟩ := bind_eq_ok.mp hsnapshot
    obtain rfl : root' = root := Option.some.inj ((requireText_eq_ok.mp hroot').1.symm.trans hroot)
    exact assertDecimal_eq_ok.mp hsnapshot

end Registry

section Referenda

variable {registry : ManifestRegistry} {referendum : ManifestReferendum}

theorem schedule_of_ok {u : Unit} (h : assertSchedule referendum = .ok u) :
    (isDecimal referendum.opensAtUnix ∧ isDecimal referendum.enrollmentClosesAtUnix ∧ isDecimal referendum.closesAtUnix ∧
      isDecimal referendum.revealClosesAtUnix) ∧
      numeral referendum.opensAtUnix < numeral referendum.closesAtUnix ∧
      numeral referendum.enrollmentClosesAtUnix ≤ numeral referendum.closesAtUnix ∧
      numeral referendum.closesAtUnix < numeral referendum.revealClosesAtUnix := by
  obtain ⟨_, hopens, h⟩ := bind_eq_ok.mp h
  obtain ⟨_, henrollment, h⟩ := bind_eq_ok.mp h
  obtain ⟨_, hcloses, h⟩ := bind_eq_ok.mp h
  obtain ⟨_, hreveal, h⟩ := bind_eq_ok.mp h
  obtain ⟨horder, h⟩ := check_bind_eq_ok.mp h
  obtain ⟨hstrict, h⟩ := check_bind_eq_ok.mp h
  exact ⟨⟨assertDecimal_eq_ok.mp hopens, assertDecimal_eq_ok.mp henrollment, assertDecimal_eq_ok.mp hcloses,
    assertDecimal_eq_ok.mp hreveal⟩, hstrict, horder.2, check_eq_ok.mp h⟩

theorem referendum_of_ok {u u' : Unit} {steps : List DeploymentStep} (hid : ¬isBlank referendum.referendumId)
    (h : assertReferendum p registry referendum = .ok u) (hroots : assertReferendumRoots p steps referendum = .ok u') :
    referendum.Accepted := by
  obtain ⟨contractAddress, hcontract, -⟩ := bind_eq_ok.mp hroots
  obtain ⟨_, hevent, h⟩ := bind_eq_ok.mp h
  obtain ⟨_, horganizer, h⟩ := bind_eq_ok.mp h
  obtain ⟨_, hpublisher, h⟩ := bind_eq_ok.mp h
  obtain ⟨-, h⟩ := check_bind_eq_ok.mp h
  obtain ⟨_, -, h⟩ := bind_eq_ok.mp h
  obtain ⟨-, h⟩ := check_bind_eq_ok.mp h
  obtain ⟨_, -, h⟩ := bind_eq_ok.mp h
  obtain ⟨-, h⟩ := check_bind_eq_ok.mp h
  obtain ⟨_, hschedule, h⟩ := bind_eq_ok.mp h
  obtain ⟨_, -, h⟩ := bind_eq_ok.mp h
  obtain ⟨_, -, h⟩ := bind_eq_ok.mp h
  obtain ⟨_, hassurance, h⟩ := bind_eq_ok.mp h
  obtain ⟨_, hvalidity, h⟩ := bind_eq_ok.mp h
  obtain ⟨htitle, hquestion⟩ := check_eq_ok.mp h
  obtain ⟨⟨hopens, henrollment, hcloses, hreveal⟩, hstrict, horder, hlast⟩ := schedule_of_ok hschedule
  exact {
    referendumId := hid
    contractAddress := ⟨contractAddress, requireText_eq_ok.mp hcontract⟩
    eventIdHex := assertHex32_eq_ok.mp hevent
    organizerKeyHex := assertHex32_eq_ok.mp horganizer
    rootPublisherKeyHex := assertHex32_eq_ok.mp hpublisher
    opensAtUnix := hopens
    enrollmentClosesAtUnix := henrollment
    closesAtUnix := hcloses
    revealClosesAtUnix := hreveal
    opens_lt := hstrict
    enrollment_le := horder
    closes_lt := hlast
    minimumAssurance := assertDecimal_eq_ok.mp hassurance
    validityReference := assertDecimal_eq_ok.mp hvalidity
    title := htitle
    question := hquestion }

/-- The referenda pass their checks, and no id stands twice or among those seen before. -/
theorem referenda_of_ok {ids : List JsString} {referenda : List ManifestReferendum} {u : Unit}
    (h : assertReferenda p registry ids referenda = .ok u) :
    (referenda.map ManifestReferendum.referendumId).Nodup ∧ ∀ referendum ∈ referenda,
      referendum.referendumId ∉ ids ∧ ¬isBlank referendum.referendumId ∧
        assertReferendum p registry referendum = .ok () := by
  induction referenda generalizing ids with
  | nil => exact ⟨List.nodup_nil, fun referendum hreferendum ↦ (by cases hreferendum)⟩
  | cons first referenda ih =>
    obtain ⟨⟨hblank, hnew⟩, h⟩ := check_bind_eq_ok.mp h
    obtain ⟨_, hfirst, h⟩ := bind_eq_ok.mp h
    obtain ⟨hnodup, hrest⟩ := ih h
    constructor
    · rw [List.map_cons, List.nodup_cons]
      refine ⟨fun hmem ↦ ?_, hnodup⟩
      obtain ⟨other, hother, hid⟩ := List.mem_map.mp hmem
      exact (hrest other hother).1 (hid ▸ List.mem_cons_self)
    · rw [List.forall_mem_cons]
      exact ⟨⟨hnew, hblank, hfirst⟩, fun other hother ↦
        ⟨fun hmem ↦ (hrest other hother).1 (List.mem_cons_of_mem _ hmem), (hrest other hother).2⟩⟩

end Referenda

theorem record_of_validate {manifest : Manifest} {u : Unit}
    (h : validatePassportV2DeploymentManifest p manifest = .ok u) : assertRecord p manifest.record = .ok () := by
  obtain ⟨_, -, h⟩ := bind_eq_ok.mp h
  obtain ⟨_, hrecord, -⟩ := bind_eq_ok.mp h
  exact hrecord

theorem accepted_of_ok {manifest : DeploymentManifest} {digestInput : JsString} {u u' : Unit}
    (h : assertRecord p manifest = .ok u)
    (hcomplete : assertCompletePassportV2DeploymentManifest p manifest digestInput = .ok u') : manifest.Accepted p := by
  have hroots := assertAll_eq_ok.mp (roots_of_complete hcomplete)
  obtain ⟨-, h⟩ := check_bind_eq_ok.mp h
  obtain ⟨-, h⟩ := check_bind_eq_ok.mp h
  obtain ⟨-, h⟩ := check_bind_eq_ok.mp h
  obtain ⟨hmetadata, h⟩ := check_bind_eq_ok.mp h
  obtain ⟨_, -, h⟩ := bind_eq_ok.mp h
  obtain ⟨_, -, h⟩ := bind_eq_ok.mp h
  obtain ⟨_, -, h⟩ := bind_eq_ok.mp h
  obtain ⟨_, -, h⟩ := bind_eq_ok.mp h
  obtain ⟨_, hregistry, h⟩ := bind_eq_ok.mp h
  obtain ⟨hne, h⟩ := check_bind_eq_ok.mp h
  obtain ⟨_, hreferenda, -⟩ := bind_eq_ok.mp h
  obtain ⟨hnodup, hall⟩ := referenda_of_ok hreferenda
  obtain ⟨_, hregistryId, hregistry⟩ := bind_eq_ok.mp hregistry
  obtain ⟨_, hissuerIdHex, hregistry⟩ := bind_eq_ok.mp hregistry
  obtain ⟨_, hbinding, hregistry⟩ := bind_eq_ok.mp hregistry
  obtain ⟨hissuerId, hregistry⟩ := check_bind_eq_ok.mp hregistry
  obtain ⟨_, hepoch, hmodel⟩ := bind_eq_ok.mp hregistry
  obtain ⟨_, -, hcomplete⟩ := bind_eq_ok.mp hcomplete
  obtain ⟨_, -, hcomplete⟩ := bind_eq_ok.mp hcomplete
  obtain ⟨_, -, hcomplete⟩ := bind_eq_ok.mp hcomplete
  obtain ⟨_, -, hcomplete⟩ := bind_eq_ok.mp hcomplete
  obtain ⟨_, hsnapshot, -⟩ := bind_eq_ok.mp hcomplete
  obtain ⟨address, haddress, hrest⟩ := bind_eq_ok.mp hsnapshot
  obtain ⟨binding, hhex, -⟩ := bind_eq_ok.mp hrest
  obtain ⟨haddress, hnonempty⟩ := requireText_eq_ok.mp haddress
  obtain ⟨hhex, -⟩ := requireText_eq_ok.mp hhex
  obtain ⟨expected, hexpected, hsame⟩ := binding_of_ok hbinding haddress hhex
  exact {
    apiUrl := hmetadata.2
    registryIdHex := assertHex32_eq_ok.mp hregistryId
    issuerIdHex := assertHex32_eq_ok.mp hissuerIdHex
    issuerId := hissuerId
    binding := ⟨address, binding, expected, haddress, hnonempty, hhex, hexpected, hsame⟩
    credentialEpoch := assertDecimal_eq_ok.mp hepoch
    frozenRootField := frozenRoot_of_ok hmodel hsnapshot
    referenda_ne := hne
    ids_nodup := hnodup
    referenda := fun referendum hreferendum ↦
      referendum_of_ok (hall referendum hreferendum).2.1 (hall referendum hreferendum).2.2
        (hroots referendum hreferendum) }

end MidnightReferendum.Deployment
