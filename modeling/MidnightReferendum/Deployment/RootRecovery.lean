import MidnightReferendum.Deployment.RootJournal
import MidnightReferendum.Systems.Checks

/-!
# What survives a restart

A run that is started again attests and publishes what the manifest has no step for. So it recovers from every end of
the runs before it but two: a publication that took effect and was not recorded is tried again and refused, and a
publication that was recorded and not yet listed is forgotten once the registry has another root.
-/

namespace MidnightReferendum.DeployScript

open MidnightReferendum.Compact Checks Deployment Execution Js

variable {B D : Type} {s : Script B D}

/-! ## Between two steps -/

/-- The roots that the referendum accepts. -/
abbrev World.accepted (w : World s) : Finset D := w.referendum.acceptedCredentialRoots

/-- The root of a publication that has taken effect and waits to be recorded. -/
def unrecorded : Option (Frame D) → Option D
  | some (.recordPublish root _ .confirmed _) => some root
  | _ => none

variable {manifest : DeploymentManifest} {accepted : Finset D} {root : D}

/-- What the manifest says is true of the referendum. -/
structure Books (s : Script B D) (manifest : DeploymentManifest) (accepted : Finset D) : Prop where
  nodup : (acceptedRoots manifest).Nodup
  initial : s.rootField s.referendum.initialCredentialRoot ∈ acceptedRoots manifest
  listed : ∀ rootField ∈ acceptedRoots manifest, ∃ root ∈ accepted, s.rootField root = rootField
  admitted : ∀ rootField ∈ acceptedRoots manifest,
    rootField ≠ s.rootField s.referendum.initialCredentialRoot → Admitted manifest rootField
  recorded : ∀ root, Recorded manifest .referendumPublishRoot (s.rootField root) →
    root ∈ accepted ∧ Recorded manifest .registryAttest (s.rootField root)

/-- The manifest knows that the root is accepted. -/
def Known (s : Script B D) (manifest : DeploymentManifest) (root : D) : Prop :=
  s.rootField root ∈ acceptedRoots manifest ∨ Recorded manifest .referendumPublishRoot (s.rootField root)

/-- The list has every accepted root, but not this one. -/
structure Pending (s : Script B D) (manifest : DeploymentManifest) (accepted : Finset D) (root : D) : Prop where
  unlisted : s.rootField root ∉ acceptedRoots manifest
  others : ∀ other ∈ accepted, other ≠ root → s.rootField other ∈ acceptedRoots manifest

/-- What a run has found or done before it waits. -/
def Reached (s : Script B D) (manifest : DeploymentManifest) (accepted : Finset D) : Frame D → Prop
  | .readRegistryState => True
  | .attestRegistryRoot root | .recordAttest root _ _ => Pending s manifest accepted root
  | .observeAttest root _ =>
    Pending s manifest accepted root ∧ Recorded manifest .registryAttest (s.rootField root)
  | .publishCredentialRoot root _ =>
    Pending s manifest accepted root ∧ Recorded manifest .registryAttest (s.rootField root) ∧ root ∉ accepted
  | .recordPublish root _ _ _ =>
    Pending s manifest accepted root ∧ Recorded manifest .registryAttest (s.rootField root) ∧ root ∈ accepted
  | .observePublish root | .updateReferendum root =>
    Pending s manifest accepted root ∧ Recorded manifest .referendumPublishRoot (s.rootField root)

/-- The invariant of the runs that recover. -/
structure Sound (w : World s) : Prop where
  books : Books s w.manifest w.accepted
  known : ∀ root ∈ w.accepted, Known s w.manifest root ∨ unrecorded w.running = some root
  running : ∀ frame, w.running = some frame → w.ended = none ∧ Reached s w.manifest w.accepted frame
  published : w.published.Nodup ∧ ∀ root ∈ w.published, root ∈ w.accepted
  not_refused : w.ended ≠ some (.error "This credential root is already accepted")
  complete : w.ended = some (.ok ()) → ∀ root ∈ w.accepted, s.rootField root ∈ acceptedRoots w.manifest

section Books

variable {id : StepId} {status : StepStatus} {receipt : CanonicalReceipt}
  {attestationTransactionId : Option JsString}

theorem Books.record (h : Books s manifest accepted)
    (hroot : id = .referendumPublishRoot →
      root ∈ accepted ∧ Recorded manifest .registryAttest (s.rootField root)) :
    Books s (recordRepeatableStep manifest id (s.rootField root) status receipt attestationTransactionId)
      accepted where
  nodup := h.nodup
  initial := h.initial
  listed := h.listed
  admitted rootField hmem hne :=
    have hadmitted := h.admitted rootField hmem hne
    ⟨hadmitted.attested.record, hadmitted.published.record⟩
  recorded other hother := by
    obtain ⟨hid, hfield⟩ | hbefore := hother.of_record
    · obtain rfl : other = root := s.rootField_injective hfield
      obtain ⟨hmem, hattested⟩ := hroot hid.symm
      exact ⟨hmem, hattested.record⟩
    · obtain ⟨hmem, hattested⟩ := h.recorded other hbefore
      exact ⟨hmem, hattested.record⟩

theorem Books.observe (h : Books s manifest accepted) (observation : ManifestObservation) :
    Books s (observe manifest observation) accepted :=
  { h with
    admitted := fun rootField hmem hne ↦
      have hadmitted := h.admitted rootField hmem hne
      ⟨hadmitted.attested, hadmitted.published⟩ }

theorem Books.updateReferendum (h : Books s manifest accepted) (hpending : Pending s manifest accepted root)
    (hpublished : Recorded manifest .referendumPublishRoot (s.rootField root)) :
    Books s (updateReferendum manifest (acceptedRoots manifest ++ [s.rootField root])) accepted := by
  obtain ⟨hmem, hattested⟩ := h.recorded root hpublished
  have hroots := acceptedRoots_updateReferendum h.initial (acceptedRoots manifest ++ [s.rootField root])
  constructor
  · rw [hroots, ← List.concat_eq_append]
    exact h.nodup.concat hpending.unlisted
  · rw [hroots]
    exact List.mem_append_left _ h.initial
  · intro rootField hlisted
    rw [hroots, List.mem_append, List.mem_singleton] at hlisted
    obtain hlisted | rfl := hlisted
    · exact h.listed rootField hlisted
    · exact ⟨root, hmem, rfl⟩
  · intro rootField hlisted hne
    rw [hroots, List.mem_append, List.mem_singleton] at hlisted
    obtain hlisted | rfl := hlisted
    · obtain ⟨hattested', hpublished'⟩ := h.admitted rootField hlisted hne
      exact ⟨hattested', hpublished'⟩
    · exact ⟨hattested, hpublished⟩
  · exact h.recorded

theorem Known.record {rootField : JsString} (h : Known s manifest root) :
    Known s (recordRepeatableStep manifest id rootField status receipt attestationTransactionId) root :=
  h.imp_right Recorded.record

theorem Pending.record {rootField : JsString} (h : Pending s manifest accepted root) :
    Pending s (recordRepeatableStep manifest id rootField status receipt attestationTransactionId) accepted root :=
  ⟨h.unlisted, h.others⟩

theorem Pending.observe (h : Pending s manifest accepted root) (observation : ManifestObservation) :
    Pending s (observe manifest observation) accepted root :=
  ⟨h.unlisted, h.others⟩

/-- Nothing accepted is missing any more. -/
theorem Pending.updateReferendum (h : Pending s manifest accepted root) (hbooks : Books s manifest accepted)
    (other : D) (hother : other ∈ accepted) :
    s.rootField other ∈
      acceptedRoots (updateReferendum manifest (acceptedRoots manifest ++ [s.rootField root])) := by
  rw [acceptedRoots_updateReferendum hbooks.initial]
  obtain rfl | hne := eq_or_ne other root
  · exact List.mem_append_right _ (List.mem_singleton.mpr rfl)
  · exact List.mem_append_left _ (h.others other hother hne)

end Books

/-! ## The runs that recover -/

/-- A crash does not hit a publication that waits to be recorded, and a run finds no publish step for a root that
neither is listed nor is the registry's current root. -/
def Recovers (w : World s) : Event B D → Prop
  | .crash => unrecorded w.running = none
  | .answer .state =>
    ∀ step ∈ w.manifest.steps, step.id = .referendumPublishRoot → ∀ rootField ∈ step.rootField,
      rootField ∈ acceptedRoots w.manifest ∨
        rootField = s.rootField (CredentialRegistryV1.currentRoot s.hashing w.registry)
  | _ => True

instance (w : World s) : (event : Event B D) → Decidable (Recovers w event)
  | .crash => inferInstanceAs (Decidable (_ = none))
  | .answer .state => inferInstanceAs (Decidable (∀ step ∈ w.manifest.steps, _ → ∀ rootField ∈ step.rootField, _ ∨ _))
  | .start | .registry _ | .referendum _ | .answer (.block _ _) | .answer .saved | .answer (.observed _) =>
    isTrue trivial

theorem Sound.await {w : World s} {frame : Frame D} (hbooks : Books s w.manifest w.accepted)
    (hknown : ∀ root ∈ w.accepted, Known s w.manifest root ∨ unrecorded (some frame) = some root)
    (hreached : Reached s w.manifest w.accepted frame)
    (hpublished : w.published.Nodup ∧ ∀ root ∈ w.published, root ∈ w.accepted) (hended : w.ended = none) :
    Sound (w.await frame) where
  books := hbooks
  known := hknown
  running frame' hframe' := by
    obtain rfl : frame = frame' := Option.some.inj hframe'
    exact ⟨hended, hreached⟩
  published := hpublished
  not_refused := by
    change w.ended ≠ _
    rw [hended]
    nofun
  complete hok := by
    change w.ended = _ at hok
    rw [hended] at hok
    cases hok

theorem Sound.finish {w : World s} {result : Except String Unit} (hbooks : Books s w.manifest w.accepted)
    (hknown : ∀ root ∈ w.accepted, Known s w.manifest root)
    (hpublished : w.published.Nodup ∧ ∀ root ∈ w.published, root ∈ w.accepted)
    (hresult : result ≠ .error "This credential root is already accepted")
    (hcomplete : result = .ok () → ∀ root ∈ w.accepted, s.rootField root ∈ acceptedRoots w.manifest) :
    Sound (w.finish result) where
  books := hbooks
  known root hroot := Or.inl (hknown root hroot)
  running frame hframe := by cases hframe
  published := hpublished
  not_refused hrefused := hresult (Option.some.inj hrefused)
  complete hok := hcomplete (Option.some.inj hok)

theorem Sound.known_of_recorded {w : World s} (hw : Sound w) (hrecorded : unrecorded w.running = none) :
    ∀ root ∈ w.accepted, Known s w.manifest root := by
  intro root hroot
  obtain hknown | hunrecorded := hw.known root hroot
  · exact hknown
  · rw [hrecorded] at hunrecorded
    cases hunrecorded

theorem Sound.known_of_frame {w : World s} (hw : Sound w) {frame : Frame D} (hframe : w.running = some frame)
    (hrecorded : unrecorded (some frame) = none) : ∀ root ∈ w.accepted, Known s w.manifest root :=
  hw.known_of_recorded (hframe ▸ hrecorded)

/-- A run that reads the registry finds at most its current root unlisted. -/
theorem Sound.listed_or_current {w : World s} (hw : Sound w) (hframe : w.running = some .readRegistryState)
    (hrecovers : Recovers w (.answer .state)) (root : D) (hroot : root ∈ w.accepted)
    (hne : root ≠ CredentialRegistryV1.currentRoot s.hashing w.registry) :
    s.rootField root ∈ acceptedRoots w.manifest := by
  obtain hlisted | hrecorded := hw.known_of_frame hframe rfl root hroot
  · exact hlisted
  · obtain ⟨step, hstep, hid, hfield⟩ := hrecorded.exists_mem
    obtain hlisted | hcurrent := hrecovers step hstep hid _ hfield
    · exact hlisted
    · exact absurd (s.rootField_injective hcurrent) hne

/-! ## Publications and refusals -/

variable [DecidableEq D]

theorem Books.publish (h : Books s manifest accepted) (root : D) :
    Books s manifest (insert root accepted) where
  nodup := h.nodup
  initial := h.initial
  listed rootField hmem := by
    obtain ⟨other, hother, hfield⟩ := h.listed rootField hmem
    exact ⟨other, Finset.mem_insert_of_mem hother, hfield⟩
  admitted := h.admitted
  recorded other hother := by
    obtain ⟨hmem, hattested⟩ := h.recorded other hother
    exact ⟨Finset.mem_insert_of_mem hmem, hattested⟩

theorem Pending.publish (h : Pending s manifest accepted root) : Pending s manifest (insert root accepted) root where
  unlisted := h.unlisted
  others other hother hne := h.others other (Finset.mem_of_mem_insert_of_ne hother hne) hne

variable [DecidableEq B]

theorem attestCurrentRoot_error {registry : CredentialRegistryV1.Ledger B D} {root : D} {message : String}
    (h : CredentialRegistryV1.step s.hashing s.registry registry (.attestCurrentRoot root) = .error message) :
    message = "Invalid registry root" := by
  unfold CredentialRegistryV1.step transact at h
  simp only [CredentialRegistryV1.circuit, CredentialRegistryV1.attestCurrentRoot, run_assert_bind, run_get_bind] at h
  split_ifs at h
  · cases h
  · exact (Except.error.inj h).symm

/-- Only a root that the referendum accepts is refused as one. -/
theorem publishCredentialRoot_error {referendum : ReferendumV2.Ledger s.hashing} {time : UInt64} {root : D}
    {secret : B} {message : String} (hroot : root ∉ referendum.acceptedCredentialRoots)
    (h : ReferendumV2.step s.hashing s.referendum referendum ⟨time, .publishCredentialRoot root secret⟩ =
      .error message) :
    message ≠ "This credential root is already accepted" := by
  rintro rfl
  unfold ReferendumV2.step transact at h
  simp only [ReferendumV2.circuit, ReferendumV2.publishCredentialRoot, run_assert_bind, run_get_bind,
    if_pos hroot] at h
  split_ifs at h <;> simp at h

/-! ## Every piece of a run -/

section Frames

variable {w : World s} {receipt attestReceipt : CanonicalReceipt} {status : StepStatus}

theorem Sound.readRegistryState (hw : Sound w) (hframe : w.running = some .readRegistryState)
    (hrecovers : Recovers w (.answer .state)) {w' : World s} (h : resume w .readRegistryState .state = some w') :
    Sound w' := by
  have hknown := hw.known_of_frame hframe rfl
  have hothers := hw.listed_or_current hframe hrecovers
  obtain rfl := Option.some.inj h
  split_ifs with hcurrent
  · apply Sound.finish hw.books hknown hw.published
    · nofun
    · intro _ root hroot
      by_cases hroot' : root = CredentialRegistryV1.currentRoot s.hashing w.registry
      · rwa [hroot']
      · exact hothers root hroot hroot'
  · have hpending : Pending s w.manifest w.accepted (CredentialRegistryV1.currentRoot s.hashing w.registry) :=
      ⟨hcurrent, hothers⟩
    rw [admitRegistryRoot]
    cases stepReceipt w.manifest .registryAttest
        (s.rootField (CredentialRegistryV1.currentRoot s.hashing w.registry)) <;>
      exact Sound.await hw.books (fun root hroot ↦ Or.inl (hknown root hroot)) hpending hw.published
        (hw.running _ hframe).1

theorem Sound.attestRegistryRoot {root : D} {time : UInt64} (hw : Sound w)
    (hframe : w.running = some (.attestRegistryRoot root)) {w' : World s}
    (h : resume w (.attestRegistryRoot root) (.block time receipt) = some w') : Sound w' := by
  obtain ⟨hended, hpending⟩ := hw.running _ hframe
  have hknown := hw.known_of_frame hframe rfl
  rw [resume] at h
  split at h
  · next message herror =>
    obtain rfl := Option.some.inj h
    apply Sound.finish hw.books hknown hw.published
    · rw [attestCurrentRoot_error herror]
      decide
    · nofun
  · next registry _ =>
    obtain rfl := Option.some.inj h
    exact Sound.await (w := { w with registry }) hw.books (fun root hroot ↦ Or.inl (hknown root hroot)) hpending
      hw.published hended

theorem Sound.recordAttest {root : D} (hw : Sound w) (hframe : w.running = some (.recordAttest root status receipt))
    {w' : World s} (h : resume w (.recordAttest root status receipt) .saved = some w') : Sound w' := by
  obtain ⟨hended, hpending⟩ := hw.running _ hframe
  have hknown := hw.known_of_frame hframe rfl
  obtain rfl := Option.some.inj h
  exact Sound.await (hw.books.record nofun) (fun root hroot ↦ Or.inl (hknown root hroot).record)
    ⟨hpending.record, recorded_record⟩ hw.published hended

theorem Sound.observeAttest {root : D} {observation : ManifestObservation} (hw : Sound w)
    (hframe : w.running = some (.observeAttest root receipt)) {w' : World s}
    (h : resume w (.observeAttest root receipt) (.observed observation) = some w') : Sound w' := by
  obtain ⟨hended, hpending, hattested⟩ := hw.running _ hframe
  have hknown := hw.known_of_frame hframe rfl
  obtain rfl := Option.some.inj h
  rw [publishStep]
  cases hstep : stepReceipt (observe w.manifest { observation with stage := .registryAttest }) .referendumPublishRoot
      (s.rootField root) with
  | some publishReceipt =>
    have hrecorded : Recorded w.manifest .referendumPublishRoot (s.rootField root) :=
      Option.isSome_of_eq_some hstep
    exact Sound.await (hw.books.observe _) (fun root hroot ↦ Or.inl (hknown root hroot))
      ⟨hpending.observe _, hattested, (hw.books.recorded root hrecorded).1⟩ hw.published hended
  | none =>
    have hfresh : root ∉ w.accepted := by
      intro hroot
      obtain hlisted | hrecorded := hknown root hroot
      · exact hpending.unlisted hlisted
      · exact (Option.isSome_iff_ne_none.mp hrecorded) hstep
    exact Sound.await (hw.books.observe _) (fun root hroot ↦ Or.inl (hknown root hroot))
      ⟨hpending.observe _, hattested, hfresh⟩ hw.published hended

theorem Sound.publishCredentialRoot {root : D} {time : UInt64} (hw : Sound w)
    (hframe : w.running = some (.publishCredentialRoot root attestReceipt)) {w' : World s}
    (h : resume w (.publishCredentialRoot root attestReceipt) (.block time receipt) = some w') : Sound w' := by
  obtain ⟨hended, hpending, hattested, hfresh⟩ := hw.running _ hframe
  have hknown := hw.known_of_frame hframe rfl
  rw [resume] at h
  split at h
  · next message herror =>
    obtain rfl := Option.some.inj h
    apply Sound.finish hw.books hknown hw.published
    · exact fun hmessage ↦ publishCredentialRoot_error hfresh herror (Except.error.inj hmessage)
    · nofun
  · next referendum hok =>
    obtain rfl := Option.some.inj h
    obtain ⟨_, rfl⟩ := ReferendumV2.publishCredentialRoot_ok.mp hok
    obtain ⟨hnodup, hpublished⟩ := hw.published
    apply Sound.await (hw.books.publish root)
    · intro other hother
      obtain rfl | hbefore := Finset.mem_insert.mp hother
      · exact Or.inr rfl
      · exact Or.inl (hknown other hbefore)
    · exact ⟨hpending.publish, hattested, Finset.mem_insert_self _ _⟩
    · constructor
      · rw [← List.concat_eq_append]
        exact hnodup.concat fun hroot ↦ hfresh (hpublished root hroot)
      · intro other hother
        obtain hbefore | hself := List.mem_append.mp hother
        · exact Finset.mem_insert_of_mem (hpublished other hbefore)
        · obtain rfl := List.mem_singleton.mp hself
          exact Finset.mem_insert_self _ _
    · exact hended

theorem Sound.recordPublish {root : D} (hw : Sound w)
    (hframe : w.running = some (.recordPublish root attestReceipt status receipt)) {w' : World s}
    (h : resume w (.recordPublish root attestReceipt status receipt) .saved = some w') : Sound w' := by
  obtain ⟨hended, hpending, hattested, hroot⟩ := hw.running _ hframe
  obtain rfl := Option.some.inj h
  apply Sound.await (hw.books.record fun _ ↦ ⟨hroot, hattested⟩)
  · intro other hother
    obtain hknown | hunrecorded := hw.known other hother
    · exact Or.inl hknown.record
    · obtain rfl : root = other := by
        rw [hframe] at hunrecorded
        cases status <;> cases hunrecorded
        rfl
      exact Or.inl (Or.inr recorded_record)
  · exact ⟨hpending.record, recorded_record⟩
  · exact hw.published
  · exact hended

theorem Sound.observePublish {root : D} {observation : ManifestObservation} (hw : Sound w)
    (hframe : w.running = some (.observePublish root)) {w' : World s}
    (h : resume w (.observePublish root) (.observed observation) = some w') : Sound w' := by
  obtain ⟨hended, hpending, hrecorded⟩ := hw.running _ hframe
  have hknown := hw.known_of_frame hframe rfl
  obtain rfl := Option.some.inj h
  exact Sound.await (hw.books.observe _) (fun root hroot ↦ Or.inl (hknown root hroot))
    ⟨hpending.observe _, hrecorded⟩ hw.published hended

theorem Sound.updateReferendum {root : D} (hw : Sound w) (hframe : w.running = some (.updateReferendum root))
    {w' : World s} (h : resume w (.updateReferendum root) .saved = some w') : Sound w' := by
  obtain ⟨_, hpending, hrecorded⟩ := hw.running _ hframe
  have hlisted := hpending.updateReferendum hw.books
  obtain rfl := Option.some.inj h
  exact Sound.finish (hw.books.updateReferendum hpending hrecorded) (fun other hother ↦ Or.inl (hlisted other hother))
    hw.published nofun fun _ ↦ hlisted

/-- Every piece of a run keeps the invariant. -/
theorem Sound.resume (hw : Sound w) {frame : Frame D} (hframe : w.running = some frame) {answer : Answer}
    (hrecovers : Recovers w (.answer answer)) {w' : World s} (h : resume w frame answer = some w') : Sound w' := by
  cases frame with
  | readRegistryState =>
    cases answer with
    | state => exact hw.readRegistryState hframe hrecovers h
    | _ => cases h
  | attestRegistryRoot _ =>
    cases answer with
    | block _ _ => exact hw.attestRegistryRoot hframe h
    | _ => cases h
  | recordAttest _ _ _ =>
    cases answer with
    | saved => exact hw.recordAttest hframe h
    | _ => cases h
  | observeAttest _ _ =>
    cases answer with
    | observed _ => exact hw.observeAttest hframe h
    | _ => cases h
  | publishCredentialRoot _ _ =>
    cases answer with
    | block _ _ => exact hw.publishCredentialRoot hframe h
    | _ => cases h
  | recordPublish _ _ _ _ =>
    cases answer with
    | saved => exact hw.recordPublish hframe h
    | _ => cases h
  | observePublish _ =>
    cases answer with
    | observed _ => exact hw.observePublish hframe h
    | _ => cases h
  | updateReferendum _ =>
    cases answer with
    | saved => exact hw.updateReferendum hframe h
    | _ => cases h

end Frames

/-! ## Runs -/

omit [DecidableEq D] [DecidableEq B] in
/-- The invariant looks at the accepted roots of the referendum only. -/
theorem Sound.of_accepted_eq {w : World s} (hw : Sound w) {referendum : ReferendumV2.Ledger s.hashing}
    (h : referendum.acceptedCredentialRoots = w.accepted) : Sound { w with referendum } := by
  refine ⟨?_, ?_, ?_, ?_, hw.not_refused, ?_⟩ <;> simp only [World.accepted, h]
  · exact hw.books
  · exact hw.known
  · exact hw.running
  · exact hw.published
  · exact hw.complete

theorem step_sound {w w' : World s} {event : Event B D} (hw : Sound w) (hrecovers : Recovers w event)
    (h : step w event = .ok w') : Sound w' := by
  cases event with
  | start =>
    rw [step] at h
    cases hrunning : w.running with
    | some frame =>
      rw [hrunning] at h
      cases h
    | none =>
      rw [hrunning] at h
      obtain rfl := Except.ok.inj h
      have hknown := hw.known_of_recorded (hrunning ▸ rfl)
      exact Sound.await (w := { w with ended := none }) hw.books (fun root hroot ↦ Or.inl (hknown root hroot)) trivial
        hw.published rfl
  | answer answer =>
    rw [step] at h
    split at h
    · cases h
    · next w'' hresume =>
      obtain rfl := Except.ok.inj h
      obtain ⟨frame, hframe, hresume⟩ := Option.bind_eq_some_iff.mp hresume
      exact hw.resume hframe hrecovers hresume
  | crash =>
    obtain rfl := Except.ok.inj h
    have hknown := hw.known_of_recorded hrecovers
    exact {
      books := hw.books
      known := fun root hroot ↦ Or.inl (hknown root hroot)
      running := nofun
      published := hw.published
      not_refused := nofun
      complete := nofun }
  | registry call =>
    obtain ⟨registry, _, h⟩ := bind_eq_ok.mp h
    obtain rfl := Except.ok.inj h
    exact { hw with }
  | referendum tx =>
    rw [step] at h
    split at h
    · next hkeeps =>
      obtain ⟨referendum, hok, h⟩ := bind_eq_ok.mp h
      obtain rfl := Except.ok.inj h
      cases ReferendumV2.rootMove_of_step hok with
      | stay haccepted _ => exact hw.of_accepted_eq haccepted
      | publish _ _ hcall =>
        rw [hcall] at hkeeps
        cases hkeeps
      | revoke _ _ hcall =>
        rw [hcall] at hkeeps
        cases hkeeps
    · cases h

/-! ## Restarts -/

/-- The referendum is deployed, and no run has admitted another root. -/
structure Deployed (w : World s) : Prop where
  referendum : ReferendumV2.initialState s.hashing s.referendum = .ok w.referendum
  acceptedRoots : acceptedRoots w.manifest = [s.rootField s.referendum.initialCredentialRoot]
  unpublished : ∀ step ∈ w.manifest.steps, step.id ≠ .referendumPublishRoot
  running : w.running = none
  ended : w.ended = none
  published : w.published = []

/-- The list has the roots that the referendum accepts, and a later one has its two steps. -/
structure Faithful (w : World s) : Prop where
  nodup : (acceptedRoots w.manifest).Nodup
  mem_iff : ∀ rootField, rootField ∈ acceptedRoots w.manifest ↔ ∃ root ∈ w.accepted, s.rootField root = rootField
  admitted : ∀ root ∈ w.accepted, root ≠ s.referendum.initialCredentialRoot →
    Admitted w.manifest (s.rootField root)

structure SurvivesRestarts (w : World s) : Prop where
  not_refused : w.ended ≠ some (.error "This credential root is already accepted")
  fresh : ∀ root receipt, w.running = some (.publishCredentialRoot root receipt) → root ∉ w.accepted
  published_once : w.published.Nodup
  faithful : w.ended = some (.ok ()) → Faithful w

theorem Deployed.sound {w : World s} (h : Deployed w) : Sound w := by
  have haccepted : w.accepted = {s.referendum.initialCredentialRoot} := by
    rw [World.accepted, (ReferendumV2.initialState_ok.mp h.referendum).2]
  have hunpublished : ∀ rootField, ¬Recorded w.manifest .referendumPublishRoot rootField := by
    intro rootField hrecorded
    obtain ⟨step, hstep, hid, _⟩ := hrecorded.exists_mem
    exact h.unpublished step hstep hid
  constructor
  · rw [haccepted]
    constructor
    · rw [h.acceptedRoots]
      exact List.nodup_singleton _
    · rw [h.acceptedRoots]
      exact List.mem_singleton.mpr rfl
    · intro rootField hmem
      rw [h.acceptedRoots] at hmem
      exact ⟨_, Finset.mem_singleton_self _, (List.mem_singleton.mp hmem).symm⟩
    · intro rootField hmem hne
      rw [h.acceptedRoots] at hmem
      exact absurd (List.mem_singleton.mp hmem) hne
    · intro root hrecorded
      exact absurd hrecorded (hunpublished _)
  · intro root hroot
    rw [haccepted] at hroot
    rw [Finset.mem_singleton.mp hroot, Known, h.acceptedRoots]
    exact Or.inl (Or.inl (List.mem_singleton.mpr rfl))
  · intro frame hframe
    rw [h.running] at hframe
    cases hframe
  · rw [h.published]
    exact ⟨List.nodup_nil, nofun⟩
  · rw [h.ended]
    nofun
  · intro hended
    rw [h.ended] at hended
    cases hended

omit [DecidableEq D] [DecidableEq B] in
theorem Sound.survivesRestarts {w : World s} (hw : Sound w) : SurvivesRestarts w where
  not_refused := hw.not_refused
  fresh root receipt hframe := by
    obtain ⟨_, _, _, hfresh⟩ := hw.running _ hframe
    exact hfresh
  published_once := hw.published.1
  faithful hended := by
    constructor
    · exact hw.books.nodup
    · intro rootField
      constructor
      · exact hw.books.listed rootField
      · rintro ⟨root, hroot, rfl⟩
        exact hw.complete hended root hroot
    · intro root hroot hne
      exact hw.books.admitted _ (hw.complete hended root hroot) fun heq ↦ hne (s.rootField_injective heq)

/-- Runs of the script that recover admit each root once, and a run that completes leaves a true list. -/
theorem admission_survives_restarts {w₀ : World s} (h₀ : Deployed w₀) (events : List (Event B D))
    (hevents : ∀ e ∈ Execution.accepted step w₀ events, Recovers e.1 e.2) :
    SurvivesRestarts (run step w₀ events) := by
  have hsound : Sound (run step w₀ events) :=
    run_history (I := fun _ w ↦ Sound w) (P := fun e ↦ Recovers e.1 e.2)
      (fun _ w event w' hw hrecovers hok ↦ step_sound hw hrecovers hok) h₀.sound events hevents
  exact hsound.survivesRestarts

/-! ## Two restarts that fail -/

/-- A toy hashing on numbers, whose digests are their own fields. -/
def sampleHashing : Hashing ℕ ℕ where
  persistentHash bytes := bytes.foldl (fun hash byte ↦ (31 * hash + byte) % 65521) 7
  persistentCommit bytes opening := bytes.foldl (fun hash byte ↦ (37 * hash + byte) % 65521) opening
  persistentCommitEnum ordinal opening := (41 * opening + ordinal) % 65521
  pad text := text.length
  asBytes32 value := value
  leafHash value := (43 * value + 1) % 65521
  transientHash left right := (47 * left + right + 2) % 65521
  emptySubtree height := height
  defaultDigest := 0

def sampleRegistrySealed : CredentialRegistryV1.Sealed ℕ where
  registryId := 6
  issuerId := 4
  credentialEpoch := 7
  issuerKey := roleKey sampleHashing (sampleHashing.pad "cico:registry:issuer:") 1

def sampleLeaf (holderBinding : ℕ) : CredentialRegistryV1.LeafWitness ℕ where
  holderBinding := holderBinding
  credentialCountry := 32
  credentialAgeClass := 2
  credentialAssurance := 2
  credentialValidUntil := 2000000000
  credentialBlind := 3

/-- The registry after the credentials of the first `n` holders. -/
def sampleRegistry (n : ℕ) : CredentialRegistryV1.Ledger ℕ ℕ :=
  CredentialRegistryV1.runCalls sampleHashing sampleRegistrySealed (CredentialRegistryV1.initialState sampleHashing)
    ((List.range n).map fun holder ↦ .addCredential 1 (sampleLeaf holder))

def sampleRoot (n : ℕ) : ℕ := CredentialRegistryV1.currentRoot sampleHashing (sampleRegistry n)

def sampleScript : Script ℕ ℕ where
  hashing := sampleHashing
  registry := sampleRegistrySealed
  referendum := {
    registryId := 6
    issuerId := 4
    credentialEpoch := 7
    initialCredentialRoot := sampleRoot 1
    registryContractBinding := 8
    registryContract := 9
    eventId := 5
    organizerKey := roleKey sampleHashing (sampleHashing.pad "cico:referendum-v2:organizer:") 1
    rootPublisherKey := roleKey sampleHashing (sampleHashing.pad "cico:ref-v2:root-publisher:") 2
    countryPolicy := 32
    countryPolicyEnabled := true
    minimumAssurance := 1
    requireAdult := true
    validityReference := 1900000000
    opensAtUnix := 100
    enrollmentClosesAtUnix := 200
    closesAtUnix := 300
    revealClosesAtUnix := 400 }
  rootPublisherSecret := 2
  field := id
  field_injective := Function.injective_id

def sampleManifest : DeploymentManifest where
  kind := js "runtime"
  version := some 2
  status := .inProgress
  network := .undeployed
  networkId := .undeployed
  generatedAt := []
  source := none
  services := none
  runtime := ⟨[], some 1000, decimal 1900000000⟩
  artifacts := ⟨[], none⟩
  endpoints := ⟨none, none, none, none, none, []⟩
  dust := ⟨none, none, none, none, none, none, false⟩
  submissionTransport := none
  action := none
  relay := none
  lifecycle := none
  manifestDigest := none
  registry := {
    contractAddress := some (decimal 9)
    registryContractBindingHex := some (decimal 8)
    registryIdHex := decimal 6
    issuerId := decimal 4
    issuerIdHex := decimal 4
    credentialEpoch := decimal 7
    currentRootField := some (sampleScript.rootField (sampleRoot 1))
    frozenRootField := none
    credentialCount := some (decimal 1)
    frozen := false
    enrollmentModel := js "open" }
  referenda := [{
    referendumId := decimal 5
    contractAddress := some (decimal 10)
    registryContractBindingHex := some (decimal 8)
    registryContractAddress := some (decimal 9)
    eventIdHex := decimal 5
    organizerKeyHex := decimal sampleScript.referendum.organizerKey
    rootPublisherKeyHex := decimal sampleScript.referendum.rootPublisherKey
    initialRootField := sampleScript.rootField (sampleRoot 1)
    acceptedRoots := [sampleScript.rootField (sampleRoot 1)]
    opensAtUnix := decimal 100
    enrollmentClosesAtUnix := decimal 200
    closesAtUnix := decimal 300
    revealClosesAtUnix := decimal 400
    countryPolicy := some (decimal 32)
    minimumAssurance := decimal 1
    requireAdult := true
    validityReference := decimal 1900000000
    title := js "title"
    question := js "question"
    description := none }]
  steps := []
  observations := []

/-- The referendum accepts the root of the first holder only. -/
def sampleWorld : World sampleScript where
  registry := sampleRegistry 1
  referendum :=
    { ReferendumV2.defaultLedger sampleHashing with acceptedCredentialRoots := {sampleRoot 1} }
  manifest := sampleManifest
  running := none
  ended := none
  published := []

theorem sampleWorld_deployed : Deployed sampleWorld where
  referendum := ReferendumV2.initialState_ok.mpr ⟨by constructor <;> decide +kernel, rfl⟩
  acceptedRoots := by decide +kernel
  unpublished := List.forall_mem_nil _
  running := rfl
  ended := rfl
  published := rfl

/-- Another holder's credential. -/
def sampleIssue (holder : ℕ) : Event ℕ ℕ := .registry (.addCredential 1 (sampleLeaf holder))

def sampleBlock : Answer := .block 110 ⟨[], [], [], decimal 1, [], [], [], some 1, [], [], none⟩

def sampleObserved : Answer := .observed ⟨.registryAttest, [], true, none, none, none, none⟩

/-- A run up to the block of its publication. -/
def sampleAdmission : List (Event ℕ ℕ) :=
  [.start, .answer .state, .answer sampleBlock, .answer .saved, .answer sampleObserved, .answer sampleBlock]

/-- The rest of a run from there. -/
def sampleRest : List (Event ℕ ℕ) := [.answer .saved, .answer sampleObserved, .answer .saved]

/-- The publication was recorded, and the process ended before it was listed. The next run goes on from there. -/
def sampleRecovered : List (Event ℕ ℕ) :=
  sampleIssue 1 :: (sampleAdmission ++ .answer .saved :: .crash ::
    .start :: .answer .state :: .answer .saved :: .answer sampleObserved :: sampleRest)

theorem admission_survives_restarts_sample :
    SurvivesRestarts (run step sampleWorld sampleRecovered) ∧
      (run step sampleWorld sampleRecovered).ended = some (.ok ()) ∧
      (run step sampleWorld sampleRecovered).published = [sampleRoot 2] :=
  ⟨admission_survives_restarts sampleWorld_deployed _ (by decide +kernel), by decide +kernel, by decide +kernel⟩

/-- The publication took effect, and the process ended before it was recorded. The next run publishes again. -/
def sampleUnrecorded : List (Event ℕ ℕ) :=
  sampleIssue 1 :: (sampleAdmission ++ .crash ::
    .start :: .answer .state :: .answer .saved :: .answer sampleObserved :: .answer sampleBlock :: [])

/-- The publication was recorded and not listed, and the registry has moved. The next run admits the next root. -/
def sampleForgotten : List (Event ℕ ℕ) :=
  sampleIssue 1 :: (sampleAdmission ++ .answer .saved :: .crash :: sampleIssue 2 :: (sampleAdmission ++ sampleRest))

theorem restarts_fail :
    Deployed sampleWorld ∧ (run step sampleWorld sampleUnrecorded).published = [sampleRoot 2] ∧
      (run step sampleWorld sampleUnrecorded).ended =
        some (.error "This credential root is already accepted") ∧
      (run step sampleWorld sampleForgotten).ended = some (.ok ()) ∧
      ¬Faithful (run step sampleWorld sampleForgotten) := by
  refine ⟨sampleWorld_deployed, by decide +kernel, by decide +kernel, by decide +kernel, ?_⟩
  intro hfaithful
  have hlisted := (hfaithful.mem_iff (sampleScript.rootField (sampleRoot 2))).mpr
    ⟨sampleRoot 2, by decide +kernel, rfl⟩
  exact absurd hlisted (by decide +kernel)

end MidnightReferendum.DeployScript
