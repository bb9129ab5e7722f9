import MidnightReferendum.Cico.RootAttestation

/-!
# A root reaches every open referendum

The publisher has one marker for all its referenda: after the loop over them it records the root as
published, whatever became of the single calls. The root has reached every referendum whose enrollment
is open as long as no call fails for a referendum that is open and has not accepted the root. One such
failure leaves a referendum behind, and the next cycles answer that nothing has changed.
-/

namespace MidnightReferendum.ReferendumV2

open MidnightReferendum.Compact

variable {B D : Type} {H : Hashing B D} {cfg : Sealed B D}

/-- Enrollment has been closed neither by the organizer nor by its deadline. -/
def EnrollmentOpen (cfg : Sealed B D) (s : Ledger H) (now : UInt64) : Prop :=
  s.enrollmentClosed = false ∧ now < cfg.enrollmentClosesAtUnix

/-- The referendum has accepted the root, although the organizer may have revoked it since. -/
def HasAccepted (s : Ledger H) (root : D) : Prop :=
  root ∈ s.acceptedCredentialRoots ∨ root ∈ s.revokedCredentialRoots

instance (s : Ledger H) (now : UInt64) : Decidable (EnrollmentOpen cfg s now) :=
  inferInstanceAs (Decidable (_ ∧ _))

instance [DecidableEq D] (s : Ledger H) (root : D) : Decidable (HasAccepted s root) :=
  inferInstanceAs (Decidable (_ ∨ _))

variable [DecidableEq B] [DecidableEq D]

theorem enrollmentOpen_before {s s' : Ledger H} {tx : Tx B D} {now : UInt64}
    (h : step H cfg s tx = .ok s') (hopen : EnrollmentOpen cfg s' now) : EnrollmentOpen cfg s now := by
  refine ⟨?_, hopen.2⟩
  rcases enrollmentClosed_of_step h with ⟨_, hclosed⟩ | ⟨_, hsame⟩
  · rw [hopen.1] at hclosed
    cases hclosed
  · rw [← hsame]
    exact hopen.1

theorem hasAccepted_after {s s' : Ledger H} {tx : Tx B D} {root : D} (h : step H cfg s tx = .ok s')
    (hroot : HasAccepted s root) : HasAccepted s' root := by
  cases rootMove_of_step h with
  | stay haccepted hrevoked =>
    unfold HasAccepted
    rw [haccepted, hrevoked]
    exact hroot
  | publish new secret _ _ haccepted hrevoked =>
    unfold HasAccepted
    rw [haccepted, hrevoked]
    exact hroot.imp_left (Finset.mem_insert_of_mem)
  | revoke old secret _ _ haccepted hrevoked =>
    unfold HasAccepted
    rw [haccepted, hrevoked]
    by_cases hold : root = old
    · exact Or.inr (hold ▸ Finset.mem_insert_self _ _)
    · exact hroot.imp (Finset.mem_erase_of_ne_of_mem hold) Finset.mem_insert_of_mem

end MidnightReferendum.ReferendumV2

namespace MidnightReferendum.CredentialRootPublisher

open MidnightReferendum.Compact Execution ReferendumV2

variable {B D : Type} [DecidableEq B] [DecidableEq D] {dep : Deployment B D}

/-- If the enrollment of a referendum is open, the referendum has accepted the root. -/
def Served (w : World dep.hashing) (contractAddress : String) (root : D) : Prop :=
  EnrollmentOpen (dep.referendum contractAddress) (w.referenda contractAddress) w.blockTime →
    HasAccepted (w.referenda contractAddress) root

instance (w : World dep.hashing) (contractAddress : String) (root : D) :
    Decidable (Served w contractAddress root) :=
  inferInstanceAs (Decidable (EnrollmentOpen _ _ _ → HasAccepted _ _))

/-- The join or the publication of a root fails and the chain has not accepted it. -/
def callFails (w : World dep.hashing) (target : ReferendumTarget B) (root : D) :
    Call → Reply D → Bool
  | _, .fails _ => true
  | .join, .loses _ => true
  | .submit, .loses _ => !(publishOutcome dep w target root).isOk
  | .submit, .succeeds _ => !(publishOutcome dep w target root).isOk
  | _, _ => false

/-- A call fails for a referendum whose enrollment is open and which has not accepted the root. -/
def Misses (e : World dep.hashing × Event B D) : Prop :=
  match e.1.running, e.2 with
  | some (.publishToReferendum call progress target _), .answer _ reply =>
    callFails e.1 target progress.batch.registry.currentRoot call reply ∧
      ¬ Served e.1 target.contractAddress progress.batch.registry.currentRoot
  | _, _ => False

instance (e : World dep.hashing × Event B D) : Decidable (Misses e) := by
  obtain ⟨w, event⟩ := e
  unfold Misses
  generalize w.running = running
  cases running with
  | none => infer_instance
  | some frame => cases frame <;> cases event <;> infer_instance

/-! ## What stays served -/

theorem served_update {w : World dep.hashing} {contractAddress address : String} {root : D}
    {call : ReferendumV2.Call B D} {ledger : Ledger dep.hashing}
    (hok : ReferendumV2.step dep.hashing (dep.referendum contractAddress)
      (w.referenda contractAddress) ⟨w.blockTime, call⟩ = .ok ledger)
    (h : Served w address root) :
    Served { w with referenda := Function.update w.referenda contractAddress ledger } address root := by
  intro hopen
  by_cases haddress : address = contractAddress
  · subst haddress
    simp only [Function.update_self] at hopen ⊢
    exact hasAccepted_after hok (h (enrollmentOpen_before hok hopen))
  · simp only [Function.update_of_ne haddress] at hopen ⊢
    exact h hopen

omit [DecidableEq D] in
/-- A transaction of the publisher leaves the ledger or makes it what the chain says. -/
theorem send_eq_some {σ : Type} {outcome : Except String σ} {s s' : σ} {reply : Reply D}
    {answer : Answer D} (h : send outcome s reply = some (s', answer)) :
    outcome = .ok s' ∨ s' = s ∧ ((∃ message, reply = .fails message) ∨
      outcome.isOk = false ∧ ((∃ transactionId, reply = .succeeds transactionId) ∨
        ∃ message, reply = .loses message)) := by
  unfold send at h
  split at h
  · split at h
    · next hok =>
      cases h
      exact Or.inl rfl
    · cases h
      exact Or.inr ⟨rfl, Or.inr ⟨rfl, Or.inl ⟨_, rfl⟩⟩⟩
  · split at h
    · cases h
      exact Or.inl rfl
    · cases h
      exact Or.inr ⟨rfl, Or.inr ⟨rfl, Or.inr ⟨_, rfl⟩⟩⟩
  · cases h
    exact Or.inr ⟨rfl, Or.inl ⟨_, rfl⟩⟩
  · cases h

theorem publishOutcome_served {w : World dep.hashing} {target : ReferendumTarget B} {root : D}
    {ledger : Ledger dep.hashing} (hok : publishOutcome dep w target root = .ok ledger) :
    HasAccepted ledger root := by
  obtain ⟨_, rfl⟩ := publishCredentialRoot_ok.mp hok
  exact Or.inl (Finset.mem_insert_self _ _)

/-- What a call of the publisher does to the referenda. -/
theorem perform_served {w w₁ : World dep.hashing} {frame : Frame B D} {reply : Reply D}
    {answer : Answer D} (h : perform dep w frame reply = some (w₁, answer)) {address : String}
    {root : D} (hserved : Served w address root) : Served w₁ address root := by
  unfold perform at h
  split at h
  · obtain ⟨r, _, hr⟩ := Option.map_eq_some_iff.mp h
    obtain rfl := (Prod.ext_iff.mp hr).1
    exact hserved
  · next progress target rest =>
    obtain ⟨⟨ledger, answer'⟩, hsend, hr⟩ := Option.map_eq_some_iff.mp h
    obtain rfl := (Prod.ext_iff.mp hr).1
    rcases send_eq_some hsend with hok | ⟨rfl, _⟩
    · exact served_update hok hserved
    · simpa only [Function.update_eq_self] using hserved
  · obtain ⟨r, _, hr⟩ := Option.map_eq_some_iff.mp h
    obtain rfl := (Prod.ext_iff.mp hr).1
    exact hserved

/-- A call for a referendum that is answered and does not miss it. -/
theorem perform_target {w w₁ : World dep.hashing} {call : Call} {progress : Progress D}
    {target : ReferendumTarget B} {rest : List (ReferendumTarget B)} {reply : Reply D}
    {answer : Answer D} {now : ℕ → ℤ}
    (hrunning : w.running = some (.publishToReferendum call progress target rest))
    (h : perform dep w (.publishToReferendum call progress target rest) reply = some (w₁, answer))
    (hanswer : (∃ transactionId, answer = .receipt transactionId) ∨
      ∃ message, answer = .failed message) (hmisses : ¬ Misses (w, .answer now reply)) :
    Served w₁ target.contractAddress progress.batch.registry.currentRoot := by
  have hserved : callFails w target progress.batch.registry.currentRoot call reply →
      Served w target.contractAddress progress.batch.registry.currentRoot := by
    intro hfails
    by_contra hnot
    apply hmisses
    simp only [Misses, hrunning]
    exact ⟨hfails, hnot⟩
  cases call with
  | submit =>
    obtain ⟨⟨ledger, answer'⟩, hsend, hr⟩ := Option.map_eq_some_iff.mp h
    obtain rfl := (Prod.ext_iff.mp hr).1
    rcases send_eq_some hsend with hok | ⟨rfl, hfails⟩
    · intro _
      simp only [Function.update_self]
      exact publishOutcome_served hok
    · rw [Function.update_eq_self]
      apply hserved
      rcases hfails with ⟨message, rfl⟩ | ⟨hrefused, ⟨transactionId, rfl⟩ | ⟨message, rfl⟩⟩
      · rfl
      · simp [callFails, hrefused]
      · simp [callFails, hrefused]
  | join =>
    obtain ⟨answer', hlook, hr⟩ := Option.map_eq_some_iff.mp h
    obtain ⟨rfl, rfl⟩ := Prod.ext_iff.mp hr
    apply hserved
    unfold look at hlook
    split at hlook
    case h_4 message => rfl
    case h_5 message => rfl
    all_goals
      cases hlook
      simp at hanswer

/-! ## The marker and the loop -/

/-- The targets before the one for which the loop waits have been served, and so have all of them
once the root is recorded. -/
structure Delivers (w : World dep.hashing) : Prop where
  last : ∀ root, w.publisher.lastPublishedRootField = some root →
    ∀ target ∈ dep.options.referenda, Served w target.contractAddress root
  loop : ∀ call progress target rest,
    w.running = some (.publishToReferendum call progress target rest) →
    ∃ before, dep.options.referenda = before ++ target :: rest ∧
      ∀ t ∈ before, Served w t.contractAddress progress.batch.registry.currentRoot

omit [DecidableEq B] [DecidableEq D] in
theorem Delivers.beside {w w' : World dep.hashing} (hw : Delivers w) (hbeside : Beside w w')
    (hserved : ∀ address root, Served w address root → Served w' address root) : Delivers w' := by
  constructor
  · intro root hroot target htarget
    rw [hbeside.publisher] at hroot
    exact hserved _ _ (hw.last root hroot target htarget)
  · intro call progress target rest hrunning
    rw [hbeside.running] at hrunning
    obtain ⟨before, hsplit, hbefore⟩ := hw.loop call progress target rest hrunning
    exact ⟨before, hsplit, fun t ht ↦ hserved _ _ (hbefore t ht)⟩

omit [DecidableEq B] [DecidableEq D] in
/-- Before the attestation a piece of a cycle keeps the marker and does not enter the loop. -/
theorem Delivers.undecided {w : World dep.hashing} {r : Publisher D × Next B D} (hw : Delivers w)
    (hpublished : SamePublished (cycle r).1 w.publisher)
    (hprogress : ∀ frame, (cycle r).2 = some frame → frame.progress = none) :
    Delivers (w.settle r) := by
  constructor
  · intro root hroot
    exact hw.last root (hpublished.root.symm.trans hroot)
  · intro call progress target rest hrunning
    cases hprogress _ hrunning

omit [DecidableEq B] [DecidableEq D] in
/-- The loop goes on when the targets before the next one are served. -/
theorem Delivers.looped {w : World dep.hashing} (hw : Delivers w) {nowMs : ℤ}
    {progress : Progress D} {b targets : List (ReferendumTarget B)}
    (hsplit : dep.options.referenda = b ++ targets)
    (hbefore : ∀ t ∈ b, Served w t.contractAddress progress.batch.registry.currentRoot) :
    Delivers (w.settle (publishToReferenda w.publisher nowMs progress targets)) := by
  cases targets with
  | nil =>
    constructor
    · intro root hroot target htarget
      obtain rfl := Option.some.inj hroot
      rw [hsplit, List.append_nil] at htarget
      exact hbefore target htarget
    · intro call progress' target rest hrunning
      cases hrunning
  | cons target rest =>
    constructor
    · exact hw.last
    · intro call progress' target' rest' hrunning
      cases Option.some.inj hrunning
      exact ⟨b, hsplit, hbefore⟩

theorem Delivers.answered {w w₁ : World dep.hashing} {now : ℕ → ℤ} {reply : Reply D}
    {frame : Frame B D} {answer : Answer D} {r : Publisher D × Next B D} (hw : Delivers w)
    (hrunning : w.running = some frame) (hperform : perform dep w frame reply = some (w₁, answer))
    (hbeside : Beside w w₁) (hresumed : Resumed dep.options w.publisher now frame answer r)
    (hmisses : ¬ Misses (w, .answer now reply)) : Delivers (w₁.settle r) := by
  have hw₁ : Delivers w₁ := hw.beside hbeside fun _ _ ↦ perform_served hperform
  rw [← hbeside.publisher] at hresumed
  have hloop : ∀ {call progress target rest status},
      frame = .publishToReferendum call progress target rest →
      ((∃ transactionId, answer = .receipt transactionId) ∨ ∃ message, answer = .failed message) →
      Delivers (w₁.settle (publishToReferenda w₁.publisher (now 0) (progress.push target status)
        rest)) := by
    intro call progress target rest status hframe hanswer
    subst hframe
    have htarget := perform_target hrunning hperform hanswer hmisses
    obtain ⟨before, hsplit, hbefore⟩ := hw₁.loop call progress target rest
      (hbeside.running.trans hrunning)
    apply hw₁.looped (b := before ++ [target])
    · rw [hsplit, List.append_assoc, List.singleton_append]
    · intro t ht
      rcases List.mem_append.mp ht with ht | ht
      · exact hbefore t ht
      · rw [List.mem_singleton.mp ht]
        exact htarget
  cases hresumed with
  | read state =>
    have hread := afterRegistry_undecided dep.options w₁.publisher now state
    exact hw₁.undecided hread.published hread.progress
  | readFailed message => exact hw₁.undecided ⟨rfl, rfl, rfl⟩ (by simp)
  | imminent => exact hw₁.undecided ⟨rfl, rfl, rfl⟩ (by simp [attest, Frame.progress])
  | @notImminent batch nowSeconds target rest =>
    cases rest with
    | nil => exact hw₁.undecided ⟨rfl, rfl, rfl⟩ (by simp [checkDeadlines])
    | cons => exact hw₁.undecided ⟨rfl, rfl, rfl⟩ (by simp [checkDeadlines, Frame.progress])
  | registryJoined => exact hw₁.undecided ⟨rfl, rfl, rfl⟩ (by simp [Frame.progress])
  | attested transactionId => exact hw₁.looped (List.nil_append _).symm (by simp)
  | attestationFailed message => exact hw₁.undecided ⟨rfl, rfl, rfl⟩ (by simp)
  | @referendumJoined progress target rest =>
    obtain ⟨before, hsplit, hbefore⟩ := hw₁.loop _ progress target rest
      (hbeside.running.trans hrunning)
    constructor
    · exact hw₁.last
    · intro call progress' target' rest' hrunning'
      cases Option.some.inj hrunning'
      exact ⟨before, hsplit, hbefore⟩
  | published transactionId => exact hloop rfl (Or.inl ⟨transactionId, rfl⟩)
  | publishFailed message => exact hloop rfl (Or.inr ⟨message, rfl⟩)

/-! ## Every run -/

theorem served_of_other {w w' : World dep.hashing} {ev : Event B D}
    (hother : ∀ now reply, ev ≠ .answer now reply) (hok : step dep w ev = .ok w') {address : String}
    {root : D} (hserved : Served w address root) : Served w' address root := by
  cases ev with
  | answer now reply => exact absurd rfl (hother now reply)
  | publishOnce =>
    obtain rfl := Except.ok.inj hok
    exact hserved
  | begin =>
    simp only [step] at hok
    split at hok
    · obtain rfl := Except.ok.inj hok
      exact hserved
    · cases hok
  | registryCall call =>
    simp only [step] at hok
    split at hok
    · obtain rfl := Except.ok.inj hok
      exact hserved
    · cases hok
  | referendumCall contractAddress call =>
    simp only [step] at hok
    split at hok
    · next ledger hstep =>
      obtain rfl := Except.ok.inj hok
      exact served_update hstep hserved
    · cases hok
  | block time =>
    simp only [step] at hok
    split at hok
    · next htime =>
      obtain rfl := Except.ok.inj hok
      exact fun hopen ↦ hserved ⟨hopen.1, UInt64.lt_of_le_of_lt htime hopen.2⟩
    · cases hok

theorem delivers_step (w : World dep.hashing) (ev : Event B D) (w' : World dep.hashing) (hw : Delivers w) (hmisses : ¬ Misses (w, ev))
    (hok : step dep w ev = .ok w') : Delivers w' := by
  cases effect_of_step hok with
  | begun queued hrunning =>
    have hbegun : Delivers { w with queued, cycles := w.cycles + 1, found := w.publisher } :=
      ⟨hw.last, hw.loop⟩
    have hfirst : ∀ frame : Frame B D, (cycle (w.publisher, runCycle dep.options)).2 = some frame →
        frame.progress = none := by
      unfold runCycle
      split
      · simp
      · simp [Frame.progress]
    apply hbegun.undecided
    · unfold runCycle
      split <;> exact ⟨rfl, rfl, rfl⟩
    · exact hfirst
  | answered hrunning hperform hbeside hresumed =>
    exact hw.answered hrunning hperform hbeside hresumed hmisses
  | beside hother hbeside =>
    exact hw.beside hbeside fun _ _ ↦ served_of_other hother hok

/-- What holds of the last published root in a state of a run. -/
structure RootsReach (dep : Deployment B D) (w : World dep.hashing) : Prop where
  recorded : ∀ root, w.publisher.lastPublishedRootField = some root →
    ∀ target ∈ dep.options.referenda,
      EnrollmentOpen (dep.referendum target.contractAddress) (w.referenda target.contractAddress)
        w.blockTime → HasAccepted (w.referenda target.contractAddress) root
  unchanged : ∀ now state, w.running = some .readRegistry →
    (afterRegistry dep.options w.publisher now state).2 = .done (.skipped .unchanged none) →
    ∀ target ∈ dep.options.referenda,
      EnrollmentOpen (dep.referendum target.contractAddress) (w.referenda target.contractAddress)
        w.blockTime → HasAccepted (w.referenda target.contractAddress) state.currentRoot

omit [DecidableEq B] in
/-- A cycle answers that nothing has changed only for the root that it has recorded. -/
theorem recorded_of_unchanged {opts : Options B} {p : Publisher D} {now : ℕ → ℤ}
    {state : RegistryState D}
    (h : (afterRegistry opts p now state).2 = .done (.skipped .unchanged none)) :
    p.lastPublishedRootField = some state.currentRoot := by
  by_contra hnot
  simp only [afterRegistry, if_neg hnot] at h
  split at h
  · cases h
  · split at h
    · cases hreferenda : opts.referenda <;> rw [hreferenda] at h <;> cases h
    · cases h

theorem root_reaches_every_open_referendum (dep : Deployment B D) (blockTime : UInt64)
    (registry : CredentialRegistryV1.Ledger B D)
    (referenda : String → ReferendumV2.Ledger dep.hashing) (es : List (Event B D))
    (hmisses : ∀ e ∈ accepted (step dep) (start dep blockTime registry referenda) es, ¬ Misses e) :
    RootsReach dep (runEvents dep (start dep blockTime registry referenda) es) := by
  have hstart : Delivers (start dep blockTime registry referenda) := by
    constructor
    · intro root hroot
      cases hroot
    · intro call progress target rest hrunning
      cases hrunning
  have hrun : Delivers (runEvents dep (start dep blockTime registry referenda) es) :=
    run_history (I := fun _ w ↦ Delivers w) (P := fun e ↦ ¬ Misses e)
      (fun _ w ev w' hw hP hok ↦ delivers_step w ev w' hw hP hok) hstart es hmisses
  exact ⟨hrun.last, fun now state _ hunchanged ↦ hrun.last _ (recorded_of_unchanged hunchanged)⟩

/-! ## One failed publication -/

/-- Two referenda and one new credential: a cycle that ends with the given reply of the second
publication, and a cycle after it. -/
def deliveryEvents (reply : Reply Digest) : List (Event Term Digest) :=
  [.publishOnce, .begin, sampleAnswer 100 (.registry (sampleReading 1)),
    sampleAnswer 100 (.succeeds "join"), sampleAnswer 101 (.succeeds "attest"),
    sampleAnswer 101 (.succeeds "join a"), sampleAnswer 102 (.succeeds "publish a"),
    sampleAnswer 102 (.succeeds "join b"), sampleAnswer 103 reply,
    .publishOnce, .begin, sampleAnswer 110 (.registry (sampleReading 1))]

def deliveryDeployment : Deployment Term Digest := sampleDeployment 1 batch_of_one ["a", "b"]

def deliveryStart : World symbolic :=
  start deliveryDeployment 100 (sampleRegistry 1) fun _ ↦ ReferendumV2.sampleInitial

def deliveryWorld (reply : Reply Digest) : World symbolic :=
  runEvents deliveryDeployment deliveryStart (deliveryEvents reply)

/-- Both publications are accepted, the receipt of the second one is lost. -/
theorem root_reaches_every_open_referendum_sample :
    RootsReach deliveryDeployment (deliveryWorld (.loses "no receipt")) ∧
      (deliveryWorld (.loses "no receipt")).publisher.lastPublishedRootField =
        some (sampleReading 1).currentRoot :=
  ⟨root_reaches_every_open_referendum deliveryDeployment 100 (sampleRegistry 1)
    (fun _ ↦ ReferendumV2.sampleInitial) (deliveryEvents (.loses "no receipt")) (by decide +kernel),
    by decide +kernel⟩

/-- The second publication fails. The root is recorded, the next cycle answers that nothing has
changed, and the second referendum is open and has not accepted the root. -/
theorem failed_publication_forgotten :
    (deliveryWorld (.fails "timeout")).publisher.lastPublishedRootField =
        some (sampleReading 1).currentRoot ∧
      (deliveryWorld (.fails "timeout")).publisher.lastResult = some (.skipped .unchanged none) ∧
      (deliveryWorld (.fails "timeout")).running = none ∧
      EnrollmentOpen ReferendumV2.sampleSealed ((deliveryWorld (.fails "timeout")).referenda "b")
        (deliveryWorld (.fails "timeout")).blockTime ∧
      ¬ HasAccepted ((deliveryWorld (.fails "timeout")).referenda "b")
        (sampleReading 1).currentRoot := by
  refine ⟨?_, ?_, ?_, ?_, ?_⟩ <;> decide +kernel

end MidnightReferendum.CredentialRootPublisher
