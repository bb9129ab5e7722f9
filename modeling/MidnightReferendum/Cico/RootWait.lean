import MidnightReferendum.Cico.RootDelivery

/-!
# The wait for a root

`getStatus` promises a time by which an under-sized batch is published. The wait belongs to the pending
root, so a credential that arrives between two cycles starts it again for everybody who waits already.
As long as no cycle finds another root than the pending one, a credential that a cycle has observed is
published `maxWaitMs` later, and the promised time stands.
-/

namespace MidnightReferendum.CredentialRootPublisher

open MidnightReferendum.Compact MidnightReferendum.Merkle Execution CredentialRegistryV1

/-- `CredentialRootPublisherStatus` -/
structure Status where
  pendingCount : Option ℕ
  minBatchSize : ℕ
  maxWaitMs : ℕ
  pendingSinceMs : Option ℤ
  publishesNoLaterThanMs : Option ℤ
  lastPublishedAtMs : Option ℤ
  observedAtMs : ℤ

def getStatus {B D : Type} (opts : Options B) (p : Publisher D) (nowMs : ℤ) : Status where
  pendingCount := p.lastObservedBatchSize
  minBatchSize := opts.minBatchSize
  maxWaitMs := opts.maxWaitMs
  pendingSinceMs := p.pendingSinceMs
  publishesNoLaterThanMs := p.pendingSinceMs.map fun pendingSinceMs ↦ pendingSinceMs + opts.maxWaitMs
  lastPublishedAtMs := p.lastPublishedAtMs
  observedAtMs := nowMs

variable {B D : Type} [DecidableEq B] [DecidableEq D] {dep : Deployment B D}

/-! ## Cycles that succeed -/

/-- What the registry holds. -/
def reading (w : World dep.hashing) : RegistryState D where
  currentRoot := currentRoot dep.hashing w.registry
  credentialCount := w.registry.credentialCount

deriving instance DecidableEq for RegistryState, Batch, Progress, Frame

/-- The registry is read as it is, and no join, attestation or publication fails. -/
def Works (e : World dep.hashing × Event B D) : Prop :=
  match e.1.running, e.2 with
  | some .readRegistry, .answer _ reply =>
    match reply with
    | .registry state => state = reading e.1
    | _ => False
  | some (.isEnrollmentDeadlineImminent _ _ _ _), _ => True
  | some frame, .answer _ reply =>
    match perform dep e.1 frame reply with
    | some (_, .failed _) => False
    | _ => True
  | _, _ => True

/-- A cycle that reads the registry finds no root pending, or the same root, or a pending root without
new credentials, or the wait has begun in the same millisecond. -/
def Steady (e : World dep.hashing × Event B D) : Prop :=
  match e.1.running, e.2 with
  | some .readRegistry, .answer now (.registry state) =>
    e.1.publisher.pendingRootField = none ∨ e.1.publisher.pendingRootField = some state.currentRoot ∨
      e.1.publisher.lastObservedBatchSize = some 0 ∨ e.1.publisher.pendingSinceMs = some (now 0)
  | _, _ => True

/-- What an event reads of the clock, which is at most three times. -/
def Event.clock : Event B D → List ℤ
  | .answer now _ => [now 0, now 1, now 2]
  | _ => []

/-- The clock does not go back. -/
def Clock (es : List (Event B D)) : Prop := (es.flatMap Event.clock).Pairwise (· ≤ ·)

instance (es : List (Event B D)) : Decidable (Clock es) :=
  List.instDecidablePairwise _

/-- A cycle reads the registry at a time. -/
def Reads (e : World dep.hashing × Event B D) (time : ℤ) (state : RegistryState D) : Prop :=
  e.1.running = some .readRegistry ∧ ∃ now, e.2 = .answer now (.registry state) ∧ now 0 = time

/-- The leaf is under the root that was published last. -/
def Published (w : World dep.hashing) (leaf : B) : Prop :=
  ∃ root, w.publisher.lastPublishedRootField = some root ∧ Tree.Opens dep.hashing.tree 16 leaf root

/-- The cycle of an event is over. -/
def Ended (e : World dep.hashing × Event B D) (w : World dep.hashing) : Prop :=
  w.running = none ∨ e.1.cycles < w.cycles

/-- The wait of a credential that a cycle has read is bounded: the cycles from `maxWaitMs` on end with its
publication, and as long as it is not published the time that `getStatus` promises does not move to a
later one. -/
structure BoundedWait (dep : Deployment B D) (h : List (World dep.hashing × Event B D))
    (w : World dep.hashing) : Prop where
  published : ∀ leaf e time state e' time' state', [e, e'].Sublist h → Reads e time state →
    Tree.Opens dep.hashing.tree 16 leaf state.currentRoot → Reads e' time' state' →
    time + dep.options.maxWaitMs ≤ time' → Ended e' w → Published w leaf
  noLater : ∀ leaf e time state e' nowMs nowMs', [e, e'].Sublist h → Reads e time state →
    Tree.Opens dep.hashing.tree 16 leaf state.currentRoot → ¬Published w leaf →
    ∃ v v', (getStatus dep.options e'.1.publisher nowMs).publishesNoLaterThanMs = some v ∧
      (getStatus dep.options w.publisher nowMs').publishesNoLaterThanMs = some v' ∧ v' ≤ v

/-! ## The batch of a frame -/

/-- The batch that a cycle is bound to publish. -/
def Frame.committed : Frame B D → Option (Batch D)
  | .attest _ batch => some batch
  | .publishToReferendum _ progress _ _ => some progress.batch
  | _ => none

/-- The batch about which a cycle decides or which it publishes. -/
def Frame.batch : Frame B D → Option (Batch D)
  | .isEnrollmentDeadlineImminent batch _ _ _ => some batch
  | frame => frame.committed

/-- The two records say the same about the roots and the wait. -/
structure SameWait (p q : Publisher D) : Prop where
  root : p.lastPublishedRootField = q.lastPublishedRootField
  count : p.lastPublishedCredentialCount = q.lastPublishedCredentialCount
  pending : p.pendingRootField = q.pendingRootField
  since : p.pendingSinceMs = q.pendingSinceMs
  observed : p.lastObservedBatchSize = q.lastObservedBatchSize

/-- A piece of a cycle that goes on with its batch, or gives up one that it has not yet decided about. -/
structure Keeps (p : Publisher D) (frame : Frame B D) (r : Publisher D × Option (Frame B D)) : Prop where
  wait : SameWait r.1 p
  batch : ∀ frame', r.2 = some frame' → frame'.batch = frame.batch
  committed : ∀ batch, frame.committed = some batch →
    ∃ frame', r.2 = some frame' ∧ frame'.committed = some batch

/-- The last piece of a cycle that publishes a batch. -/
structure RecordsBatch (batch : Batch D) (r : Publisher D × Option (Frame B D)) : Prop where
  root : r.1.lastPublishedRootField = some batch.registry.currentRoot
  count : r.1.lastPublishedCredentialCount = batch.registry.credentialCount
  pending : r.1.pendingRootField = none
  since : r.1.pendingSinceMs = none
  running : r.2 = none

/-- A piece of a cycle that ends it because the attestation has failed. -/
structure GivesUp (p : Publisher D) (frame : Frame B D) (answer : Answer D)
    (r : Publisher D × Option (Frame B D)) : Prop where
  committed : ∃ batch, frame.committed = some batch
  failed : ∃ message, answer = .failed message
  wait : SameWait r.1 p
  running : r.2 = none

omit [DecidableEq B] [DecidableEq D] in
theorem batch_of_committed {frame : Frame B D} {batch : Batch D} (h : frame.committed = some batch) :
    frame.batch = some batch := by
  cases frame <;> first | exact h | cases h

omit [DecidableEq B] [DecidableEq D] in
/-- The loop goes on with the batch or ends with its publication. -/
theorem publishToReferenda_batch (p : Publisher D) (nowMs : ℤ) (progress : Progress D)
    (frame : Frame B D) (hframe : frame.committed = some progress.batch)
    (targets : List (ReferendumTarget B)) :
    Keeps p frame (cycle (publishToReferenda p nowMs progress targets)) ∨
      RecordsBatch progress.batch (cycle (publishToReferenda p nowMs progress targets)) := by
  cases targets with
  | nil => exact Or.inr ⟨rfl, rfl, rfl, rfl, rfl⟩
  | cons target rest =>
    refine Or.inl ⟨⟨rfl, rfl, rfl, rfl, rfl⟩, fun frame' hframe' ↦ ?_, fun batch hbatch ↦ ?_⟩
    · obtain rfl := Option.some.inj hframe'
      exact (batch_of_committed hframe).symm
    · exact ⟨_, rfl, hframe.symm.trans hbatch⟩

omit [DecidableEq B] in
/-- A piece of a cycle after the registry was read. -/
theorem resumed_batch {opts : Options B} {p : Publisher D} {now : ℕ → ℤ} {frame : Frame B D}
    {answer : Answer D} {r : Publisher D × Next B D} (h : Resumed opts p now frame answer r)
    (hread : frame ≠ .readRegistry) :
    Keeps p frame (cycle r) ∨ (∃ batch, frame.committed = some batch ∧ RecordsBatch batch (cycle r)) ∨
      GivesUp p frame answer (cycle r) := by
  cases h with
  | read state => exact absurd rfl hread
  | readFailed message => exact absurd rfl hread
  | imminent state =>
    refine Or.inl ⟨⟨rfl, rfl, rfl, rfl, rfl⟩, fun frame' hframe' ↦ ?_, fun batch hbatch ↦ ?_⟩
    · obtain rfl := Option.some.inj hframe'
      rfl
    · cases hbatch
  | @notImminent batch nowSeconds target rest answer hanswer =>
    cases rest with
    | nil =>
      exact Or.inl ⟨⟨rfl, rfl, rfl, rfl, rfl⟩, fun _ hframe' ↦ (by cases hframe'),
        fun _ hbatch ↦ (by cases hbatch)⟩
    | cons target' rest =>
      refine Or.inl ⟨⟨rfl, rfl, rfl, rfl, rfl⟩, fun frame' hframe' ↦ ?_, fun batch hbatch ↦ ?_⟩
      · obtain rfl := Option.some.inj hframe'
        rfl
      · cases hbatch
  | registryJoined =>
    refine Or.inl ⟨⟨rfl, rfl, rfl, rfl, rfl⟩, fun frame' hframe' ↦ ?_, fun batch hbatch ↦ ?_⟩
    · obtain rfl := Option.some.inj hframe'
      rfl
    · exact ⟨_, rfl, hbatch⟩
  | @attested batch transactionId =>
    rcases publishToReferenda_batch p (now 0) ⟨batch, transactionId, []⟩ (.attest .submit batch) rfl
      opts.referenda with hkeeps | hpublishes
    · exact Or.inl hkeeps
    · exact Or.inr (Or.inl ⟨batch, rfl, hpublishes⟩)
  | attestationFailed message =>
    exact Or.inr (Or.inr ⟨⟨_, rfl⟩, ⟨message, rfl⟩, ⟨rfl, rfl, rfl, rfl, rfl⟩, rfl⟩)
  | referendumJoined =>
    refine Or.inl ⟨⟨rfl, rfl, rfl, rfl, rfl⟩, fun frame' hframe' ↦ ?_, fun batch hbatch ↦ ?_⟩
    · obtain rfl := Option.some.inj hframe'
      rfl
    · exact ⟨_, rfl, hbatch⟩
  | @published progress target rest transactionId =>
    rcases publishToReferenda_batch p (now 0) (progress.push target (.published transactionId))
      (.publishToReferendum .submit progress target rest) rfl rest with hkeeps | hpublishes
    · exact Or.inl hkeeps
    · exact Or.inr (Or.inl ⟨progress.batch, rfl, hpublishes⟩)
  | @publishFailed call progress target rest message =>
    rcases publishToReferenda_batch p (now 0) (progress.push target (.failed message))
      (.publishToReferendum call progress target rest) rfl rest with hkeeps | hpublishes
    · exact Or.inl hkeeps
    · exact Or.inr (Or.inl ⟨progress.batch, rfl, hpublishes⟩)

/-! ## What the publisher remembers of the registry -/

/-- The root published last is that of an earlier state of the registry. -/
structure Recorded (H : Hashing B D) (p : Publisher D) (s : Ledger B D) : Prop where
  some : ∀ root, p.lastPublishedRootField = some root → ∃ s₀, Consistent H s₀ ∧ Extends H s₀ s ∧
    currentRoot H s₀ = root ∧ s₀.credentialCount = p.lastPublishedCredentialCount
  none : p.lastPublishedRootField = none → p.lastPublishedCredentialCount = 0

omit [DecidableEq B] [DecidableEq D] in
theorem Recorded.extend {H : Hashing B D} {p q : Publisher D} {s s' : Ledger B D} (h : Recorded H p s)
    (hroot : q.lastPublishedRootField = p.lastPublishedRootField)
    (hcount : q.lastPublishedCredentialCount = p.lastPublishedCredentialCount) (hs : Extends H s s') :
    Recorded H q s' where
  some root hsome := by
    obtain ⟨s₀, hconsistent, hextends, hcurrent, hsame⟩ := h.some root (hroot ▸ hsome)
    exact ⟨s₀, hconsistent, extends_trans hextends hs, hcurrent, hsame.trans hcount.symm⟩
  none hnone := hcount.trans (h.none (hroot ▸ hnone))

/-- What holds of the publisher and the registry in every state of a run. -/
structure Knows (w : World dep.hashing) : Prop where
  registry : Consistent dep.hashing w.registry
  pending : ∀ root, w.publisher.pendingRootField = some root →
    ∃ since, w.publisher.pendingSinceMs = some since
  recorded : Recorded dep.hashing w.publisher w.registry
  batch : ∀ frame batch, w.running = some frame → frame.batch = some batch →
    w.publisher.pendingRootField = some batch.registry.currentRoot ∧
      ∃ s, Consistent dep.hashing s ∧ Extends dep.hashing s w.registry ∧
        Recorded dep.hashing w.publisher s ∧
        batch.registry = ⟨currentRoot dep.hashing s, s.credentialCount⟩

theorem perform_registry {w w₁ : World dep.hashing} {frame : Frame B D} {reply : Reply D}
    {answer : Answer D} (h : perform dep w frame reply = some (w₁, answer)) : w₁.registry = w.registry := by
  cases frame with
  | attest call batch => rw [(perform_attest h).1]
  | publishToReferendum call progress target rest =>
    cases call with
    | join =>
      obtain ⟨answer', _, hr⟩ := Option.map_eq_some_iff.mp h
      obtain rfl := (Prod.ext_iff.mp hr).1
      rfl
    | submit =>
      obtain ⟨r, _, hr⟩ := Option.map_eq_some_iff.mp h
      obtain rfl := (Prod.ext_iff.mp hr).1
      rfl
  | _ =>
    obtain ⟨answer', _, hr⟩ := Option.map_eq_some_iff.mp h
    obtain rfl := (Prod.ext_iff.mp hr).1
    rfl

/-- The registry only grows, whatever happens. -/
theorem registry_of_step {w w' : World dep.hashing} {e : Event B D} (h : step dep w e = .ok w') :
    Extends dep.hashing w.registry w'.registry ∧
      (Consistent dep.hashing w.registry → Consistent dep.hashing w'.registry) := by
  have hsame : w'.registry = w.registry → Extends dep.hashing w.registry w'.registry ∧
      (Consistent dep.hashing w.registry → Consistent dep.hashing w'.registry) := by
    intro heq
    rw [heq]
    exact ⟨extends_refl _, id⟩
  cases e with
  | answer now reply =>
    cases step_answer h with
    | answered _ hperform _ _ =>
      have hregistry := perform_registry hperform
      exact hsame hregistry
    | beside hother _ => exact absurd rfl (hother now reply)
  | begin =>
    simp only [step] at h
    split at h
    · obtain rfl := Except.ok.inj h
      exact hsame rfl
    · cases h
  | publishOnce =>
    obtain rfl := Except.ok.inj h
    exact hsame rfl
  | registryCall call =>
    simp only [step] at h
    split at h
    · next registry hok =>
      obtain rfl := Except.ok.inj h
      exact ⟨step_extends _ _ _ hok, fun hs ↦ step_consistent _ _ _ hs hok⟩
    · cases h
  | referendumCall contractAddress call =>
    simp only [step] at h
    split at h
    · obtain rfl := Except.ok.inj h
      exact hsame rfl
    · cases h
  | block time =>
    simp only [step] at h
    split at h
    · obtain rfl := Except.ok.inj h
      exact hsame rfl
    · cases h

/-! ## The piece after the registry was read -/

/-- What a cycle does with a reading of the registry. -/
structure Read (opts : Options B) (p : Publisher D) (now : ℕ → ℤ) (state : RegistryState D)
    (r : Publisher D × Option (Frame B D)) : Prop where
  root : r.1.lastPublishedRootField = p.lastPublishedRootField
  count : r.1.lastPublishedCredentialCount = p.lastPublishedCredentialCount
  batch : ∀ frame batch, r.2 = some frame → frame.batch = some batch →
    batch.registry = state ∧ r.1.pendingRootField = some state.currentRoot
  unchanged : p.lastPublishedRootField = some state.currentRoot →
    r.1.pendingRootField = p.pendingRootField ∧ r.1.pendingSinceMs = p.pendingSinceMs
  changed : p.lastPublishedRootField ≠ some state.currentRoot →
    r.1.pendingRootField = some state.currentRoot ∧
      r.1.pendingSinceMs = (if p.pendingRootField = some state.currentRoot then p.pendingSinceMs
        else some (now 0)) ∧
      r.1.lastObservedBatchSize =
        some ((state.credentialCount : ℤ) - p.lastPublishedCredentialCount).toNat
  due : p.lastPublishedRootField ≠ some state.currentRoot →
    0 < (state.credentialCount : ℤ) - p.lastPublishedCredentialCount → ∀ since,
      r.1.pendingSinceMs = some since → (opts.maxWaitMs : ℤ) ≤ now 1 - since →
      ∃ frame batch, r.2 = some frame ∧ frame.committed = some batch ∧ batch.registry = state

theorem observe_since (p : Publisher D) (nowMs : ℤ) (root : D) :
    (observe p nowMs root).pendingSinceMs =
      if p.pendingRootField = some root then p.pendingSinceMs else some nowMs := by
  unfold observe
  split <;> rfl

omit [DecidableEq B] [DecidableEq D] in
theorem checkDeadlines_batch (p : Publisher D) (batch : Batch D) (nowSeconds : ℤ)
    (targets : List (ReferendumTarget B)) :
    SameWait (cycle (p, checkDeadlines batch nowSeconds targets)).1 p ∧
      ∀ frame, (cycle (p, checkDeadlines batch nowSeconds targets)).2 = some frame →
        frame.batch = some batch := by
  cases targets with
  | nil => exact ⟨⟨rfl, rfl, rfl, rfl, rfl⟩, fun _ hframe ↦ by cases hframe⟩
  | cons target rest =>
    refine ⟨⟨rfl, rfl, rfl, rfl, rfl⟩, fun frame hframe ↦ ?_⟩
    obtain rfl := Option.some.inj hframe
    rfl

omit [DecidableEq B] in
theorem afterRegistry_read (opts : Options B) (p : Publisher D) (now : ℕ → ℤ) (state : RegistryState D) :
    Read opts p now state (cycle (afterRegistry opts p now state)) := by
  have hpublished := observe_published p (now 0) state.currentRoot
  have hpending := (observe_pending p (now 0) state.currentRoot).pending
  have hsince := observe_since p (now 0) state.currentRoot
  simp only [afterRegistry]
  split
  · next hroot =>
    exact ⟨rfl, rfl, fun _ _ hframe ↦ (by cases hframe), fun _ ↦ ⟨rfl, rfl⟩,
      fun hnot ↦ absurd hroot hnot, fun hnot ↦ absurd hroot hnot⟩
  · next hroot =>
    split
    · next hold =>
      exact ⟨hpublished.root, hpublished.count, fun _ _ hframe ↦ (by cases hframe),
        fun hsame ↦ absurd hsame hroot, fun _ ↦ ⟨hpending, hsince, rfl⟩,
        fun _ hnew ↦ absurd hold (not_le.mpr hnew)⟩
    · next hnew =>
      split
      · next hwait =>
        obtain ⟨hsame, hbatch⟩ := checkDeadlines_batch
          { observe p (now 0) state.currentRoot with
            lastObservedBatchSize :=
              some ((state.credentialCount : ℤ) - p.lastPublishedCredentialCount).toNat }
          ⟨state, ((state.credentialCount : ℤ) - p.lastPublishedCredentialCount).toNat,
            !decide ((opts.minBatchSize : ℤ) ≤ state.credentialCount - p.lastPublishedCredentialCount)⟩
          (now 2 / 1000) opts.referenda
        constructor
        · exact hsame.root.trans hpublished.root
        · exact hsame.count.trans hpublished.count
        · intro frame batch hframe hsome
          obtain rfl := Option.some.inj ((hbatch frame hframe).symm.trans hsome)
          exact ⟨rfl, hsame.pending.trans hpending⟩
        · exact fun heq ↦ absurd heq hroot
        · exact fun _ ↦ ⟨hsame.pending.trans hpending, hsame.since.trans hsince, hsame.observed⟩
        · intro _ _ since hsome hdue
          rw [hsame.since] at hsome
          simp only [Bool.and_eq_true, Bool.not_eq_true', decide_eq_false_iff_not] at hwait
          refine absurd ?_ hwait.2
          rw [waitedMs, hsome, Option.getD_some]
          exact hdue
      · refine ⟨hpublished.root, hpublished.count, fun frame batch hframe hsome ↦ ?_,
          fun heq ↦ absurd heq hroot, fun _ ↦ ⟨hpending, hsince, rfl⟩,
          fun _ _ since _ _ ↦ ⟨_, _, rfl, rfl, rfl⟩⟩
        obtain rfl := Option.some.inj hframe
        obtain rfl := Option.some.inj hsome
        exact ⟨rfl, hpending⟩

/-- The publisher waits with the credential since a time at the latest. -/
def Waiting (w : World dep.hashing) (leaf : B) (time : ℤ) : Prop :=
  ∃ root since count, w.publisher.pendingRootField = some root ∧
    Tree.Opens dep.hashing.tree 16 leaf root ∧ w.publisher.pendingSinceMs = some since ∧ since ≤ time ∧
    w.publisher.lastObservedBatchSize = some count ∧ 0 < count

omit [DecidableEq B] [DecidableEq D] in
/-- A reading of the registry with an unpublished credential is a new batch. -/
theorem new_of_unpublished (hH : dep.hashing.CollisionFree) {w : World dep.hashing} (hw : Knows w) {leaf : B}
    (hleaf : leaf ∈ w.registry.credentials.leaves) (hnot : ¬Published w leaf) :
    w.publisher.lastPublishedRootField ≠ some (reading w).currentRoot ∧
      0 < ((reading w).credentialCount : ℤ) - w.publisher.lastPublishedCredentialCount := by
  constructor
  · intro hroot
    exact hnot ⟨_, hroot, (Tree.opens_root_iff hH.tree_sound).mpr hleaf⟩
  · have hcount : w.registry.credentialCount = w.registry.credentials.leaves.length := hw.registry.count
    have hread : (reading w).credentialCount = w.registry.credentialCount := rfl
    cases hroot : w.publisher.lastPublishedRootField with
    | none =>
      have hzero := hw.recorded.none hroot
      have hpos := List.length_pos_of_mem hleaf
      omega
    | some root =>
      obtain ⟨s, hconsistent, hextends, rfl, hsame⟩ := hw.recorded.some root hroot
      have hshort : s.credentials.leaves.length < w.registry.credentials.leaves.length := by
        refine lt_of_le_of_ne hextends.leaves.length_le fun heq ↦ hnot ⟨_, hroot, ?_⟩
        apply (Tree.opens_root_iff hH.tree_sound).mpr
        rw [hextends.leaves.eq_of_length heq]
        exact hleaf
      have hs : s.credentialCount = s.credentials.leaves.length := hconsistent.count
      omega

/-! ## One step -/

/-- A cycle is bound to publish a root with the credential. -/
def Publishing (cycles : ℕ) (w : World dep.hashing) (leaf : B) : Prop :=
  w.cycles = cycles ∧ ∃ frame batch, w.running = some frame ∧ frame.committed = some batch ∧
    Tree.Opens dep.hashing.tree 16 leaf batch.registry.currentRoot

/-- What a step does to the credentials that wait. -/
structure Advances (w : World dep.hashing) (e : Event B D) (w' : World dep.hashing) : Prop where
  knows : Knows w'
  published : ∀ leaf, Published w leaf → Published w' leaf
  waiting : ∀ leaf time, leaf ∈ w.registry.credentials.leaves → Waiting w leaf time →
    Published w' leaf ∨ Waiting w' leaf time ∧ w'.publisher.pendingSinceMs = w.publisher.pendingSinceMs
  publishing : ∀ cycles leaf, Publishing cycles w leaf → Published w' leaf ∨ Publishing cycles w' leaf
  since : ∀ since, w'.publisher.pendingSinceMs = some since → w.publisher.pendingSinceMs = some since ∨
    ∃ now reply, e = .answer now reply ∧ now 0 = since
  seen : ∀ leaf time state, Reads (w, e) time state → Tree.Opens dep.hashing.tree 16 leaf state.currentRoot →
    leaf ∈ w.registry.credentials.leaves ∧ (Published w' leaf ∨ Waiting w' leaf time)
  due : ∀ leaf time time' state, leaf ∈ w.registry.credentials.leaves → Waiting w leaf time →
    Reads (w, e) time' state → time + dep.options.maxWaitMs ≤ time' →
    Published w' leaf ∨ Publishing w.cycles w' leaf

section Step

variable {w w' : World dep.hashing} {e : Event B D}

omit [DecidableEq B] [DecidableEq D] in
theorem Published.congr (h : w'.publisher.lastPublishedRootField = w.publisher.lastPublishedRootField)
    {leaf : B} (hleaf : Published w leaf) : Published w' leaf := by
  obtain ⟨root, hroot, hopens⟩ := hleaf
  exact ⟨root, h.trans hroot, hopens⟩

/-- A step that leaves the roots and the wait as they are. -/
theorem advances_of_same (hw : Knows w) (hstep : step dep w e = .ok w')
    (hsame : SameWait w'.publisher w.publisher)
    (hbatch : ∀ frame batch, w'.running = some frame → frame.batch = some batch →
      ∃ frame', w.running = some frame' ∧ frame'.batch = some batch)
    (hcommitted : ∀ frame batch, w.running = some frame → frame.committed = some batch →
      w'.cycles = w.cycles ∧ ∃ frame', w'.running = some frame' ∧ frame'.committed = some batch)
    (hreads : ∀ time state, ¬Reads (w, e) time state) : Advances w e w' := by
  obtain ⟨hextends, hconsistent⟩ := registry_of_step hstep
  constructor
  · constructor
    · exact hconsistent hw.registry
    · intro root hroot
      rw [hsame.since]
      exact hw.pending root (hsame.pending.symm.trans hroot)
    · exact hw.recorded.extend hsame.root hsame.count hextends
    · intro frame batch hrunning hsome
      obtain ⟨frame', hrunning', hsome'⟩ := hbatch frame batch hrunning hsome
      obtain ⟨hpending, s, hs, hbefore, hrecorded, hread⟩ := hw.batch frame' batch hrunning' hsome'
      exact ⟨hsame.pending.trans hpending, s, hs, extends_trans hbefore hextends,
        hrecorded.extend hsame.root hsame.count (extends_refl s), hread⟩
  · exact fun leaf hleaf ↦ hleaf.congr hsame.root
  · rintro leaf time _ ⟨root, since, count, hroot, hopens, hsince, hle, hcount, hpos⟩
    exact Or.inr ⟨⟨root, since, count, hsame.pending.trans hroot, hopens, hsame.since.trans hsince, hle,
      hsame.observed.trans hcount, hpos⟩, hsame.since⟩
  · rintro cycles leaf ⟨hcycles, frame, batch, hrunning, hsome, hopens⟩
    obtain ⟨hsamecycles, frame', hrunning', hsome'⟩ := hcommitted frame batch hrunning hsome
    exact Or.inr ⟨hsamecycles.trans hcycles, frame', batch, hrunning', hsome', hopens⟩
  · exact fun since hsince ↦ Or.inl (hsame.since.symm.trans hsince)
  · exact fun leaf time state hread ↦ absurd hread (hreads time state)
  · exact fun leaf time time' state _ _ hread ↦ absurd hread (hreads time' state)

/-- The step with which a cycle publishes its batch. -/
theorem advances_of_publishes (hH : dep.hashing.CollisionFree) (hw : Knows w)
    (hstep : step dep w e = .ok w') {frame : Frame B D} {batch : Batch D}
    (hrunning : w.running = some frame) (hbatch : frame.committed = some batch)
    (hpublishes : RecordsBatch batch (w'.publisher, w'.running))
    (hreads : ∀ time state, ¬Reads (w, e) time state) : Advances w e w' := by
  obtain ⟨hextends, hconsistent⟩ := registry_of_step hstep
  obtain ⟨hpending, s, hs, hbefore, hrecorded, hread⟩ :=
    hw.batch frame batch hrunning (batch_of_committed hbatch)
  have hroot : batch.registry.currentRoot = currentRoot dep.hashing s := by rw [hread]
  have hnone : ∀ {frame : Frame B D}, w'.running ≠ some frame := fun hsome ↦ by
    cases hpublishes.running.symm.trans hsome
  constructor
  · constructor
    · exact hconsistent hw.registry
    · intro root hsome
      cases hpublishes.pending.symm.trans hsome
    · constructor
      · intro root hsome
        obtain rfl := Option.some.inj (hpublishes.root.symm.trans hsome)
        refine ⟨s, hs, extends_trans hbefore hextends, hroot.symm, ?_⟩
        rw [hpublishes.count, hread]
      · intro hsome
        cases hpublishes.root.symm.trans hsome
    · exact fun frame' batch' hsome ↦ absurd hsome hnone
  · rintro leaf ⟨root, hlast, hopens⟩
    obtain ⟨s₀, _, hearlier, rfl, _⟩ := hrecorded.some root hlast
    refine ⟨_, hpublishes.root, ?_⟩
    rw [hroot]
    apply (Tree.opens_root_iff hH.tree_sound).mpr
    exact hearlier.leaves.subset ((Tree.opens_root_iff hH.tree_sound).mp hopens)
  · rintro leaf time _ ⟨root, _, _, hsome, hopens, _⟩
    obtain rfl := Option.some.inj (hpending.symm.trans hsome)
    exact Or.inl ⟨_, hpublishes.root, hopens⟩
  · rintro cycles leaf ⟨_, frame', batch', hrunning', hsome, hopens⟩
    obtain rfl := Option.some.inj (hrunning.symm.trans hrunning')
    obtain rfl := Option.some.inj (hbatch.symm.trans hsome)
    exact Or.inl ⟨_, hpublishes.root, hopens⟩
  · intro since hsince
    cases hpublishes.since.symm.trans hsince
  · exact fun leaf time state hread ↦ absurd hread (hreads time state)
  · exact fun leaf time time' state _ _ hread ↦ absurd hread (hreads time' state)

section Reading

variable {now : ℕ → ℤ} {leaf : B} {time : ℤ}

omit [DecidableEq B] in
/-- A credential that waits goes on to wait since the same time. -/
theorem waiting_of_read (hH : dep.hashing.CollisionFree) (hw : Knows w) (hrunning : w.running = some .readRegistry)
    (hsteady : Steady (w, .answer now (.registry (reading w))))
    (hread : Read dep.options w.publisher now (reading w) (w'.publisher, w'.running))
    (hleaf : leaf ∈ w.registry.credentials.leaves) (hwaits : Waiting w leaf time) (hnot : ¬Published w leaf) :
    Waiting w' leaf time ∧ w'.publisher.pendingSinceMs = w.publisher.pendingSinceMs := by
  obtain ⟨root, since, count, hroot, _, hsince, hle, hcount, hpos⟩ := hwaits
  obtain ⟨hchanged, hnew⟩ := new_of_unpublished hH hw hleaf hnot
  obtain ⟨hpending', hsince', hobserved'⟩ := hread.changed hchanged
  simp only [Steady, hrunning] at hsteady
  have hkept : w'.publisher.pendingSinceMs = some since := by
    rw [hsince']
    split
    · exact hsince
    · next hother =>
      rcases hsteady with hnone | hsame | hzero | hnow
      · cases hnone.symm.trans hroot
      · exact absurd hsame hother
      · obtain rfl := Option.some.inj (hzero.symm.trans hcount)
        exact absurd hpos (lt_irrefl 0)
      · exact hnow.symm.trans hsince
  have hopens := (Tree.opens_root_iff hH.tree_sound).mpr hleaf
  refine ⟨⟨_, since, _, hpending', hopens, hkept, hle, hobserved', ?_⟩, hkept.trans hsince.symm⟩
  omega

omit [DecidableEq B] in
/-- A credential in the registry that is not published waits from the reading on, or since an earlier one. -/
theorem waiting_after_read (hH : dep.hashing.CollisionFree) (hw : Knows w)
    (hclock : ∀ since, w.publisher.pendingSinceMs = some since → since ≤ now 0)
    (hread : Read dep.options w.publisher now (reading w) (w'.publisher, w'.running))
    (hleaf : leaf ∈ w.registry.credentials.leaves) (hnot : ¬Published w leaf) : Waiting w' leaf (now 0) := by
  obtain ⟨hchanged, hnew⟩ := new_of_unpublished hH hw hleaf hnot
  obtain ⟨hpending', hsince', hobserved'⟩ := hread.changed hchanged
  have hsome : ∃ since, w'.publisher.pendingSinceMs = some since ∧ since ≤ now 0 := by
    rw [hsince']
    split
    · next hpending =>
      obtain ⟨since, hsince⟩ := hw.pending _ hpending
      exact ⟨since, hsince, hclock since hsince⟩
    · exact ⟨now 0, rfl, le_rfl⟩
  obtain ⟨since, hsince, hle⟩ := hsome
  have hopens := (Tree.opens_root_iff hH.tree_sound).mpr hleaf
  refine ⟨_, since, _, hpending', hopens, hsince, hle, hobserved', ?_⟩
  omega

omit [DecidableEq B] in
/-- The wait goes on, or it begins with the reading. -/
theorem since_of_read (hread : Read dep.options w.publisher now (reading w) (w'.publisher, w'.running)) {since : ℤ}
    (hsince : w'.publisher.pendingSinceMs = some since) :
    w.publisher.pendingSinceMs = some since ∨ now 0 = since := by
  by_cases hsame : w.publisher.lastPublishedRootField = some (reading w).currentRoot
  · exact Or.inl ((hread.unchanged hsame).2.symm.trans hsince)
  · rw [(hread.changed hsame).2.1] at hsince
    split at hsince
    · exact Or.inl hsince
    · exact Or.inr (Option.some.inj hsince)

omit [DecidableEq B] in
theorem knows_of_read (hw : Knows w)
    (hread : Read dep.options w.publisher now (reading w) (w'.publisher, w'.running))
    (hregistry : w'.registry = w.registry) : Knows w' := by
  constructor
  · exact hregistry.symm ▸ hw.registry
  · intro root hroot
    by_cases hsame : w.publisher.lastPublishedRootField = some (reading w).currentRoot
    · obtain ⟨hpending', hsince'⟩ := hread.unchanged hsame
      rw [hsince']
      exact hw.pending root (hpending'.symm.trans hroot)
    · obtain ⟨_, hsince', _⟩ := hread.changed hsame
      rw [hsince']
      split
      · next hpending => exact hw.pending _ hpending
      · exact ⟨_, rfl⟩
  · rw [hregistry]
    exact hw.recorded.extend hread.root hread.count (extends_refl _)
  · intro frame batch hframe hsome
    obtain ⟨hbatch, hpending⟩ := hread.batch frame batch hframe hsome
    refine ⟨hbatch ▸ hpending, w.registry, hw.registry, hregistry ▸ extends_refl _, ?_, hbatch⟩
    exact hw.recorded.extend hread.root hread.count (extends_refl _)

omit [DecidableEq B] in
/-- The step with which a cycle reads the registry. -/
theorem advances_of_read (hH : dep.hashing.CollisionFree) (hw : Knows w)
    (hrunning : w.running = some .readRegistry) (hlater : now 0 ≤ now 1)
    (hclock : ∀ since, w.publisher.pendingSinceMs = some since → since ≤ now 0)
    (hsteady : Steady (w, .answer now (.registry (reading w))))
    (hread : Read dep.options w.publisher now (reading w) (w'.publisher, w'.running))
    (hregistry : w'.registry = w.registry) (hcycles : w'.cycles = w.cycles) :
    Advances w (.answer now (.registry (reading w))) w' := by
  have hpublished : ∀ leaf, Published w leaf → Published w' leaf := fun leaf hleaf ↦ hleaf.congr hread.root
  have hwaiting : ∀ leaf time, leaf ∈ w.registry.credentials.leaves → Waiting w leaf time → ¬Published w leaf →
      Waiting w' leaf time ∧ w'.publisher.pendingSinceMs = w.publisher.pendingSinceMs :=
    fun _ _ hleaf hwaits hnot ↦ waiting_of_read hH hw hrunning hsteady hread hleaf hwaits hnot
  constructor
  · exact knows_of_read hw hread hregistry
  · exact hpublished
  · intro leaf time hleaf hwaits
    by_cases hnot : Published w leaf
    · exact Or.inl (hpublished leaf hnot)
    · exact Or.inr (hwaiting leaf time hleaf hwaits hnot)
  · rintro cycles leaf ⟨_, frame, batch, hsome, hcommitted, _⟩
    obtain rfl := Option.some.inj (hrunning.symm.trans hsome)
    cases hcommitted
  · intro since hsince
    exact (since_of_read hread hsince).imp_right fun hnow ↦ ⟨now, _, rfl, hnow⟩
  · rintro leaf time state ⟨_, now', hevent, rfl⟩ hleaf
    cases hevent
    have hmem := (Tree.opens_root_iff hH.tree_sound).mp hleaf
    refine ⟨hmem, ?_⟩
    by_cases hnot : Published w leaf
    · exact Or.inl (hpublished leaf hnot)
    · exact Or.inr (waiting_after_read hH hw hclock hread hmem hnot)
  · rintro leaf time time' state hleaf hwaits ⟨_, now', hevent, rfl⟩ hdue
    cases hevent
    by_cases hnot : Published w leaf
    · exact Or.inl (hpublished leaf hnot)
    · obtain ⟨hchanged, hnew⟩ := new_of_unpublished hH hw hleaf hnot
      obtain ⟨⟨_, since, _, _, _, hsince, hle, _⟩, _⟩ := hwaiting leaf time hleaf hwaits hnot
      obtain ⟨frame, batch, hframe, hcommitted, hbatch⟩ :=
        hread.due hchanged hnew since hsince (by omega)
      have hopens := (Tree.opens_root_iff hH.tree_sound).mpr hleaf
      exact Or.inr ⟨hcycles, frame, batch, hframe, hcommitted, hbatch ▸ hopens⟩

end Reading

/-! ## Every step -/

omit [DecidableEq B] [DecidableEq D] in
theorem not_reads_of_running {frame : Frame B D} (hrunning : w.running = some frame)
    (hframe : frame ≠ .readRegistry) (time : ℤ) (state : RegistryState D) : ¬Reads (w, e) time state := by
  rintro ⟨hread, _⟩
  exact hframe (Option.some.inj (hrunning.symm.trans hread))

/-- A call that works is not answered with a failure. -/
theorem not_failed_of_works {w₁ : World dep.hashing} {now : ℕ → ℤ} {reply : Reply D} {frame : Frame B D}
    {answer : Answer D} (hworks : Works (w, .answer now reply)) (hrunning : w.running = some frame)
    (hperform : perform dep w frame reply = some (w₁, answer)) {batch : Batch D}
    (hcommitted : frame.committed = some batch) (message : String) : answer ≠ .failed message := by
  rintro rfl
  cases frame with
  | readRegistry => cases hcommitted
  | isEnrollmentDeadlineImminent => cases hcommitted
  | attest => simp only [Works, hrunning, hperform] at hworks
  | publishToReferendum => simp only [Works, hrunning, hperform] at hworks

theorem advances_step (hH : dep.hashing.CollisionFree) (hw : Knows w) (hworks : Works (w, e))
    (hsteady : Steady (w, e)) (hlater : ∀ now reply, e = .answer now reply → now 0 ≤ now 1)
    (hclock : ∀ since now reply, w.publisher.pendingSinceMs = some since → e = .answer now reply →
      since ≤ now 0) (hstep : step dep w e = .ok w') : Advances w e w' := by
  cases effect_of_step hstep with
  | begun queued hrunning =>
    have hnone : ∀ {frame : Frame B D}, w.running ≠ some frame := fun hsome ↦ by
      cases hrunning.symm.trans hsome
    apply advances_of_same hw hstep
    · unfold World.settle runCycle
      split <;> exact ⟨rfl, rfl, rfl, rfl, rfl⟩
    · intro frame batch hframe hsome
      exfalso
      unfold World.settle runCycle at hframe
      split at hframe
      · cases hframe
      · obtain rfl := Option.some.inj hframe
        cases hsome
    · exact fun frame batch hsome ↦ absurd hsome hnone
    · exact fun time state hread ↦ hnone hread.1
  | @answered now reply frame w₁ answer r hrunning hperform hbeside hresumed =>
    by_cases hframe : frame = .readRegistry
    · subst hframe
      have hreply : reply = .registry (reading w) := by
        simp only [Works, hrunning] at hworks
        split at hworks
        · rw [hworks]
        · exact hworks.elim
      subst hreply
      obtain ⟨rfl, rfl⟩ := Prod.ext_iff.mp (Option.some.inj hperform)
      cases hresumed with
      | read state =>
        apply advances_of_read hH hw hrunning (hlater now _ rfl) (fun since hsince ↦
          hclock since now _ hsince rfl) hsteady
        · exact afterRegistry_read dep.options w.publisher now (reading w)
        · rfl
        · rfl
    · have hreads : ∀ time state, ¬Reads (w, .answer now reply) time state :=
        not_reads_of_running hrunning hframe
      rcases resumed_batch hresumed hframe with hkeeps | ⟨batch, hbatch, hpublishes⟩ | hgives
      · apply advances_of_same hw hstep hkeeps.wait _ _ hreads
        · intro frame' batch hframe' hbatch
          exact ⟨frame, hrunning, (hkeeps.batch frame' hframe').symm.trans hbatch⟩
        · intro frame' batch hframe' hbatch
          obtain rfl := Option.some.inj (hrunning.symm.trans hframe')
          exact ⟨hbeside.cycles, hkeeps.committed batch hbatch⟩
      · exact advances_of_publishes hH hw hstep hrunning hbatch hpublishes hreads
      · obtain ⟨⟨batch, hbatch⟩, ⟨message, hfailed⟩, _⟩ := hgives
        exact absurd hfailed (not_failed_of_works hworks hrunning hperform hbatch message)
  | beside hother hbeside =>
    apply advances_of_same hw hstep
    · rw [hbeside.publisher]
      exact ⟨rfl, rfl, rfl, rfl, rfl⟩
    · intro frame batch hframe hsome
      exact ⟨frame, hbeside.running.symm.trans hframe, hsome⟩
    · intro frame batch hframe hsome
      exact ⟨hbeside.cycles, frame, hbeside.running.trans hframe, hsome⟩
    · rintro time state ⟨_, now, hevent, _⟩
      exact hother now _ hevent

end Step

/-! ## Every run -/

/-- Two entries of a history in order, where the history has grown by one. -/
theorem pair_sublist_concat {α : Type*} {a b c : α} {l : List α} (h : [a, b].Sublist (l ++ [c])) :
    [a, b].Sublist l ∨ a ∈ l ∧ b = c := by
  obtain ⟨l₁, l₂, hsplit, h₁, h₂⟩ := List.sublist_append_iff.mp h
  rcases List.sublist_singleton.mp h₂ with rfl | rfl
  · rw [List.append_nil] at hsplit
    exact Or.inl (hsplit ▸ h₁)
  · have hsplit' : [a] ++ [b] = l₁ ++ [c] := hsplit
    obtain ⟨hleft, hright⟩ := List.append_inj' hsplit' rfl
    refine Or.inr ⟨List.singleton_sublist.mp (hleft ▸ h₁), ?_⟩
    exact List.singleton_inj.mp hright

/-- What a run knows about the credentials that its cycles have read. -/
structure Waits (h : List (World dep.hashing × Event B D)) (w : World dep.hashing) : Prop extends Knows w where
  since : ∀ since, w.publisher.pendingSinceMs = some since →
    ∃ e ∈ h, ∃ now reply, e.2 = .answer now reply ∧ now 0 = since
  seen : ∀ leaf e time state, e ∈ h → Reads e time state →
    Tree.Opens dep.hashing.tree 16 leaf state.currentRoot →
    leaf ∈ w.registry.credentials.leaves ∧ (Published w leaf ∨ Waiting w leaf time)
  due : ∀ leaf e time state e' time' state', [e, e'].Sublist h → Reads e time state →
    Tree.Opens dep.hashing.tree 16 leaf state.currentRoot → Reads e' time' state' →
    time + dep.options.maxWaitMs ≤ time' → Published w leaf ∨ Publishing e'.1.cycles w leaf
  same : ∀ leaf e time state e', [e, e'].Sublist h → Reads e time state →
    Tree.Opens dep.hashing.tree 16 leaf state.currentRoot → ¬Published w leaf →
    w.publisher.pendingSinceMs = e'.1.publisher.pendingSinceMs

omit [DecidableEq B] [DecidableEq D] in
theorem Clock.sublist {es es' : List (Event B D)} (hclock : Clock es) (h : es'.Sublist es) : Clock es' :=
  List.Pairwise.sublist (h.flatMap _) hclock

omit [DecidableEq B] [DecidableEq D] in
/-- The clock at an answer. -/
theorem Clock.answer {es : List (Event B D)} {now : ℕ → ℤ} {reply : Reply D}
    (hclock : Clock (es ++ [.answer now reply])) :
    now 0 ≤ now 1 ∧ ∀ now₀ reply₀, .answer now₀ reply₀ ∈ es → now₀ 0 ≤ now 0 := by
  rw [Clock, List.flatMap_append, List.pairwise_append] at hclock
  obtain ⟨_, hlast, hbefore⟩ := hclock
  constructor
  · exact List.rel_of_pairwise_cons hlast List.mem_cons_self
  · intro now₀ reply₀ hmem
    exact hbefore _ (List.mem_flatMap.mpr ⟨_, hmem, List.mem_cons_self⟩) _ List.mem_cons_self

theorem waits_step (hH : dep.hashing.CollisionFree) {h : List (World dep.hashing × Event B D)}
    {w w' : World dep.hashing} {e : Event B D} (hw : Waits h w) (hworks : Works (w, e))
    (hsteady : Steady (w, e)) (hclock : Clock (h.map Prod.snd ++ [e]))
    (hstep : step dep w e = .ok w') : Waits (h ++ [(w, e)]) w' := by
  have hadvances : Advances w e w' := by
    refine advances_step hH hw.toKnows hworks hsteady ?_ ?_ hstep
    · rintro now reply rfl
      exact hclock.answer.1
    · rintro since now reply hsince rfl
      obtain ⟨e', he', now₀, reply₀, hevent, rfl⟩ := hw.since since hsince
      exact hclock.answer.2 now₀ reply₀ (List.mem_map.mpr ⟨e', he', hevent⟩)
  have hextends := (registry_of_step hstep).1
  -- What a credential that was read before becomes.
  have hseen : ∀ leaf e' time state, e' ∈ h → Reads e' time state →
      Tree.Opens dep.hashing.tree 16 leaf state.currentRoot → leaf ∈ w'.registry.credentials.leaves ∧
        (Published w' leaf ∨ Waiting w' leaf time ∧
          w'.publisher.pendingSinceMs = w.publisher.pendingSinceMs) := by
    intro leaf e' time state he' hread hopens
    obtain ⟨hleaf, hpublished | hwaiting⟩ := hw.seen leaf e' time state he' hread hopens
    · exact ⟨hextends.leaves.subset hleaf, Or.inl (hadvances.published leaf hpublished)⟩
    · exact ⟨hextends.leaves.subset hleaf, hadvances.waiting leaf time hleaf hwaiting⟩
  constructor
  · exact hadvances.knows
  · intro since hsince
    rcases hadvances.since since hsince with hold | ⟨now, reply, rfl, hnow⟩
    · obtain ⟨e', he', hevent⟩ := hw.since since hold
      exact ⟨e', List.mem_append_left _ he', hevent⟩
    · exact ⟨_, List.mem_append_right _ (List.mem_singleton.mpr rfl), now, reply, rfl, hnow⟩
  · intro leaf e' time state he' hread hopens
    rcases List.mem_append.mp he' with hold | hnew
    · obtain ⟨hleaf, hpublished | hwaiting⟩ := hseen leaf e' time state hold hread hopens
      · exact ⟨hleaf, Or.inl hpublished⟩
      · exact ⟨hleaf, Or.inr hwaiting.1⟩
    · obtain rfl := List.mem_singleton.mp hnew
      obtain ⟨hleaf, hrest⟩ := hadvances.seen leaf time state hread hopens
      exact ⟨hextends.leaves.subset hleaf, hrest⟩
  · intro leaf e₁ time state e₂ time' state' hpair hread hopens hread' hdue
    rcases pair_sublist_concat hpair with hold | ⟨he₁, rfl⟩
    · rcases hw.due leaf e₁ time state e₂ time' state' hold hread hopens hread' hdue with
        hpublished | hpublishing
      · exact Or.inl (hadvances.published leaf hpublished)
      · exact hadvances.publishing _ leaf hpublishing
    · obtain ⟨hleaf, hpublished | hwaiting⟩ := hw.seen leaf e₁ time state he₁ hread hopens
      · exact Or.inl (hadvances.published leaf hpublished)
      · exact hadvances.due leaf time time' state' hleaf hwaiting hread' hdue
  · intro leaf e₁ time state e₂ hpair hread hopens hnot
    have hsame : w'.publisher.pendingSinceMs = w.publisher.pendingSinceMs := by
      have he₁ : e₁ ∈ h := by
        rcases pair_sublist_concat hpair with hold | ⟨he₁, _⟩
        · exact hold.subset List.mem_cons_self
        · exact he₁
      obtain ⟨_, hpublished | hwaiting⟩ := hseen leaf e₁ time state he₁ hread hopens
      · exact absurd hpublished hnot
      · exact hwaiting.2
    rcases pair_sublist_concat hpair with hold | ⟨_, rfl⟩
    · exact hsame.trans (hw.same leaf e₁ time state e₂ hold hread hopens fun hpublished ↦
        hnot (hadvances.published leaf hpublished))
    · exact hsame

/-- In a run of cycles that succeed, where no cycle finds another root than the one that has been pending
with new credentials, the wait of every credential is bounded. -/
theorem enrollment_wait_bounded (dep : Deployment B D) (hH : dep.hashing.CollisionFree) (blockTime : UInt64)
    (registry : Ledger B D) (hregistry : Consistent dep.hashing registry)
    (referenda : String → ReferendumV2.Ledger dep.hashing) (es : List (Event B D))
    (hworks : ∀ e ∈ accepted (step dep) (start dep blockTime registry referenda) es, Works e)
    (hclock : Clock ((accepted (step dep) (start dep blockTime registry referenda) es).map Prod.snd))
    (hsteady : ∀ e ∈ accepted (step dep) (start dep blockTime registry referenda) es, Steady e) :
    BoundedWait dep (accepted (step dep) (start dep blockTime registry referenda) es)
      (runEvents dep (start dep blockTime registry referenda) es) := by
  have hstart : Waits [] (start dep blockTime registry referenda) := by
    refine ⟨⟨hregistry, ?_, ⟨?_, fun _ ↦ rfl⟩, ?_⟩, ?_, ?_, ?_, ?_⟩
    · intro root hroot
      cases hroot
    · intro root hroot
      cases hroot
    · intro frame batch hrunning
      cases hrunning
    · intro since hsince
      cases hsince
    · intro leaf e time state he
      cases he
    · intro leaf e time state e' time' state' hpair
      cases hpair
    · intro leaf e time state e' hpair
      cases hpair
  have hrun : Waits (accepted (step dep) (start dep blockTime registry referenda) es)
      (runEvents dep (start dep blockTime registry referenda) es) :=
    run_history (I := fun h w ↦ Clock (h.map Prod.snd) → Waits h w) (P := fun e ↦ Works e ∧ Steady e)
      (fun h w e w' hw hP hok hclock' ↦ by
        rw [List.map_append] at hclock'
        exact waits_step hH (hw (hclock'.sublist (List.sublist_append_left _ _))) hP.1 hP.2 hclock' hok)
      (fun _ ↦ hstart) es (fun e he ↦ ⟨hworks e he, hsteady e he⟩) hclock
  constructor
  · intro leaf e time state e' time' state' hpair hread hopens hread' hdue hended
    rcases hrun.due leaf e time state e' time' state' hpair hread hopens hread' hdue with
      hpublished | ⟨hcycles, frame, _, hrunning, _⟩
    · exact hpublished
    · rcases hended with hnone | hlater
      · cases hnone.symm.trans hrunning
      · exact absurd hcycles hlater.ne'
  · intro leaf e time state e' nowMs nowMs' hpair hread hopens hnot
    have he := hpair.subset List.mem_cons_self
    obtain ⟨_, hpublished | ⟨_, since, _, _, _, hsince, _⟩⟩ := hrun.seen leaf e time state he hread hopens
    · exact absurd hpublished hnot
    · have hsame := hrun.same leaf e time state e' hpair hread hopens hnot
      refine ⟨since + dep.options.maxWaitMs, since + dep.options.maxWaitMs, ?_, ?_, le_rfl⟩
      · rw [getStatus, ← hsame, hsince, Option.map_some]
      · rw [getStatus, hsince, Option.map_some]

/-! ## Sample runs -/

instance (e : World dep.hashing × Event B D) : Decidable (Works e) := by
  unfold Works
  split
  · split <;> infer_instance
  · infer_instance
  · split <;> infer_instance
  · infer_instance

instance (e : World dep.hashing × Event B D) : Decidable (Steady e) := by
  unfold Steady
  split <;> infer_instance

theorem sampleRegistry_consistent (count : ℕ) : Consistent symbolic (sampleRegistry count) :=
  run_invariant step_consistent initialState_consistent _

/-- A publisher for one referendum with the default batch size. -/
def waitDeployment : Deployment Term Digest := sampleDeployment 16 batch_of_sixteen ["a"]

def waitStart : World symbolic :=
  start waitDeployment 100 (sampleRegistry 0) fun _ ↦ ReferendumV2.sampleInitial

/-- A cycle that reads the registry and finds the batch too small and no deadline near. -/
def waitingCycle (seconds : ℤ) (count : ℕ) : List (Event Term Digest) :=
  [.publishOnce, .begin, sampleAnswer seconds (.registry (sampleReading count)),
    sampleAnswer seconds (.referendum ⟨false, 1000000⟩)]

/-- The first cycle finds an empty registry. A credential arrives, waits, and is published. -/
def waitEvents : List (Event Term Digest) :=
  [.publishOnce, .begin, sampleAnswer 100 (.registry (sampleReading 0)),
    .registryCall (sampleAdd 0)] ++ waitingCycle 160 1 ++
  [.publishOnce, .begin, sampleAnswer 171 (.registry (sampleReading 1)),
    sampleAnswer 171 (.succeeds "join"), sampleAnswer 172 (.succeeds "attest"),
    sampleAnswer 172 (.succeeds "join a"), sampleAnswer 173 (.succeeds "publish a")]

theorem enrollment_wait_bounded_sample :
    BoundedWait waitDeployment (accepted (step waitDeployment) waitStart waitEvents)
        (runEvents waitDeployment waitStart waitEvents) ∧
      (runEvents waitDeployment waitStart waitEvents).publisher.lastPublishedRootField =
        some (sampleReading 1).currentRoot :=
  ⟨enrollment_wait_bounded waitDeployment symbolic_collisionFree 100 (sampleRegistry 0) (sampleRegistry_consistent 0)
    (fun _ ↦ ReferendumV2.sampleInitial) waitEvents (by decide +kernel)
    (by decide +kernel) (by decide +kernel), by decide +kernel⟩

/-- One credential waits from second 100 on, another arrives, and then come cycles in seconds 108 and 112. -/
def renewedWait : List (Event Term Digest) :=
  [.registryCall (sampleAdd 0)] ++ waitingCycle 100 1 ++ [.registryCall (sampleAdd 1)] ++
    waitingCycle 108 2 ++ waitingCycle 112 2

/-- The cycle in second 112 leaves the credential of second 100 unpublished, and after that of second 108 the
promised time has moved from second 110 to 118. -/
theorem wait_renewed_by_arrival :
    (∀ e ∈ accepted (step waitDeployment) waitStart renewedWait, Works e) ∧
      Clock ((accepted (step waitDeployment) waitStart renewedWait).map Prod.snd) ∧
      ¬BoundedWait waitDeployment (accepted (step waitDeployment) waitStart renewedWait)
        (runEvents waitDeployment waitStart renewedWait) ∧
      (runEvents waitDeployment waitStart renewedWait).publisher.lastPublishedRootField = none ∧
      (getStatus waitDeployment.options (runEvents waitDeployment waitStart (renewedWait.take 6)).publisher
        101000).publishesNoLaterThanMs = some 110000 ∧
      (getStatus waitDeployment.options (runEvents waitDeployment waitStart (renewedWait.take 10)).publisher
        109000).publishesNoLaterThanMs = some 118000 := by
  have hnone : (runEvents waitDeployment waitStart renewedWait).publisher.lastPublishedRootField = none := by
    decide +kernel
  refine ⟨by decide +kernel, by decide +kernel, fun hbounded ↦ ?_, hnone, by decide +kernel,
    by decide +kernel⟩
  let first := renewedWait.take 3
  let between := (renewedWait.drop 4).take 8
  have hpair := pair_sublist_accepted (f := step waitDeployment) (s := waitStart) first between
    (renewedWait.drop 13) (i := sampleAnswer 100 (.registry (sampleReading 1)))
    (j := sampleAnswer 112 (.registry (sampleReading 2))) (by decide +kernel) (by decide +kernel)
  have hleaf : credentialLeaf symbolic sampleSealed (sampleLeaf (.uint 0)) ∈
      (sampleRegistry 1).credentials.leaves := by
    decide +kernel
  have hread : (run (step waitDeployment) waitStart first).running = some .readRegistry := by decide +kernel
  have hread' : (run (step waitDeployment) waitStart (first ++
      sampleAnswer 100 (.registry (sampleReading 1)) :: between)).running = some .readRegistry := by
    decide +kernel
  have hended : (runEvents waitDeployment waitStart renewedWait).running = none := by decide +kernel
  obtain ⟨root, hroot, _⟩ := hbounded.published _ _ 100000 (sampleReading 1) _ 112000 (sampleReading 2) hpair
    ⟨hread, _, rfl, rfl⟩ ((Tree.opens_root_iff symbolic_collisionFree.tree_sound).mpr hleaf)
    ⟨hread', _, rfl, rfl⟩ (by decide) (Or.inl hended)
  cases hnone.symm.trans hroot

end MidnightReferendum.CredentialRootPublisher
