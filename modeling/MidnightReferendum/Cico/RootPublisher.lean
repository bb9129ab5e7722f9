import Mathlib.Algebra.Order.Group.Int

/-!
# The credential root publisher

`credential-root-publisher.ts`. A cycle reads the registry, decides whether the batch of new
credentials is due, attests the root it has read, and publishes that root to one referendum after the
other. Every `await` ends a piece of the cycle, so the cycle is a frame in which it waits and a
function `resume` from the answer to the next frame. What the awaited calls do is left to the modules
that run the publisher.
-/

namespace MidnightReferendum.CredentialRootPublisher

/-- `CredentialRootPublisherReferendumTarget`, whose secret is 32 bytes long. -/
structure ReferendumTarget (B : Type) where
  contractAddress : String
  rootPublisherSecret : B
  deriving DecidableEq

/-- The options that the constructor accepts, with its defaults. -/
structure Options (B : Type) where
  referenda : List (ReferendumTarget B)
  minBatchSize : ℕ := 16
  maxWaitMs : ℕ := 900000
  minBatchSize_pos : 1 ≤ minBatchSize := by decide
  maxWaitMs_pos : 1 ≤ maxWaitMs := by decide

/-- What the reader reports of the registry. -/
structure RegistryState (D : Type) where
  currentRoot : D
  credentialCount : ℕ

/-- What the reader reports of a referendum. -/
structure ReferendumState where
  enrollmentClosed : Bool
  enrollmentClosesAtUnix : ℕ

inductive ReferendumStatus where
  | published (transactionId : String)
  | failed (error : String)
  deriving DecidableEq

structure ReferendumOutcome where
  contractAddress : String
  status : ReferendumStatus
  deriving DecidableEq

inductive SkipReason where
  | noReferendaConfigured
  | unchanged
  | noNewCredentials
  | belowMinimumBatch
  | attestationFailed
  deriving DecidableEq

/-- `CredentialRootPublishResult` -/
inductive Result (D : Type) where
  | skipped (reason : SkipReason) (batchSize : Option ℕ)
  | published (rootField : D) (batchSize : ℕ) (belowMinimum : Bool)
      (attestationTransactionId : String) (referenda : List ReferendumOutcome)
  deriving DecidableEq

/-- The fields of the publisher that its cycles write. -/
structure Publisher (D : Type) where
  registryJoined : Bool := false
  joinedReferenda : List String := []
  lastPublishedRootField : Option D := none
  lastPublishedCredentialCount : ℕ := 0
  pendingRootField : Option D := none
  pendingSinceMs : Option ℤ := none
  lastObservedBatchSize : Option ℕ := none
  lastPublishedAtMs : Option ℤ := none
  lastResult : Option (Result D) := none
  lastError : Option String := none

/-- What a cycle has read and computed when it decides to attest. -/
structure Batch (D : Type) where
  registry : RegistryState D
  batchSize : ℕ
  belowMinimum : Bool

/-- What a cycle has done so far when it publishes. -/
structure Progress (D : Type) where
  batch : Batch D
  attestationTransactionId : String
  outcomes : List ReferendumOutcome

/-- The two calls of `attest` and of `publishToReferendum`. -/
inductive Call where
  | join
  | submit
  deriving DecidableEq

/-- The call for which a cycle waits, with the variables that are still read after it. -/
inductive Frame (B D : Type) where
  | readRegistry
  | isEnrollmentDeadlineImminent (batch : Batch D) (nowSeconds : ℤ) (target : ReferendumTarget B)
      (rest : List (ReferendumTarget B))
  | attest (call : Call) (batch : Batch D)
  | publishToReferendum (call : Call) (progress : Progress D) (target : ReferendumTarget B)
      (rest : List (ReferendumTarget B))

/-- What an awaited call answers. -/
inductive Answer (D : Type) where
  | registry (state : RegistryState D)
  | referendum (state : ReferendumState)
  | joined
  | receipt (transactionId : String)
  | failed (message : String)

/-- Where a piece of a cycle ends. -/
inductive Next (B D : Type) where
  | await (frame : Frame B D)
  | done (result : Result D)
  | thrown (error : String)

variable {B D : Type}

/-- `attest`, up to its first call. -/
def attest (p : Publisher D) (batch : Batch D) : Next B D :=
  .await (.attest (if p.registryJoined then .submit else .join) batch)

/-- The loop of `isEnrollmentDeadlineImminent`, and the answer of the cycle where it finds nothing. -/
def checkDeadlines (batch : Batch D) (nowSeconds : ℤ) : List (ReferendumTarget B) → Next B D
  | [] => .done (.skipped .belowMinimumBatch (some batch.batchSize))
  | target :: rest => .await (.isEnrollmentDeadlineImminent batch nowSeconds target rest)

/-- The loop over the referenda, and the end of the cycle after it. -/
def publishToReferenda (p : Publisher D) (nowMs : ℤ) (progress : Progress D) :
    List (ReferendumTarget B) → Publisher D × Next B D
  | [] =>
    ({ p with
        lastPublishedRootField := some progress.batch.registry.currentRoot
        lastPublishedCredentialCount := progress.batch.registry.credentialCount
        pendingRootField := none
        pendingSinceMs := none
        lastObservedBatchSize := some 0
        lastPublishedAtMs := some nowMs },
      .done (.published progress.batch.registry.currentRoot progress.batch.batchSize
        progress.batch.belowMinimum progress.attestationTransactionId progress.outcomes))
  | target :: rest =>
    (p, .await (.publishToReferendum
      (if target.contractAddress ∈ p.joinedReferenda then .submit else .join) progress target rest))

/-- The outcome of one referendum is recorded. -/
def Progress.push (progress : Progress D) (target : ReferendumTarget B) (status : ReferendumStatus) :
    Progress D :=
  { progress with outcomes := progress.outcomes ++ [⟨target.contractAddress, status⟩] }

/-- The comparison with the current root and the note of a newly pending one. -/
def observe [DecidableEq D] (p : Publisher D) (nowMs : ℤ) (root : D) : Publisher D :=
  if p.pendingRootField = some root then p
  else { p with pendingRootField := some root, pendingSinceMs := some nowMs }

/-- How long a root has been pending. -/
def waitedMs (pendingSinceMs : Option ℤ) (nowMs : ℤ) : ℤ := nowMs - pendingSinceMs.getD nowMs

/-- `remaining <= thresholdSeconds` for a referendum that has been read. -/
def isImminent (opts : Options B) (nowSeconds : ℤ) (state : ReferendumState) : Bool :=
  !state.enrollmentClosed &&
    decide ((state.enrollmentClosesAtUnix : ℤ) - nowSeconds ≤ ((opts.maxWaitMs + 999) / 1000 : ℕ))

/-- The cycle after its read of the registry. The readings of the clock are numbered. -/
def afterRegistry [DecidableEq D] (opts : Options B) (p : Publisher D) (now : ℕ → ℤ)
    (state : RegistryState D) : Publisher D × Next B D :=
  if p.lastPublishedRootField = some state.currentRoot then
    ({ p with lastObservedBatchSize := some 0 }, .done (.skipped .unchanged none))
  else
    -- The difference is a bigint and negative when the reader reports fewer credentials than before.
    let difference : ℤ := state.credentialCount - p.lastPublishedCredentialCount
    let p' := { observe p (now 0) state.currentRoot with
      lastObservedBatchSize := some difference.toNat }
    if difference ≤ 0 then (p', .done (.skipped .noNewCredentials none))
    else
      let meetsMinimum := decide ((opts.minBatchSize : ℤ) ≤ difference)
      let waitedLongEnough := decide ((opts.maxWaitMs : ℤ) ≤ waitedMs p'.pendingSinceMs (now 1))
      let batch : Batch D := ⟨state, difference.toNat, !meetsMinimum⟩
      if !meetsMinimum && !waitedLongEnough then
        (p', checkDeadlines batch (now 2 / 1000) opts.referenda)
      else (p', attest p' batch)

/-- The first piece of `runCycle`. -/
def runCycle (opts : Options B) : Next B D :=
  match opts.referenda with
  | [] => .done (.skipped .noReferendaConfigured none)
  | _ :: _ => .await .readRegistry

/-- The next piece of a cycle, if the answer belongs to the call for which the cycle waits. -/
def resume [DecidableEq D] (opts : Options B) (p : Publisher D) (now : ℕ → ℤ) :
    Frame B D → Answer D → Option (Publisher D × Next B D)
  | .readRegistry, .registry state => some (afterRegistry opts p now state)
  | .readRegistry, .failed message => some (p, .thrown message)
  | .isEnrollmentDeadlineImminent batch nowSeconds _ rest, .referendum state =>
    some (p, if isImminent opts nowSeconds state then attest p batch
      else checkDeadlines batch nowSeconds rest)
  | .isEnrollmentDeadlineImminent batch nowSeconds _ rest, .failed _ =>
    some (p, checkDeadlines batch nowSeconds rest)
  | .attest .join batch, .joined =>
    some ({ p with registryJoined := true }, .await (.attest .submit batch))
  | .attest .submit batch, .receipt transactionId =>
    some (publishToReferenda p (now 0) ⟨batch, transactionId, []⟩ opts.referenda)
  | .attest _ _, .failed _ => some (p, .done (.skipped .attestationFailed none))
  | .publishToReferendum .join progress target rest, .joined =>
    some ({ p with joinedReferenda := target.contractAddress :: p.joinedReferenda },
      .await (.publishToReferendum .submit progress target rest))
  | .publishToReferendum .submit progress target rest, .receipt transactionId =>
    some (publishToReferenda p (now 0) (progress.push target (.published transactionId)) rest)
  | .publishToReferendum _ progress target rest, .failed message =>
    some (publishToReferenda p (now 0) (progress.push target (.failed message)) rest)
  | _, _ => none

/-- `cycle` records the result or the error of `runCycle`. -/
def cycle : Publisher D × Next B D → Publisher D × Option (Frame B D)
  | (p, .await frame) => (p, some frame)
  | (p, .done result) => ({ p with lastResult := some result }, none)
  | (p, .thrown error) => ({ p with lastError := some error }, none)

@[simp]
theorem cycle_await (p : Publisher D) (frame : Frame B D) :
    cycle (p, .await frame) = (p, some frame) := rfl

@[simp]
theorem cycle_done (p : Publisher D) (result : Result D) :
    cycle (p, (.done result : Next B D)) = ({ p with lastResult := some result }, none) := rfl

@[simp]
theorem cycle_thrown (p : Publisher D) (error : String) :
    cycle (p, (.thrown error : Next B D)) = ({ p with lastError := some error }, none) := rfl

/-! ## What one piece of a cycle does -/

/-- The pieces of a cycle by the call they follow. -/
inductive Resumed [DecidableEq D] (opts : Options B) (p : Publisher D) (now : ℕ → ℤ) :
    Frame B D → Answer D → Publisher D × Next B D → Prop
  | read (state : RegistryState D) :
    Resumed opts p now .readRegistry (.registry state) (afterRegistry opts p now state)
  | readFailed (message : String) :
    Resumed opts p now .readRegistry (.failed message) (p, .thrown message)
  | imminent {batch : Batch D} {nowSeconds : ℤ} {target : ReferendumTarget B}
      {rest : List (ReferendumTarget B)} (state : ReferendumState) :
    Resumed opts p now (.isEnrollmentDeadlineImminent batch nowSeconds target rest)
      (.referendum state) (p, attest p batch)
  | notImminent {batch : Batch D} {nowSeconds : ℤ} {target : ReferendumTarget B}
      {rest : List (ReferendumTarget B)} (answer : Answer D) (read : answer ≠ .joined) :
    Resumed opts p now (.isEnrollmentDeadlineImminent batch nowSeconds target rest) answer
      (p, checkDeadlines batch nowSeconds rest)
  | registryJoined {batch : Batch D} :
    Resumed opts p now (.attest .join batch) .joined
      ({ p with registryJoined := true }, .await (.attest .submit batch))
  | attested {batch : Batch D} (transactionId : String) :
    Resumed opts p now (.attest .submit batch) (.receipt transactionId)
      (publishToReferenda p (now 0) ⟨batch, transactionId, []⟩ opts.referenda)
  | attestationFailed {call : Call} {batch : Batch D} (message : String) :
    Resumed opts p now (.attest call batch) (.failed message)
      (p, .done (.skipped .attestationFailed none))
  | referendumJoined {progress : Progress D} {target : ReferendumTarget B}
      {rest : List (ReferendumTarget B)} :
    Resumed opts p now (.publishToReferendum .join progress target rest) .joined
      ({ p with joinedReferenda := target.contractAddress :: p.joinedReferenda },
        .await (.publishToReferendum .submit progress target rest))
  | published {progress : Progress D} {target : ReferendumTarget B}
      {rest : List (ReferendumTarget B)} (transactionId : String) :
    Resumed opts p now (.publishToReferendum .submit progress target rest) (.receipt transactionId)
      (publishToReferenda p (now 0) (progress.push target (.published transactionId)) rest)
  | publishFailed {call : Call} {progress : Progress D} {target : ReferendumTarget B}
      {rest : List (ReferendumTarget B)} (message : String) :
    Resumed opts p now (.publishToReferendum call progress target rest) (.failed message)
      (publishToReferenda p (now 0) (progress.push target (.failed message)) rest)

theorem resumed_of_resume [DecidableEq D] {opts : Options B} {p : Publisher D} {now : ℕ → ℤ}
    {frame : Frame B D} {answer : Answer D} {r : Publisher D × Next B D}
    (h : resume opts p now frame answer = some r) : Resumed opts p now frame answer r := by
  unfold resume at h
  split at h
  case h_3 =>
    obtain rfl := Option.some.inj h
    split
    · exact .imminent _
    · exact .notImminent _ (by simp)
  case h_4 =>
    obtain rfl := Option.some.inj h
    exact .notImminent _ (by simp)
  case h_11 => cases h
  all_goals
    obtain rfl := Option.some.inj h
    constructor

/-- The batch about which a frame decides before the attestation. -/
def Frame.deciding : Frame B D → Option (Batch D)
  | .isEnrollmentDeadlineImminent batch _ _ _ => some batch
  | .attest _ batch => some batch
  | _ => none

/-- What has been attested when a frame publishes. -/
def Frame.progress : Frame B D → Option (Progress D)
  | .publishToReferendum _ progress _ _ => some progress
  | _ => none

/-! ## The loop over the referenda -/

theorem progress_of_publishToReferenda {p : Publisher D} {nowMs : ℤ} {progress : Progress D}
    {targets : List (ReferendumTarget B)} {frame : Frame B D}
    (h : (cycle (publishToReferenda p nowMs progress targets)).2 = some frame) :
    frame.progress = some progress := by
  cases targets with
  | nil => cases h
  | cons target rest =>
    obtain rfl := Option.some.inj h
    rfl

/-- A cycle publishes the batch that it has attested. -/
theorem Resumed.batch [DecidableEq D] {opts : Options B} {p : Publisher D} {now : ℕ → ℤ}
    {frame frame' : Frame B D} {answer : Answer D} {r : Publisher D × Next B D}
    (h : Resumed opts p now frame answer r) {progress : Progress D}
    (hframe : frame.progress = some progress) (hnext : (cycle r).2 = some frame') :
    ∃ progress', frame'.progress = some progress' ∧ progress'.batch = progress.batch := by
  cases h with
  | referendumJoined =>
    obtain rfl := Option.some.inj hframe
    obtain rfl := Option.some.inj hnext
    exact ⟨_, rfl, rfl⟩
  | published transactionId =>
    obtain rfl := Option.some.inj hframe
    exact ⟨_, progress_of_publishToReferenda hnext, rfl⟩
  | publishFailed message =>
    obtain rfl := Option.some.inj hframe
    exact ⟨_, progress_of_publishToReferenda hnext, rfl⟩
  | _ => cases hframe

theorem checkDeadlines_ne_readRegistry (p : Publisher D) (batch : Batch D) (nowSeconds : ℤ)
    (targets : List (ReferendumTarget B)) :
    (cycle (p, checkDeadlines batch nowSeconds targets)).2 ≠ some .readRegistry := by
  cases targets <;> simp [checkDeadlines]

/-- A cycle reads the registry once, in its first frame. -/
theorem Resumed.ne_readRegistry [DecidableEq D] {opts : Options B} {p : Publisher D} {now : ℕ → ℤ}
    {frame : Frame B D} {answer : Answer D} {r : Publisher D × Next B D}
    (h : Resumed opts p now frame answer r) : (cycle r).2 ≠ some .readRegistry := by
  have hpublish : ∀ progress (targets : List (ReferendumTarget B)),
      (cycle (publishToReferenda p (now 0) progress targets)).2 ≠ some .readRegistry := by
    intro progress targets hread
    cases progress_of_publishToReferenda hread
  cases h with
  | read state =>
    simp only [afterRegistry]
    split
    · simp
    · split
      · simp
      · split
        · exact checkDeadlines_ne_readRegistry _ _ _ _
        · simp [attest]
  | readFailed message => simp
  | imminent => simp [attest]
  | notImminent => exact checkDeadlines_ne_readRegistry _ _ _ _
  | registryJoined => simp
  | attested transactionId => exact hpublish _ _
  | attestationFailed message => simp
  | referendumJoined => simp
  | published transactionId => exact hpublish _ _
  | publishFailed message => exact hpublish _ _

/-! ## The publisher before it attests -/

/-- What the two records say about the last published root is the same. -/
structure SamePublished (p q : Publisher D) : Prop where
  root : p.lastPublishedRootField = q.lastPublishedRootField
  count : p.lastPublishedCredentialCount = q.lastPublishedCredentialCount
  time : p.lastPublishedAtMs = q.lastPublishedAtMs

/-- The root is pending in `p`, and since the time that `before` has noted if it was pending there. -/
structure Pending (before p : Publisher D) (root : D) : Prop where
  pending : p.pendingRootField = some root
  since : before.pendingRootField = some root → p.pendingSinceMs = before.pendingSinceMs

/-- Where a cycle goes on does not depend on the record of the publisher. -/
theorem cycle_snd (p q : Publisher D) (next : Next B D) : (cycle (p, next)).2 = (cycle (q, next)).2 := by
  cases next <;> rfl

/-- The batch is the one that the publisher makes of a reading of the registry. -/
structure BatchOf (opts : Options B) (p : Publisher D) (batch : Batch D) : Prop where
  changed : p.lastPublishedRootField ≠ some batch.registry.currentRoot
  new : 0 < (batch.registry.credentialCount : ℤ) - p.lastPublishedCredentialCount
  size : batch.batchSize =
    ((batch.registry.credentialCount : ℤ) - p.lastPublishedCredentialCount).toNat
  minimum : batch.belowMinimum = !decide ((opts.minBatchSize : ℤ) ≤
    (batch.registry.credentialCount : ℤ) - p.lastPublishedCredentialCount)

theorem BatchOf.congr {opts : Options B} {p q : Publisher D} {batch : Batch D}
    (h : BatchOf opts p batch) (hpq : SamePublished p q) : BatchOf opts q batch where
  changed := hpq.root ▸ h.changed
  new := hpq.count ▸ h.new
  size := hpq.count ▸ h.size
  minimum := hpq.count ▸ h.minimum

/-- What a cycle knows of its batch before the attestation. -/
structure Decides (opts : Options B) (before p : Publisher D) (batch : Batch D) : Prop where
  batchOf : BatchOf opts before batch
  pending : Pending before p batch.registry.currentRoot

/-- A piece of a cycle has ended without an attestation: it has kept what was published last, and it
waits only with a batch whose root is pending. -/
structure Undecided (opts : Options B) (before : Publisher D)
    (r : Publisher D × Option (Frame B D)) : Prop where
  published : SamePublished r.1 before
  progress : ∀ frame, r.2 = some frame → frame.progress = none
  decides : ∀ frame batch, r.2 = some frame → frame.deciding = some batch →
    Decides opts before r.1 batch

section

variable {opts : Options B} {before p : Publisher D} {batch : Batch D}

theorem Undecided.ended (h : SamePublished p before) : Undecided opts before (p, none) where
  published := h
  progress _ hframe := by cases hframe
  decides _ _ hframe := by cases hframe

theorem Undecided.attest (h : SamePublished p before) (hdecides : Decides opts before p batch) :
    Undecided opts before (cycle (p, attest p batch)) where
  published := h
  progress frame hframe := by
    obtain rfl := Option.some.inj hframe
    rfl
  decides frame batch' hframe hbatch := by
    obtain rfl := Option.some.inj hframe
    obtain rfl := Option.some.inj hbatch
    exact hdecides

theorem Undecided.checkDeadlines (nowSeconds : ℤ) (h : SamePublished p before)
    (hdecides : Decides opts before p batch) (targets : List (ReferendumTarget B)) :
    Undecided opts before (cycle (p, checkDeadlines batch nowSeconds targets)) := by
  cases targets with
  | nil => exact .ended ⟨h.root, h.count, h.time⟩
  | cons target rest =>
    constructor
    · exact h
    · intro frame hframe
      obtain rfl := Option.some.inj hframe
      rfl
    · intro frame batch' hframe hbatch
      obtain rfl := Option.some.inj hframe
      obtain rfl := Option.some.inj hbatch
      exact hdecides

end

variable [DecidableEq D]

theorem observe_published (p : Publisher D) (nowMs : ℤ) (root : D) :
    SamePublished (observe p nowMs root) p := by
  unfold observe
  split <;> exact ⟨rfl, rfl, rfl⟩

theorem observe_pending (p : Publisher D) (nowMs : ℤ) (root : D) :
    Pending p (observe p nowMs root) root := by
  unfold observe
  split
  · next hroot => exact ⟨hroot, fun _ ↦ rfl⟩
  · next hroot => exact ⟨rfl, fun hbefore ↦ absurd hbefore hroot⟩

theorem afterRegistry_undecided (opts : Options B) (p : Publisher D) (now : ℕ → ℤ)
    (state : RegistryState D) : Undecided opts p (cycle (afterRegistry opts p now state)) := by
  have hpublished := observe_published p (now 0) state.currentRoot
  have hpending := observe_pending p (now 0) state.currentRoot
  simp only [afterRegistry]
  split
  · exact .ended ⟨rfl, rfl, rfl⟩
  · next hchanged =>
    split
    · exact .ended ⟨hpublished.root, hpublished.count, hpublished.time⟩
    · next hnew =>
      have hbatch : BatchOf opts p ⟨state, ((state.credentialCount : ℤ) -
          p.lastPublishedCredentialCount).toNat, !decide ((opts.minBatchSize : ℤ) ≤
            (state.credentialCount : ℤ) - p.lastPublishedCredentialCount)⟩ :=
        ⟨hchanged, not_le.mp hnew, rfl, rfl⟩
      split
      · apply Undecided.checkDeadlines
        · exact ⟨hpublished.root, hpublished.count, hpublished.time⟩
        · exact ⟨hbatch, hpending.pending, hpending.since⟩
      · apply Undecided.attest
        · exact ⟨hpublished.root, hpublished.count, hpublished.time⟩
        · exact ⟨hbatch, hpending.pending, hpending.since⟩

/-- Until the attestation succeeds, a cycle only notes the pending root. -/
theorem resumed_undecided {opts : Options B} {before p : Publisher D} {now : ℕ → ℤ}
    {frame : Frame B D} {answer : Answer D} {r : Publisher D × Next B D}
    (hframe : Undecided opts before (p, some frame)) (hread : frame = .readRegistry → p = before)
    (h : Resumed opts p now frame answer r)
    (hreceipt : ∀ batch transactionId, frame = .attest .submit batch →
      answer ≠ .receipt transactionId) : Undecided opts before (cycle r) := by
  have hpublished := hframe.published
  cases h with
  | read state =>
    rw [← hread rfl]
    exact afterRegistry_undecided opts p now state
  | readFailed message => exact .ended ⟨hpublished.root, hpublished.count, hpublished.time⟩
  | imminent => exact .attest hpublished (hframe.decides _ _ rfl rfl)
  | notImminent => exact .checkDeadlines _ hpublished (hframe.decides _ _ rfl rfl) _
  | registryJoined =>
    have hdecides := hframe.decides _ _ rfl rfl
    constructor
    · exact ⟨hpublished.root, hpublished.count, hpublished.time⟩
    · intro frame hsome
      obtain rfl := Option.some.inj hsome
      rfl
    · intro frame batch hsome hbatch
      obtain rfl := Option.some.inj hsome
      obtain rfl := Option.some.inj hbatch
      exact ⟨hdecides.batchOf, hdecides.pending.pending, hdecides.pending.since⟩
  | attested transactionId => exact absurd rfl (hreceipt _ _ rfl)
  | attestationFailed message => exact .ended ⟨hpublished.root, hpublished.count, hpublished.time⟩
  | referendumJoined => cases hframe.progress _ rfl
  | published transactionId => cases hframe.progress _ rfl
  | publishFailed message => cases hframe.progress _ rfl

/-- A batch whose root is pending is attested when the same reading comes again, unless it is
under-sized and has not waited long enough; then the deadlines are asked again. -/
theorem afterRegistry_again {opts : Options B} {before p : Publisher D} {batch : Batch D}
    (now : ℕ → ℤ) (hpublished : SamePublished p before) (hdecides : Decides opts before p batch) :
    (cycle (afterRegistry opts p now batch.registry)).2 =
      if batch.belowMinimum ∧ waitedMs p.pendingSinceMs (now 1) < opts.maxWaitMs then
        (cycle (p, checkDeadlines batch (now 2 / 1000) opts.referenda)).2
      else (cycle (p, attest p batch)).2 := by
  have hbatch := hdecides.batchOf.congr
    ⟨hpublished.root.symm, hpublished.count.symm, hpublished.time.symm⟩
  have hobserve : observe p (now 0) batch.registry.currentRoot = p :=
    if_pos hdecides.pending.pending
  have hsame : (⟨batch.registry, ((batch.registry.credentialCount : ℤ) -
      p.lastPublishedCredentialCount).toNat, !decide ((opts.minBatchSize : ℤ) ≤
        (batch.registry.credentialCount : ℤ) - p.lastPublishedCredentialCount)⟩ : Batch D) = batch := by
    rw [← hbatch.size, ← hbatch.minimum]
  simp only [afterRegistry, if_neg hbatch.changed, if_neg (not_le.mpr hbatch.new), hobserve, hsame]
  rw [← hbatch.minimum]
  by_cases hdue : batch.belowMinimum ∧ waitedMs p.pendingSinceMs (now 1) < opts.maxWaitMs
  · rw [if_pos hdue, if_pos (by simpa using hdue)]
    exact cycle_snd _ _ _
  · rw [if_neg hdue, if_neg (by simpa using hdue)]
    rfl

end MidnightReferendum.CredentialRootPublisher
