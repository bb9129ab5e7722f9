import MidnightReferendum.Cico.RootWait

/-!
# The batches of published roots

The publisher counts the new credentials from the root that its process published last. A new process
has published none and counts from zero, so its first batch looks as large as the registry. As long as
the publisher remembers at least the credentials under the root that a referendum accepted last, a root
that is published without the flag adds a full batch, and one that adds less has waited or comes before
the end of an enrollment.
-/

namespace MidnightReferendum.CredentialRootPublisher

open MidnightReferendum.Compact MidnightReferendum.Merkle Execution

/-- The chain and the processes of the publisher, with the root that each referendum accepted last. -/
structure Site {B D : Type} (H : Hashing B D) where
  world : World H
  lastAccepted : String → D

/-- The process ends at any moment and is started again. -/
inductive ProcessEvent (B D : Type) where
  | event (e : Event B D)
  | restart

variable {B D : Type} [DecidableEq B] [DecidableEq D] (dep : Deployment B D)

/-- The root that a referendum accepts with an event that the chain lets happen. -/
def acceptedRoot (w : World dep.hashing) : Event B D → Option (String × D)
  | .referendumCall contractAddress (.publishCredentialRoot root _) => some (contractAddress, root)
  | .answer _ reply =>
    match w.running, reply with
    | some (.publishToReferendum .submit progress target _), .succeeds _
    | some (.publishToReferendum .submit progress target _), .loses _ =>
      if (publishOutcome dep w target progress.batch.registry.currentRoot).isOk then
        some (target.contractAddress, progress.batch.registry.currentRoot)
      else none
    | _, _ => none
  | _ => none

def siteStep (s : Site dep.hashing) : ProcessEvent B D → Except Unit (Site dep.hashing)
  | .event e =>
    match step dep s.world e with
    | .ok world =>
      .ok {
        world
        lastAccepted :=
          match acceptedRoot dep s.world e with
          | some (contractAddress, root) => Function.update s.lastAccepted contractAddress root
          | none => s.lastAccepted }
    | .error () => .error ()
  | .restart =>
    .ok { s with world := { s.world with publisher := {}, running := none, queued := 0, found := {} } }

variable {dep}

/-! ## Publications -/

/-- A tree with this root has as many credentials. -/
def Under (H : Hashing B D) (root : D) (count : ℕ) : Prop :=
  ∃ t : Tree B 16, t.root H.tree = root ∧ t.leaves.length = count

omit [DecidableEq B] [DecidableEq D] in
theorem Under.unique {H : Hashing B D} (hH : H.CollisionFree) {root : D} {count count' : ℕ}
    (h : Under H root count) (h' : Under H root count') : count = count' := by
  obtain ⟨t, ht, rfl⟩ := h
  obtain ⟨t', ht', rfl⟩ := h'
  rw [Tree.leaves_eq_of_root_eq hH.tree_sound (ht.trans ht'.symm)]

/-- A referendum accepts the root of a batch from the publisher. -/
structure Publication (e : Site dep.hashing × ProcessEvent B D) (batch : Batch D)
    (target : ReferendumTarget B) : Prop where
  running : ∃ progress rest, progress.batch = batch ∧
    e.1.world.running = some (.publishToReferendum .submit progress target rest)
  accepted : ∃ now reply, e.2 = .event (.answer now reply) ∧
    acceptedRoot dep e.1.world (.answer now reply) =
      some (target.contractAddress, batch.registry.currentRoot)

/-- A cycle reads a root. -/
structure ReadsRoot (e : Site dep.hashing × ProcessEvent B D) (now : ℕ → ℤ) (root : D) : Prop where
  running : e.1.world.running = some .readRegistry
  event : ∃ state, e.2 = .event (.answer now (.registry state)) ∧ state.currentRoot = root

/-- A cycle finds that the root has waited since a reading of the same root. -/
def WaitedLong (h : List (Site dep.hashing × ProcessEvent B D)) (cycles : ℕ) (root : D) : Prop :=
  ∃ d ∈ h, ∃ now, ReadsRoot d now root ∧ d.1.world.cycles = cycles ∧
    ∃ e ∈ h, ∃ now₀, ReadsRoot e now₀ root ∧ (dep.options.maxWaitMs : ℤ) ≤ now 1 - now₀ 0

/-- The enrollment of a referendum is open at a time and closes within `maxWaitMs`. -/
structure ClosesSoon (w : World dep.hashing) (target : ReferendumTarget B) (nowMs : ℤ) : Prop where
  flag : (w.referenda target.contractAddress).enrollmentClosed = false
  clock : nowMs < 1000 * (dep.referendum target.contractAddress).enrollmentClosesAtUnix.toNat
  soon : 1000 * ((dep.referendum target.contractAddress).enrollmentClosesAtUnix.toNat : ℤ) ≤
    nowMs + dep.options.maxWaitMs

/-- A cycle finds a configured referendum that closes soon after the cycle has read its clock. -/
def DeadlineNear (h : List (Site dep.hashing × ProcessEvent B D)) (cycles : ℕ) (root : D) : Prop :=
  ∃ d ∈ h, ∃ target ∈ dep.options.referenda, d.1.world.cycles = cycles ∧
    (∃ batch nowSeconds rest, d.1.world.running =
      some (.isEnrollmentDeadlineImminent batch nowSeconds target rest)) ∧
    ∃ e ∈ h, ∃ now, ReadsRoot e now root ∧ e.1.world.cycles = cycles ∧
      ClosesSoon d.1.world target (now 2)

/-- A publication whose batch is as large as its flag says, and which is not made too early. -/
structure HonestBatch (h : List (Site dep.hashing × ProcessEvent B D))
    (e : Site dep.hashing × ProcessEvent B D) (batch : Batch D) (target : ReferendumTarget B) : Prop where
  full : batch.belowMinimum = false → ∀ count last,
    Under dep.hashing batch.registry.currentRoot count →
    Under dep.hashing (e.1.lastAccepted target.contractAddress) last →
    last + dep.options.minBatchSize ≤ count
  small : ∀ count last, Under dep.hashing batch.registry.currentRoot count →
    Under dep.hashing (e.1.lastAccepted target.contractAddress) last →
    count < last + dep.options.minBatchSize →
    batch.belowMinimum = true ∧ (WaitedLong h e.1.world.cycles batch.registry.currentRoot ∨
      DeadlineNear h e.1.world.cycles batch.registry.currentRoot)

/-! ## The condition -/

/-- What a cycle is told of the registry. -/
def registryRead (e : Site dep.hashing × ProcessEvent B D) : Option (RegistryState D) :=
  match e.1.world.running, e.2 with
  | some .readRegistry, .event (.answer _ (.registry state)) => some state
  | _, _ => none

/-- What a cycle is told of a referendum, with the second in which the cycle has read its clock. -/
def referendumRead (e : Site dep.hashing × ProcessEvent B D) :
    Option (ReferendumTarget B × ℤ × ReferendumState) :=
  match e.1.world.running, e.2 with
  | some (.isEnrollmentDeadlineImminent _ nowSeconds target _), .event (.answer _ (.referendum state)) =>
    some (target, nowSeconds, state)
  | _, _ => none

/-- The readers report what the ledgers hold: a root with its number of credentials, and the enrollment of a
referendum. -/
structure ReadsLedgers (e : Site dep.hashing × ProcessEvent B D) : Prop where
  registry : ∀ state ∈ registryRead e, Under dep.hashing state.currentRoot state.credentialCount
  referendum : ∀ r ∈ referendumRead e,
    r.2.2.enrollmentClosed = (e.1.world.referenda r.1.contractAddress).enrollmentClosed ∧
      r.2.2.enrollmentClosesAtUnix = (dep.referendum r.1.contractAddress).enrollmentClosesAtUnix.toNat

/-- The publisher remembers the credentials under the root that the referendum accepted last. -/
def Remembers (e : Site dep.hashing × ProcessEvent B D) : Prop :=
  ∀ batch target, Publication e batch target → ∀ last,
    Under dep.hashing (e.1.lastAccepted target.contractAddress) last →
    last ≤ e.1.world.publisher.lastPublishedCredentialCount

/-- A referendum whose enrollment is not closed by its flag is not closed by the clock, and it does not close
in the second by which the threshold is rounded up. -/
def InTime (e : Site dep.hashing × ProcessEvent B D) : Prop :=
  ∀ r ∈ referendumRead e, r.2.2.enrollmentClosed = false → r.2.1 < r.2.2.enrollmentClosesAtUnix ∧
    (dep.options.maxWaitMs % 1000 = 0 ∨
      (r.2.2.enrollmentClosesAtUnix : ℤ) ≠ r.2.1 + ((dep.options.maxWaitMs + 999) / 1000 : ℕ))

/-! ## What the cycle that runs knows -/

/-- The batch may be published although it is small. -/
def Due (h : List (Site dep.hashing × ProcessEvent B D)) (cycles : ℕ) (root : D) : Prop :=
  WaitedLong h cycles root ∨ DeadlineNear h cycles root

/-- The frame of a cycle and the readings of the run fit together. -/
structure Counts (h : List (Site dep.hashing × ProcessEvent B D)) (w : World dep.hashing) : Prop where
  pending : ∀ root, w.publisher.pendingRootField = some root → ∃ since,
    w.publisher.pendingSinceMs = some since ∧ ∃ e ∈ h, ∃ now, ReadsRoot e now root ∧ now 0 = since
  batch : ∀ frame batch, w.running = some frame → frame.batch = some batch →
    BatchOf dep.options w.publisher batch ∧
      Under dep.hashing batch.registry.currentRoot batch.registry.credentialCount
  deciding : ∀ batch nowSeconds target rest,
    w.running = some (.isEnrollmentDeadlineImminent batch nowSeconds target rest) →
    (∀ t ∈ target :: rest, t ∈ dep.options.referenda) ∧
      ∃ e ∈ h, ∃ now, ReadsRoot e now batch.registry.currentRoot ∧ e.1.world.cycles = w.cycles ∧
        nowSeconds = now 2 / 1000
  committed : ∀ frame batch, w.running = some frame → frame.committed = some batch →
    batch.belowMinimum = true → Due h w.cycles batch.registry.currentRoot

section Grows

variable {h h' : List (Site dep.hashing × ProcessEvent B D)} (hsub : h ⊆ h') {cycles : ℕ} {root : D}

include hsub

omit [DecidableEq B] [DecidableEq D]

theorem WaitedLong.grows (hlong : WaitedLong h cycles root) : WaitedLong h' cycles root := by
  obtain ⟨d, hd, now, hread, hcycles, e, he, now₀, hread₀, hwaited⟩ := hlong
  exact ⟨d, hsub hd, now, hread, hcycles, e, hsub he, now₀, hread₀, hwaited⟩

theorem DeadlineNear.grows (hnear : DeadlineNear h cycles root) : DeadlineNear h' cycles root := by
  obtain ⟨d, hd, target, htarget, hcycles, hframe, e, he, now, hread, hcycles', hsoon⟩ := hnear
  exact ⟨d, hsub hd, target, htarget, hcycles, hframe, e, hsub he, now, hread, hcycles', hsoon⟩

theorem Due.grows (hdue : Due h cycles root) : Due h' cycles root :=
  hdue.imp (WaitedLong.grows hsub) (DeadlineNear.grows hsub)

theorem HonestBatch.grows {e : Site dep.hashing × ProcessEvent B D} {batch : Batch D}
    {target : ReferendumTarget B} (hhonest : HonestBatch h e batch target) :
    HonestBatch h' e batch target := by
  refine ⟨hhonest.full, fun count last hcount hlast hfew ↦ ?_⟩
  obtain ⟨hbelow, hdue⟩ := hhonest.small count last hcount hlast hfew
  exact ⟨hbelow, Due.grows hsub hdue⟩

end Grows

/-! ## One step -/

section Step

variable {h : List (Site dep.hashing × ProcessEvent B D)} {w w' : World dep.hashing}
  {e : Site dep.hashing × ProcessEvent B D}

omit [DecidableEq B] [DecidableEq D] in
/-- No cycle runs and no root is pending. -/
theorem counts_of_none (hrunning : w.running = none) (hpending : w.publisher.pendingRootField = none) :
    Counts h w := by
  constructor
  · intro root hroot
    cases hpending.symm.trans hroot
  · intro frame batch hsome
    cases hrunning.symm.trans hsome
  · intro batch nowSeconds target rest hsome
    cases hrunning.symm.trans hsome
  · intro frame batch hsome
    cases hrunning.symm.trans hsome

omit [DecidableEq B] [DecidableEq D] in
/-- The frame has no batch. -/
theorem Counts.without_batch (hw : Counts h w) (hsame : SameWait w'.publisher w.publisher)
    (hbatch : ∀ frame, w'.running = some frame → frame.batch = none) : Counts (h ++ [e]) w' := by
  constructor
  · intro root hroot
    rw [hsame.pending] at hroot
    obtain ⟨since, hsince, e', he', hread⟩ := hw.pending root hroot
    exact ⟨since, hsame.since.trans hsince, e', List.mem_append_left _ he', hread⟩
  · intro frame batch hframe hsome
    cases (hbatch frame hframe).symm.trans hsome
  · intro batch nowSeconds target rest hframe
    cases hbatch _ hframe
  · intro frame batch hframe hcommitted
    cases (hbatch frame hframe).symm.trans (batch_of_committed hcommitted)

omit [DecidableEq B] [DecidableEq D] in
/-- The next frame goes on with the batch of a cycle. -/
theorem Counts.goes_on (hw : Counts h w) (hsame : SameWait w'.publisher w.publisher) {frame frame' : Frame B D}
    {batch : Batch D} (hrunning : w.running = some frame) (hbatch : frame.batch = some batch)
    (hrunning' : w'.running = some frame') (hbatch' : frame'.batch = some batch)
    (hdeciding : ∀ batch' nowSeconds target rest,
      frame' = .isEnrollmentDeadlineImminent batch' nowSeconds target rest →
      (∀ t ∈ target :: rest, t ∈ dep.options.referenda) ∧ ∃ e' ∈ h ++ [e], ∃ now,
        ReadsRoot e' now batch'.registry.currentRoot ∧ e'.1.world.cycles = w'.cycles ∧
          nowSeconds = now 2 / 1000)
    (hcommitted : frame'.committed = some batch → batch.belowMinimum = true →
      Due (h ++ [e]) w'.cycles batch.registry.currentRoot) : Counts (h ++ [e]) w' := by
  constructor
  · intro root hroot
    rw [hsame.pending] at hroot
    obtain ⟨since, hsince, e', he', hread⟩ := hw.pending root hroot
    exact ⟨since, hsame.since.trans hsince, e', List.mem_append_left _ he', hread⟩
  · intro frame'' batch'' hframe hsome
    obtain rfl := Option.some.inj (hrunning'.symm.trans hframe)
    obtain rfl := Option.some.inj (hbatch'.symm.trans hsome)
    obtain ⟨hbatchOf, hunder⟩ := hw.batch frame batch hrunning hbatch
    exact ⟨⟨hsame.root ▸ hbatchOf.changed, hsame.count ▸ hbatchOf.new, hsame.count ▸ hbatchOf.size,
      hsame.count ▸ hbatchOf.minimum⟩, hunder⟩
  · intro batch'' nowSeconds target rest hframe
    exact hdeciding batch'' nowSeconds target rest (Option.some.inj (hrunning'.symm.trans hframe))
  · intro frame'' batch'' hframe hsome
    obtain rfl := Option.some.inj (hrunning'.symm.trans hframe)
    obtain rfl := Option.some.inj (hbatch'.symm.trans (batch_of_committed hsome))
    exact hcommitted hsome

omit [DecidableEq B] in
/-- Where a cycle goes on after it has read the registry. -/
theorem afterRegistry_frame {opts : Options B} {p : Publisher D} {now : ℕ → ℤ} {state : RegistryState D}
    {frame : Frame B D} (h : (cycle (afterRegistry opts p now state)).2 = some frame) :
    ∃ batch, batch.registry = state ∧ frame.batch = some batch ∧ frame.deciding = some batch ∧
      ((∃ target rest, opts.referenda = target :: rest ∧
        frame = .isEnrollmentDeadlineImminent batch (now 2 / 1000) target rest) ∨
      ∃ call, frame = .attest call batch ∧ (batch.belowMinimum = true →
        (opts.maxWaitMs : ℤ) ≤ waitedMs (cycle (afterRegistry opts p now state)).1.pendingSinceMs (now 1))) := by
  simp only [afterRegistry] at h ⊢
  split at h
  · cases h
  · next hroot =>
    rw [if_neg hroot]
    split at h
    · cases h
    · next hnew =>
      rw [if_neg hnew]
      split at h
      · cases hreferenda : opts.referenda with
        | nil =>
          rw [hreferenda] at h
          cases h
        | cons target rest =>
          rw [hreferenda] at h
          obtain rfl := Option.some.inj h
          exact ⟨_, rfl, rfl, rfl, Or.inl ⟨target, rest, rfl, rfl⟩⟩
      · next hwait =>
        rw [if_neg hwait]
        obtain rfl := Option.some.inj h
        refine ⟨_, rfl, rfl, rfl, Or.inr ⟨_, rfl, fun hbelow ↦ ?_⟩⟩
        simp only at hbelow
        simp only [hbelow, Bool.true_and, Bool.not_eq_true, Bool.not_eq_false', decide_eq_true_eq] at hwait
        exact hwait

omit [DecidableEq B] in
/-- The step with which a cycle reads the registry. -/
theorem Counts.read (hw : Counts h w) {now : ℕ → ℤ} {state : RegistryState D}
    (hread : ReadsRoot e now state.currentRoot) (hcycles : e.1.world.cycles = w.cycles)
    (hunder : Under dep.hashing state.currentRoot state.credentialCount) :
    Counts (h ++ [e]) (w.settle (afterRegistry dep.options w.publisher now state)) := by
  have hstate := afterRegistry_read dep.options w.publisher now state
  have hdecides := (afterRegistry_undecided dep.options w.publisher now state)
  have hnew : e ∈ h ++ [e] := List.mem_append_right _ List.mem_cons_self
  have hpending : ∀ root, (w.settle (afterRegistry dep.options w.publisher now state)).publisher.pendingRootField =
      some root → ∃ since,
        (w.settle (afterRegistry dep.options w.publisher now state)).publisher.pendingSinceMs = some since ∧
          ∃ e' ∈ h ++ [e], ∃ now', ReadsRoot e' now' root ∧ now' 0 = since := by
    have hold : ∀ root, w.publisher.pendingRootField = some root → ∃ since,
        w.publisher.pendingSinceMs = some since ∧
          ∃ e' ∈ h ++ [e], ∃ now', ReadsRoot e' now' root ∧ now' 0 = since := by
      intro root hroot
      obtain ⟨since, hsince, e', he', hrest⟩ := hw.pending root hroot
      exact ⟨since, hsince, e', List.mem_append_left _ he', hrest⟩
    intro root hroot
    by_cases hsame : w.publisher.lastPublishedRootField = some state.currentRoot
    · obtain ⟨hroot', hsince'⟩ := hstate.unchanged hsame
      obtain ⟨since, hsince, hrest⟩ := hold root (hroot'.symm.trans hroot)
      exact ⟨since, hsince'.trans hsince, hrest⟩
    · obtain ⟨hroot', hsince', _⟩ := hstate.changed hsame
      obtain rfl := Option.some.inj (hroot'.symm.trans hroot)
      split at hsince'
      · next hpending =>
        obtain ⟨since, hsince, hrest⟩ := hold _ hpending
        exact ⟨since, hsince'.trans hsince, hrest⟩
      · exact ⟨now 0, hsince', e, hnew, now, hread, rfl⟩
  constructor
  · exact hpending
  · intro frame batch hframe hbatch
    obtain ⟨batch', rfl, hbatch', hdeciding, _⟩ := afterRegistry_frame hframe
    obtain rfl := Option.some.inj (hbatch'.symm.trans hbatch)
    refine ⟨(hdecides.decides frame batch' hframe hdeciding).batchOf.congr ?_, hunder⟩
    exact ⟨hstate.root.symm, hstate.count.symm, hdecides.published.time.symm⟩
  · intro batch nowSeconds target rest hframe
    obtain ⟨batch', rfl, hbatch', _, ⟨target', rest', hreferenda, hsame⟩ | ⟨_, hsame, _⟩⟩ :=
      afterRegistry_frame hframe
    · cases hsame
      refine ⟨fun t ht ↦ hreferenda ▸ ht, e, hnew, now, hread, hcycles, rfl⟩
    · cases hsame
  · intro frame batch hframe hcommitted hbelow
    obtain ⟨batch', rfl, hbatch', hdeciding, ⟨_, _, _, rfl⟩ | ⟨_, rfl, hwaited⟩⟩ :=
      afterRegistry_frame hframe
    · cases hcommitted
    · obtain rfl := Option.some.inj hcommitted
      have hroot := (hdecides.decides _ _ hframe hdeciding).pending.pending
      obtain ⟨since, hsince, e', he', now', hread', rfl⟩ := hpending _ hroot
      have hlong := hwaited hbelow
      rw [waitedMs, show (cycle (afterRegistry dep.options w.publisher now batch'.registry)).1.pendingSinceMs =
        some (now' 0) from hsince, Option.getD_some] at hlong
      exact Or.inl ⟨e, hnew, now, hread, hcycles, e', he', now', hread', hlong⟩

omit [DecidableEq B] [DecidableEq D] in
/-- An event beside the publisher. -/
theorem Counts.beside (hw : Counts h w) (hbeside : Beside w w') : Counts (h ++ [e]) w' := by
  have hsub : h ⊆ h ++ [e] := List.subset_append_left _ _
  constructor
  · intro root hroot
    rw [hbeside.publisher] at hroot ⊢
    obtain ⟨since, hsince, e', he', hread⟩ := hw.pending root hroot
    exact ⟨since, hsince, e', hsub he', hread⟩
  · intro frame batch hframe hbatch
    rw [hbeside.publisher]
    exact hw.batch frame batch (hbeside.running.symm.trans hframe) hbatch
  · intro batch nowSeconds target rest hframe
    rw [hbeside.cycles]
    obtain ⟨htargets, e', he', hread⟩ :=
      hw.deciding batch nowSeconds target rest (hbeside.running.symm.trans hframe)
    exact ⟨htargets, e', hsub he', hread⟩
  · intro frame batch hframe hcommitted hbelow
    rw [hbeside.cycles]
    exact (hw.committed frame batch (hbeside.running.symm.trans hframe) hcommitted hbelow).grows hsub

omit [DecidableEq B] [DecidableEq D] in
/-- A referendum that is found to close soon is open and closes within `maxWaitMs`. -/
theorem closesSoon_of_isImminent {target : ReferendumTarget B} {state : ReferendumState} {nowMs : ℤ}
    (hflag : state.enrollmentClosed = (w.referenda target.contractAddress).enrollmentClosed)
    (hcloses : state.enrollmentClosesAtUnix =
      (dep.referendum target.contractAddress).enrollmentClosesAtUnix.toNat)
    (himminent : isImminent dep.options (nowMs / 1000) state = true)
    (htime : state.enrollmentClosed = false → nowMs / 1000 < state.enrollmentClosesAtUnix ∧
      (dep.options.maxWaitMs % 1000 = 0 ∨ (state.enrollmentClosesAtUnix : ℤ) ≠
        nowMs / 1000 + ((dep.options.maxWaitMs + 999) / 1000 : ℕ))) :
    ClosesSoon w target nowMs := by
  simp only [isImminent, Bool.and_eq_true, Bool.not_eq_true', decide_eq_true_eq] at himminent
  obtain ⟨hopen, hremaining⟩ := himminent
  obtain ⟨hlater, hrounded⟩ := htime hopen
  constructor
  · exact hflag ▸ hopen
  · omega
  · omega

omit [DecidableEq B] in
/-- The answer about the deadline of a referendum. -/
theorem resume_deadline {opts : Options B} {p : Publisher D} {now : ℕ → ℤ} {batch : Batch D}
    {nowSeconds : ℤ} {target : ReferendumTarget B} {rest : List (ReferendumTarget B)} {answer : Answer D}
    {r : Publisher D × Next B D}
    (h : resume opts p now (.isEnrollmentDeadlineImminent batch nowSeconds target rest) answer = some r) :
    (∃ state, answer = .referendum state ∧ isImminent opts nowSeconds state = true ∧
      r = (p, attest p batch)) ∨ r = (p, checkDeadlines batch nowSeconds rest) := by
  cases answer with
  | referendum state =>
    have hr := (Option.some.inj h).symm
    split at hr
    · next himminent => exact Or.inl ⟨state, rfl, himminent, hr⟩
    · exact Or.inr hr
  | failed message => exact Or.inr (Option.some.inj h).symm
  | _ => cases h

end Step

section Answered

variable {h : List (Site dep.hashing × ProcessEvent B D)} {s : Site dep.hashing} {w₁ : World dep.hashing}
  {now : ℕ → ℤ} {reply : Reply D} {answer : Answer D} {r : Publisher D × Next B D} (hw : Counts h s.world)

include hw

/-- The answer about a deadline. -/
theorem Counts.deadline {batch : Batch D} {nowSeconds : ℤ} {target : ReferendumTarget B}
    {rest : List (ReferendumTarget B)}
    (hrunning : s.world.running = some (.isEnrollmentDeadlineImminent batch nowSeconds target rest))
    (hperform : perform dep s.world (.isEnrollmentDeadlineImminent batch nowSeconds target rest) reply =
      some (w₁, answer))
    (hresume : resume dep.options s.world.publisher now
      (.isEnrollmentDeadlineImminent batch nowSeconds target rest) answer = some r)
    (hledgers : ReadsLedgers (s, .event (.answer now reply)))
    (htime : InTime (s, .event (.answer now reply))) :
    Counts (h ++ [(s, .event (.answer now reply))]) (w₁.settle r) := by
  obtain ⟨answer', hlook, hr⟩ := Option.map_eq_some_iff.mp hperform
  cases hr
  obtain ⟨htargets, e', he', now', hread', hcycles', rfl⟩ := hw.deciding batch nowSeconds target rest hrunning
  have hsub : h ⊆ h ++ [(s, .event (.answer now reply))] := List.subset_append_left _ _
  rcases resume_deadline hresume with ⟨state, hanswer, himminent, rfl⟩ | rfl
  · have hreply : reply = .referendum state := by
      cases reply <;> cases hlook <;> cases hanswer
      rfl
    subst hreply
    have hread : (target, now' 2 / 1000, state) ∈
        referendumRead (s, .event (.answer now (.referendum state))) := by
      simp only [referendumRead, hrunning, Option.mem_some]
    obtain ⟨hflag, hcloses⟩ := hledgers.referendum _ hread
    have hsoon := closesSoon_of_isImminent hflag hcloses himminent (htime _ hread)
    refine hw.goes_on ⟨rfl, rfl, rfl, rfl, rfl⟩ hrunning rfl rfl rfl ?_ ?_
    · intro batch' nowSeconds' target' rest' hframe
      cases hframe
    · intro _ _
      exact Or.inr ⟨_, List.mem_append_right _ List.mem_cons_self, target, htargets target List.mem_cons_self,
        rfl, ⟨batch, _, rest, hrunning⟩, e', hsub he', now', hread', hcycles', hsoon⟩
  · cases rest with
    | nil =>
      refine hw.without_batch ⟨rfl, rfl, rfl, rfl, rfl⟩ ?_
      intro frame hframe
      cases hframe
    | cons target' rest =>
      refine hw.goes_on ⟨rfl, rfl, rfl, rfl, rfl⟩ hrunning rfl rfl rfl ?_ ?_
      · intro batch' nowSeconds' target'' rest' hframe
        cases hframe
        exact ⟨fun t ht ↦ htargets t (List.mem_cons_of_mem _ ht), e', hsub he', now', hread', hcycles', rfl⟩
      · intro hcommitted
        cases hcommitted

omit [DecidableEq B] in
/-- The answer of a call of the attestation or of a publication. -/
theorem Counts.attested {frame : Frame B D} {batch : Batch D} (hrunning : s.world.running = some frame)
    (hcommitted : frame.committed = some batch) (hbeside : Beside s.world w₁)
    (hresume : resume dep.options s.world.publisher now frame answer = some r) :
    Counts (h ++ [(s, .event (.answer now reply))]) (w₁.settle r) := by
  have hread : frame ≠ .readRegistry := fun heq ↦ by
    subst heq
    cases hcommitted
  rcases resumed_batch (resumed_of_resume hresume) hread with hkeeps | ⟨_, _, hpublishes⟩ | hgives
  · obtain ⟨frame', hrunning', hcommitted'⟩ := hkeeps.committed batch hcommitted
    refine hw.goes_on hkeeps.wait hrunning (batch_of_committed hcommitted) hrunning'
      (batch_of_committed hcommitted') ?_ ?_
    · intro batch' nowSeconds target rest hframe
      subst hframe
      cases hcommitted'
    · intro _ hbelow
      have hcycles : (w₁.settle r).cycles = s.world.cycles := hbeside.cycles
      rw [hcycles]
      exact (hw.committed frame batch hrunning hcommitted hbelow).grows (List.subset_append_left _ _)
  · exact counts_of_none hpublishes.running hpublishes.pending
  · refine hw.without_batch hgives.wait ?_
    intro frame' hframe'
    cases hgives.running.symm.trans hframe'

theorem Counts.answered {frame : Frame B D} (hrunning : s.world.running = some frame)
    (hperform : perform dep s.world frame reply = some (w₁, answer)) (hbeside : Beside s.world w₁)
    (hresume : resume dep.options s.world.publisher now frame answer = some r)
    (hledgers : ReadsLedgers (s, .event (.answer now reply)))
    (htime : InTime (s, .event (.answer now reply))) :
    Counts (h ++ [(s, .event (.answer now reply))]) (w₁.settle r) := by
  cases frame with
  | readRegistry =>
    obtain ⟨answer', hlook, hr⟩ := Option.map_eq_some_iff.mp hperform
    cases hr
    cases answer with
    | registry state =>
      have hreply : reply = .registry state := by
        cases reply <;> cases hlook
        rfl
      subst hreply
      obtain rfl := Option.some.inj hresume
      have hread : state ∈ registryRead (s, .event (.answer now (.registry state))) := by
        simp only [registryRead, hrunning, Option.mem_some]
      exact hw.read ⟨hrunning, state, rfl, rfl⟩ rfl (hledgers.registry state hread)
    | failed message =>
      obtain rfl := Option.some.inj hresume
      refine hw.without_batch ⟨rfl, rfl, rfl, rfl, rfl⟩ ?_
      intro frame hframe
      cases hframe
    | _ => cases hresume
  | isEnrollmentDeadlineImminent batch nowSeconds target rest =>
    exact hw.deadline hrunning hperform hresume hledgers htime
  | attest call batch => exact hw.attested hrunning rfl hbeside hresume
  | publishToReferendum call progress target rest => exact hw.attested hrunning rfl hbeside hresume

end Answered

/-! ## Every run -/

/-- An answer that is taken resumes the cycle. -/
theorem resume_of_step {w w' : World dep.hashing} {now : ℕ → ℤ} {reply : Reply D}
    (h : step dep w (.answer now reply) = .ok w') : ∃ frame w₁ answer r, w.running = some frame ∧
      perform dep w frame reply = some (w₁, answer) ∧ Beside w w₁ ∧
      resume dep.options w.publisher now frame answer = some r ∧ w' = w₁.settle r := by
  simp only [step] at h
  split at h
  · cases h
  · next frame hrunning =>
    split at h
    · cases h
    · next w₁ answer hperform =>
      split at h
      · cases h
      · next r hresume =>
        have hbeside := perform_beside hperform
        rw [hbeside.publisher] at hresume
        exact ⟨frame, w₁, answer, r, hrunning, hperform, hbeside, hresume, (Except.ok.inj h).symm⟩

theorem counts_step {h : List (Site dep.hashing × ProcessEvent B D)} {s s' : Site dep.hashing}
    {e : ProcessEvent B D} (hw : Counts h s.world) (hledgers : ReadsLedgers (s, e)) (htime : InTime (s, e))
    (hok : siteStep dep s e = .ok s') : Counts (h ++ [(s, e)]) s'.world := by
  cases e with
  | restart =>
    obtain rfl := Except.ok.inj hok
    exact counts_of_none rfl rfl
  | event e =>
    simp only [siteStep] at hok
    split at hok
    · next world hstep =>
      obtain rfl := Except.ok.inj hok
      cases effect_of_step hstep with
      | begun queued hrunning =>
        refine hw.without_batch ?_ ?_
        · unfold World.settle runCycle
          split <;> exact ⟨rfl, rfl, rfl, rfl, rfl⟩
        · intro frame hframe
          unfold World.settle runCycle at hframe
          split at hframe
          · cases hframe
          · obtain rfl := Option.some.inj hframe
            rfl
      | @answered now reply =>
        obtain ⟨frame, w₁, answer, r, hrunning, hperform, hbeside, hresume, hsettle⟩ := resume_of_step hstep
        rw [hsettle]
        exact hw.answered hrunning hperform hbeside hresume hledgers htime
      | beside hother hbeside => exact hw.beside hbeside
    · cases hok

/-- A publication is honest if the publisher remembers what the referendum has accepted last. -/
theorem honest_of_counts (hH : dep.hashing.CollisionFree) {h : List (Site dep.hashing × ProcessEvent B D)}
    {e : Site dep.hashing × ProcessEvent B D} (hw : Counts h e.1.world) (hremembers : Remembers e)
    {batch : Batch D} {target : ReferendumTarget B} (hpublication : Publication e batch target) :
    HonestBatch h e batch target := by
  obtain ⟨progress, rest, rfl, hrunning⟩ := hpublication.running
  obtain ⟨hbatchOf, hunder⟩ := hw.batch _ progress.batch hrunning rfl
  have hminimum := hbatchOf.minimum
  have hfull : progress.batch.belowMinimum = false → ∀ count last,
      Under dep.hashing progress.batch.registry.currentRoot count →
      Under dep.hashing (e.1.lastAccepted target.contractAddress) last →
      last + dep.options.minBatchSize ≤ count := by
    intro hbelow count last hcount hlast
    obtain rfl := hunder.unique hH hcount
    have hle := hremembers progress.batch target hpublication last hlast
    rw [hbelow, eq_comm, Bool.not_eq_false', decide_eq_true_eq] at hminimum
    omega
  refine ⟨hfull, fun count last hcount hlast hfew ↦ ?_⟩
  have hbelow : progress.batch.belowMinimum = true := by
    by_contra hnot
    have hle := hfull (Bool.not_eq_true _ ▸ hnot) count last hcount hlast
    omega
  exact ⟨hbelow, hw.committed _ _ hrunning rfl hbelow⟩

/-- In every run in which each referendum accepts roots from a publisher that remembers what it has accepted
last, and whose deadlines are found in time, all batches are honest. -/
theorem batches_are_honest (dep : Deployment B D) (hH : dep.hashing.CollisionFree) (blockTime : UInt64)
    (registry : CredentialRegistryV1.Ledger B D)
    (referenda : String → ReferendumV2.Ledger dep.hashing) (lastAccepted : String → D)
    (es : List (ProcessEvent B D))
    (hledgers : ∀ e ∈ accepted (siteStep dep) ⟨start dep blockTime registry referenda, lastAccepted⟩ es,
      ReadsLedgers e)
    (hremembers : ∀ e ∈ accepted (siteStep dep) ⟨start dep blockTime registry referenda, lastAccepted⟩ es,
      Remembers e)
    (htime : ∀ e ∈ accepted (siteStep dep) ⟨start dep blockTime registry referenda, lastAccepted⟩ es,
      InTime e) :
    ∀ e ∈ accepted (siteStep dep) ⟨start dep blockTime registry referenda, lastAccepted⟩ es,
      ∀ batch target, Publication e batch target →
        HonestBatch (accepted (siteStep dep) ⟨start dep blockTime registry referenda, lastAccepted⟩ es)
          e batch target := by
  have hrun := run_history
    (I := fun h s ↦ Counts h s.world ∧ ∀ e ∈ h, ∀ batch target, Publication e batch target →
      HonestBatch h e batch target)
    (P := fun e ↦ (ReadsLedgers e ∧ InTime e) ∧ Remembers e)
    (fun h s e s' ⟨hcounts, hhonest⟩ ⟨⟨hledger, hintime⟩, hremember⟩ hok ↦ by
      refine ⟨counts_step hcounts hledger hintime hok, fun e' he' batch target hpublication ↦ ?_⟩
      have hsub : h ⊆ h ++ [(s, e)] := List.subset_append_left _ _
      rcases List.mem_append.mp he' with hold | hnew
      · exact (hhonest e' hold batch target hpublication).grows hsub
      · obtain rfl := List.mem_singleton.mp hnew
        exact (honest_of_counts hH hcounts hremember hpublication).grows hsub)
    ⟨counts_of_none rfl rfl, fun e he ↦ by cases he⟩ es
    (fun e he ↦ ⟨⟨hledgers e he, htime e he⟩, hremembers e he⟩)
  exact hrun.2

/-! ## Sample runs -/

/-- Referenda whose enrollments close at the given times and which begin with the empty registry. -/
def batchDeployment (minBatchSize : ℕ) (minBatchSize_pos : 1 ≤ minBatchSize) (addresses : List String)
    (closesAtUnix : String → UInt64) : Deployment Term Digest :=
  { sampleDeployment minBatchSize minBatchSize_pos addresses with
    referendum := fun address ↦ { ReferendumV2.sampleSealed with
      initialCredentialRoot := (sampleReading 0).currentRoot
      enrollmentClosesAtUnix := closesAtUnix address } }

def batchLedger : ReferendumV2.Ledger symbolic :=
  { ReferendumV2.sampleInitial with acceptedCredentialRoots := {(sampleReading 0).currentRoot} }

def batchStart (blockTime : UInt64) : Site symbolic :=
  ⟨start waitDeployment blockTime (sampleRegistry 0) fun _ ↦ batchLedger,
    fun _ ↦ (sampleReading 0).currentRoot⟩

theorem under_sampleReading {count : ℕ} (h : count < 4) :
    Under symbolic (sampleReading count).currentRoot count := by
  have hlength : ∀ n < 4, (sampleRegistry n).credentials.leaves.length = n := by decide +kernel
  exact ⟨(sampleRegistry count).credentials, rfl, hlength count h⟩

/-- The batch and the target of a publication. -/
def publication (e : Site dep.hashing × ProcessEvent B D) : Option (Batch D × ReferendumTarget B) :=
  match e.1.world.running, e.2 with
  | some (.publishToReferendum .submit progress target _), .event (.answer now reply) =>
    if acceptedRoot dep e.1.world (.answer now reply) =
        some (target.contractAddress, progress.batch.registry.currentRoot) then
      some (progress.batch, target)
    else none
  | _, _ => none

theorem publication_of_mem {e : Site dep.hashing × ProcessEvent B D} {p : Batch D × ReferendumTarget B}
    (h : p ∈ publication e) : Publication e p.1 p.2 := by
  simp only [publication] at h
  split at h
  · next progress target rest now reply hrunning hevent =>
    split at h
    · next haccepted =>
      obtain rfl := Option.some.inj h
      exact ⟨⟨progress, rest, rfl, hrunning⟩, now, reply, hevent, haccepted⟩
    · cases h
  · cases h

/-- The clock of a cycle that reads a root. -/
def readingClock {H : Hashing B D} (e : Site H × ProcessEvent B D) : Option (ℕ → ℤ) :=
  match e.1.world.running, e.2 with
  | some .readRegistry, .event (.answer now (.registry _)) => some now
  | _, _ => none

omit [DecidableEq B] [DecidableEq D] in
theorem ReadsRoot.clock {e : Site dep.hashing × ProcessEvent B D} {now : ℕ → ℤ} {root : D}
    (h : ReadsRoot e now root) : now ∈ readingClock e := by
  obtain ⟨hrunning, state, hevent, _⟩ := h
  simp only [readingClock, hrunning, hevent, Option.mem_some]

/-- The target of a publication. -/
def Frame.target : Frame B D → Option (ReferendumTarget B)
  | .publishToReferendum _ _ target _ => some target
  | _ => none

section Checks

variable {minBatchSize : ℕ} {hpos : 1 ≤ minBatchSize} {addresses : List String} {closesAtUnix : String → UInt64}
  (e : Site symbolic × ProcessEvent Term Digest)

/-- The readings of the registry are those of the sample registry. -/
def SampleRead : Prop := ∀ state ∈ @registryRead Term Digest waitDeployment e, ∃ n ∈ List.range 4,
  state = sampleReading n

/-- The publisher remembers the last root of the sample registry that was accepted. -/
def SampleRemembered : Prop := ∀ frame ∈ e.1.world.running, ∀ target ∈ frame.target, ∃ n ∈ List.range 4,
  n ≤ e.1.world.publisher.lastPublishedCredentialCount ∧
    e.1.lastAccepted target.contractAddress = (sampleReading n).currentRoot

/-- A referendum that closes at the given time is found open and in time. -/
def SampleDeadline (closesAt : ℕ) : Prop := ∀ r ∈ @referendumRead Term Digest waitDeployment e,
  r.2.2.enrollmentClosed = (e.1.world.referenda r.1.contractAddress).enrollmentClosed ∧
    r.2.2.enrollmentClosesAtUnix = closesAt ∧ r.2.1 < closesAt

instance : Decidable (SampleRead e) := by
  unfold SampleRead
  infer_instance

/-- A root of the sample registry is published after another one. -/
def SamplePublished (hpos : 1 ≤ minBatchSize) (addresses : List String) (closesAtUnix : String → UInt64)
    (belowMinimum : Bool) (count last : ℕ) : Prop :=
  ∃ p ∈ @publication Term Digest _ _ (batchDeployment minBatchSize hpos addresses closesAtUnix) e,
    p.1.belowMinimum = belowMinimum ∧ p.1.registry.currentRoot = (sampleReading count).currentRoot ∧
      e.1.lastAccepted p.2.contractAddress = (sampleReading last).currentRoot

instance (closesAt : ℕ) : Decidable (SampleDeadline e closesAt) := by
  unfold SampleDeadline
  infer_instance

instance (belowMinimum : Bool) (count last : ℕ) :
    Decidable (SamplePublished e hpos addresses closesAtUnix belowMinimum count last) := by
  unfold SamplePublished
  infer_instance

instance : Decidable (SampleRemembered e) := by
  unfold SampleRemembered
  infer_instance

variable {e}

theorem remembers_of_sample (h : SampleRemembered e) :
    @Remembers Term Digest _ _ (batchDeployment minBatchSize hpos addresses closesAtUnix) e := by
  intro batch target hpublication last hlast
  obtain ⟨progress, rest, _, hrunning⟩ := hpublication.running
  obtain ⟨n, hn, hle, hroot⟩ := h _ hrunning target rfl
  rw [hroot] at hlast
  have hsame := hlast.unique symbolic_collisionFree (under_sampleReading (List.mem_range.mp hn))
  exact hsame.le.trans hle

theorem readsLedgers_of_sample (h : SampleRead e)
    (hreferendum : ∀ r ∈ @referendumRead Term Digest waitDeployment e,
      r.2.2.enrollmentClosed = (e.1.world.referenda r.1.contractAddress).enrollmentClosed ∧
        r.2.2.enrollmentClosesAtUnix = (closesAtUnix r.1.contractAddress).toNat) :
    @ReadsLedgers Term Digest (batchDeployment minBatchSize hpos addresses closesAtUnix) e where
  registry state hstate := by
    obtain ⟨n, hn, rfl⟩ := h state hstate
    exact under_sampleReading (List.mem_range.mp hn)
  referendum := hreferendum

end Checks

/-- Credentials are added one after the other. -/
def added (first count : ℕ) : List (ProcessEvent Term Digest) :=
  ((List.range count).map fun n ↦ .registryCall (sampleAdd (first + n))).map .event

/-- A cycle that reads the registry and asks for the deadline. -/
def askingCycle (seconds : ℤ) (count closesAtUnix : ℕ) : List (ProcessEvent Term Digest) :=
  [.publishOnce, .begin, sampleAnswer seconds (.registry (sampleReading count)),
    sampleAnswer seconds (.referendum ⟨false, closesAtUnix⟩)].map .event

/-- The calls of a cycle that publishes to the first referendum. -/
def publishing (seconds : ℤ) : List (ProcessEvent Term Digest) :=
  [sampleAnswer seconds (.succeeds "join"), sampleAnswer seconds (.succeeds "attest"),
    sampleAnswer seconds (.succeeds "join a"), sampleAnswer seconds (.succeeds "publish a")].map .event

/-- A cycle that reads a batch which is due at once and publishes it. -/
def publishingCycle (seconds : ℤ) (count : ℕ) : List (ProcessEvent Term Digest) :=
  [.publishOnce, .begin, sampleAnswer seconds (.registry (sampleReading count))].map .event ++
    publishing seconds

/-- A credential has waited in vain when the process is started again. It waits in the new process and is
published before the enrollment closes. -/
def restartedWait : List (ProcessEvent Term Digest) :=
  added 0 1 ++ askingCycle 160 1 200 ++ [.restart] ++ askingCycle 165 1 200 ++ publishingCycle 175 1

def restartedDeployment : Deployment Term Digest := batchDeployment 16 batch_of_sixteen ["a"] fun _ ↦ 200

def restartedHistory : List (Site symbolic × ProcessEvent Term Digest) :=
  accepted (siteStep restartedDeployment) (batchStart 100) restartedWait

theorem batches_are_honest_sample :
    (∀ e ∈ restartedHistory, ∀ batch target, @Publication Term Digest _ _ restartedDeployment e batch target →
      @HonestBatch Term Digest restartedDeployment restartedHistory e batch target) ∧
      (run (siteStep restartedDeployment) (batchStart 100) restartedWait).lastAccepted "a" =
        (sampleReading 1).currentRoot := by
  have hread : ∀ e ∈ restartedHistory, SampleRead e ∧ SampleRemembered e ∧ SampleDeadline e 200 := by
    decide +kernel
  refine ⟨?_, by decide +kernel⟩
  apply batches_are_honest restartedDeployment symbolic_collisionFree 100 (sampleRegistry 0)
    (fun _ ↦ batchLedger) (fun _ ↦ (sampleReading 0).currentRoot) restartedWait
  · intro e he
    apply readsLedgers_of_sample (hread e he).1
    intro r hr
    obtain ⟨hflag, hcloses, _⟩ := (hread e he).2.2 r hr
    exact ⟨hflag, hcloses⟩
  · intro e he
    exact remembers_of_sample (hread e he).2.1
  · intro e he r hr _
    obtain ⟨_, hcloses, htime⟩ := (hread e he).2.2 r hr
    rw [hcloses]
    exact ⟨htime, Or.inl rfl⟩

/-! ## Batches that are not honest -/

def restartedPublisherDeployment : Deployment Term Digest := batchDeployment 2 batch_of_two ["a"] fun _ ↦ 1000

/-- Two credentials are published, the process is started again, and one more credential is enrolled. -/
def restartedPublisher : List (ProcessEvent Term Digest) :=
  added 0 2 ++ publishingCycle 160 2 ++ [.restart] ++ added 2 1 ++ publishingCycle 165 3

def closedReferendumDeployment : Deployment Term Digest :=
  batchDeployment 16 batch_of_sixteen ["a", "b"] fun address ↦ if address = "a" then 50 else 1000

/-- The enrollment of the first referendum has ended by the clock, so a credential is published at once to
the second. -/
def closedReferendum : List (ProcessEvent Term Digest) :=
  added 0 1 ++ askingCycle 160 1 50 ++
    [sampleAnswer 160 (.succeeds "join"), sampleAnswer 160 (.succeeds "attest"),
      sampleAnswer 160 (.succeeds "join a"), sampleAnswer 160 (.fails "closed"),
      sampleAnswer 160 (.succeeds "join b"), sampleAnswer 160 (.succeeds "publish b")].map .event

def restartedPublisherHistory : List (Site symbolic × ProcessEvent Term Digest) :=
  accepted (siteStep restartedPublisherDeployment) (batchStart 100) restartedPublisher

def closedReferendumHistory : List (Site symbolic × ProcessEvent Term Digest) :=
  accepted (siteStep closedReferendumDeployment) (batchStart 100) closedReferendum

/-- A new process publishes one new credential as a full batch of two or more. -/
theorem restarted_publisher_dishonest :
    ∃ e ∈ restartedPublisherHistory, ∃ batch target,
      @Publication Term Digest _ _ restartedPublisherDeployment e batch target ∧
        ¬@HonestBatch Term Digest restartedPublisherDeployment restartedPublisherHistory e batch target := by
  have hlast : ∃ e ∈ restartedPublisherHistory,
      @SamplePublished 2 e batch_of_two ["a"] (fun _ ↦ 1000) false 3 2 := by
    decide +kernel
  obtain ⟨e, he, p, hp, hbelow, hroot, hlast⟩ := hlast
  refine ⟨e, he, p.1, p.2, publication_of_mem hp, fun hhonest ↦ ?_⟩
  have hfull := hhonest.full hbelow 3 2 (hroot ▸ under_sampleReading (by decide))
    (hlast ▸ under_sampleReading (by decide))
  exact absurd hfull (by decide)

/-- A credential that has not waited is published although no enrollment that is open closes soon. -/
theorem closed_referendum_hurries :
    ∃ e ∈ closedReferendumHistory, ∃ batch target,
      @Publication Term Digest _ _ closedReferendumDeployment e batch target ∧
        ¬@HonestBatch Term Digest closedReferendumDeployment closedReferendumHistory e batch target := by
  have hlast : ∃ e ∈ closedReferendumHistory, @SamplePublished 16 e batch_of_sixteen ["a", "b"]
      (fun address ↦ if address = "a" then 50 else 1000) true 1 0 := by
    decide +kernel
  have hclock : ∀ e ∈ closedReferendumHistory, ∀ now ∈ readingClock e,
      now 0 = 160000 ∧ now 1 = 160000 ∧ now 2 = 160000 := by
    decide +kernel
  obtain ⟨e, he, p, hp, _, hroot, hlast⟩ := hlast
  refine ⟨e, he, p.1, p.2, publication_of_mem hp, fun hhonest ↦ ?_⟩
  obtain ⟨_, hlong | hnear⟩ := hhonest.small 1 0 (hroot ▸ under_sampleReading (by decide))
    (hlast ▸ under_sampleReading (by decide)) (by decide)
  · obtain ⟨d, hd, now, hread, _, d₀, hd₀, now₀, hread₀, hwaited⟩ := hlong
    rw [(hclock d hd now hread.clock).2.1, (hclock d₀ hd₀ now₀ hread₀.clock).1] at hwaited
    exact absurd hwaited (by decide)
  · obtain ⟨_, _, target, htarget, _, _, d, hd, now, hread, _, hsoon⟩ := hnear
    obtain ⟨_, hopen, hcloses⟩ := hsoon
    rw [(hclock d hd now hread.clock).2.2] at hopen hcloses
    have hnone : ∀ target ∈ closedReferendumDeployment.options.referenda,
        160000 < 1000 * (closedReferendumDeployment.referendum
          target.contractAddress).enrollmentClosesAtUnix.toNat →
        ¬1000 * (closedReferendumDeployment.referendum target.contractAddress).enrollmentClosesAtUnix.toNat ≤
          160000 + closedReferendumDeployment.options.maxWaitMs := by
      decide +kernel
    exact hnone target htarget (by exact_mod_cast hopen) (by exact_mod_cast hcloses)

/-- A batch is not honest after a restart although everything is in time, and beside a referendum that has
closed although the publisher remembers every root. -/
theorem batches_are_not_honest :
    ((∀ e ∈ restartedPublisherHistory, SampleRead e ∧ SampleDeadline e 1000) ∧
      ∃ e ∈ restartedPublisherHistory, ∃ batch target,
        @Publication Term Digest _ _ restartedPublisherDeployment e batch target ∧
          ¬@HonestBatch Term Digest restartedPublisherDeployment restartedPublisherHistory e batch target) ∧
    (∀ e ∈ closedReferendumHistory, SampleRead e ∧ SampleRemembered e) ∧
      ∃ e ∈ closedReferendumHistory, ∃ batch target,
        @Publication Term Digest _ _ closedReferendumDeployment e batch target ∧
          ¬@HonestBatch Term Digest closedReferendumDeployment closedReferendumHistory e batch target :=
  ⟨⟨by decide +kernel, restarted_publisher_dishonest⟩, by decide +kernel, closed_referendum_hurries⟩

end MidnightReferendum.CredentialRootPublisher
