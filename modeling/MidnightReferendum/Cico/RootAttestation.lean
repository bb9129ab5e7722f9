import MidnightReferendum.Cico.RootAdmission

/-!
# Attest before publish

A cycle publishes only after its own attestation of the same root has been accepted, so every root
that it sends to a referendum was current in the registry before. A cycle whose attestation fails ends
there: it has published nothing, and it leaves behind what it has noted about the pending root.
-/

namespace MidnightReferendum.CredentialRootPublisher

open MidnightReferendum.Compact Execution

variable {B D : Type} [DecidableEq B] [DecidableEq D] {dep : Deployment B D}

/-- The attestation of a root is accepted and its receipt arrives. -/
def Attests (e : World dep.hashing × Event B D) (root : D) : Prop :=
  ∃ batch now transactionId, e.1.running = some (.attest .submit batch) ∧
    batch.registry.currentRoot = root ∧ e.2 = .answer now (.succeeds transactionId) ∧
    CredentialRegistryV1.currentRoot dep.hashing e.1.registry = root

/-- The publisher calls `publishCredentialRoot`, with whatever end. -/
def Publishes (e : World dep.hashing × Event B D) (target : ReferendumTarget B) (root : D) : Prop :=
  ∃ progress rest now reply,
    e.1.running = some (.publishToReferendum .submit progress target rest) ∧
    progress.batch.registry.currentRoot = root ∧ e.2 = .answer now reply

/-- `attest` throws, in its join or because the attestation is refused or not seen through. -/
def AttestationFails (e : World dep.hashing × Event B D) (batch : Batch D) : Prop :=
  ∃ call now reply w₁ message, e.1.running = some (.attest call batch) ∧ e.2 = .answer now reply ∧
    perform dep e.1 (.attest call batch) reply = some (w₁, .failed message)

omit [DecidableEq B] [DecidableEq D] in
theorem Publishes.running {e : World dep.hashing × Event B D} {target : ReferendumTarget B} {root : D}
    (h : Publishes e target root) : ∃ frame progress, e.1.running = some frame ∧
      frame.progress = some progress ∧ progress.batch.registry.currentRoot = root := by
  obtain ⟨progress, rest, now, reply, hrunning, hroot, _⟩ := h
  exact ⟨_, progress, hrunning, rfl, hroot⟩

/-- What the history of a run says about the cycle that runs. -/
structure InCycle (h : List (World dep.hashing × Event B D)) (w : World dep.hashing) : Prop where
  cycles : ∀ e ∈ h, e.1.cycles ≤ w.cycles
  found : w.running = some .readRegistry → w.publisher = w.found
  undecided : ∀ frame, w.running = some frame → frame.progress = none →
    Undecided dep.options w.found (w.publisher, some frame)
  fresh : ∀ frame, w.running = some frame → frame.progress = none →
    ∀ e ∈ h, e.1.cycles = w.cycles →
      (∀ target root, ¬ Publishes e target root) ∧ ∀ batch, ¬ AttestationFails e batch
  attested : ∀ frame progress, w.running = some frame → frame.progress = some progress →
    (∃ a ∈ h, a.1.cycles = w.cycles ∧ Attests a progress.batch.registry.currentRoot) ∧
      ∀ e ∈ h, e.1.cycles = w.cycles → ∀ batch, ¬ AttestationFails e batch
  apart : ∀ e ∈ h, ∀ f ∈ h, ∀ target root batch, Publishes e target root →
    AttestationFails f batch → e.1.cycles ≠ f.1.cycles

/-- An event that does not answer the publisher is neither a publication nor a failed attestation. -/
theorem not_publishes_of_other {w : World dep.hashing} {e : Event B D}
    (h : ∀ now reply, e ≠ .answer now reply) :
    (∀ target root, ¬ Publishes (w, e) target root) ∧ ∀ batch, ¬ AttestationFails (w, e) batch := by
  constructor
  · rintro target root ⟨progress, rest, now, reply, _, _, hanswer⟩
    exact h now reply hanswer
  · rintro batch ⟨call, now, reply, w₁, message, _, hanswer, _⟩
    exact h now reply hanswer

omit [DecidableEq B] [DecidableEq D] in
/-- Before the attestation an answer publishes nothing. -/
theorem not_publishes_of_progress {w : World dep.hashing} {e : Event B D} {frame : Frame B D}
    (hrunning : w.running = some frame) (hframe : frame.progress = none) (target : ReferendumTarget B)
    (root : D) : ¬ Publishes (w, e) target root := by
  intro hpublishes
  obtain ⟨frame', progress, hrunning', hprogress, _⟩ := hpublishes.running
  obtain rfl := Option.some.inj (hrunning.symm.trans hrunning')
  rw [hframe] at hprogress
  cases hprogress

/-- The attestation fails only where the answer of its call says so. -/
theorem not_attestationFails {w w₁ : World dep.hashing} {n : ℕ → ℤ} {reply : Reply D}
    {frame : Frame B D} {answer : Answer D} (hrunning : w.running = some frame)
    (hperform : perform dep w frame reply = some (w₁, answer))
    (h : ∀ call batch message, frame = .attest call batch → answer ≠ .failed message)
    (batch : Batch D) : ¬ AttestationFails (w, .answer n reply) batch := by
  rintro ⟨call, now', reply', w₁', message, hrunning', hanswer, hperform'⟩
  obtain rfl := Option.some.inj (hrunning.symm.trans hrunning')
  cases hanswer
  rw [hperform] at hperform'
  cases hperform'
  exact h call batch message rfl rfl

/-- An invariant of the history extends to an event that adds neither kind of entry. -/
theorem InCycle.apart_concat {h : List (World dep.hashing × Event B D)} {w : World dep.hashing}
    {ev : Event B D} (hw : InCycle h w)
    (hnew : ∀ target root, Publishes (w, ev) target root →
      ∀ f ∈ h, f.1.cycles = w.cycles → ∀ batch, ¬ AttestationFails f batch)
    (hnew' : ∀ batch, AttestationFails (w, ev) batch →
      ∀ e ∈ h, e.1.cycles = w.cycles → ∀ target root, ¬ Publishes e target root)
    (hone : ∀ target root batch, Publishes (w, ev) target root → ¬ AttestationFails (w, ev) batch) :
    ∀ e ∈ h ++ [(w, ev)], ∀ f ∈ h ++ [(w, ev)], ∀ target root batch, Publishes e target root →
      AttestationFails f batch → e.1.cycles ≠ f.1.cycles := by
  intro e he f hf target root batch hpublishes hfails hcycles
  rcases List.mem_append.mp he with he | he
  · rcases List.mem_append.mp hf with hf | hf
    · exact hw.apart e he f hf target root batch hpublishes hfails hcycles
    · obtain rfl := List.mem_singleton.mp hf
      exact hnew' batch hfails e he hcycles target root hpublishes
  · obtain rfl := List.mem_singleton.mp he
    rcases List.mem_append.mp hf with hf | hf
    · exact hnew target root hpublishes f hf hcycles.symm batch hfails
    · obtain rfl := List.mem_singleton.mp hf
      exact hone target root batch hpublishes hfails

theorem InCycle.cycles_concat {h : List (World dep.hashing × Event B D)} {w : World dep.hashing}
    (hw : InCycle h w) (ev : Event B D) {n : ℕ} (hn : w.cycles ≤ n) :
    ∀ e ∈ h ++ [(w, ev)], e.1.cycles ≤ n := by
  intro e he
  rcases List.mem_append.mp he with he | he
  · exact (hw.cycles e he).trans hn
  · obtain rfl := List.mem_singleton.mp he
    exact hn

/-- An event beside the publisher. -/
theorem InCycle.beside {h : List (World dep.hashing × Event B D)} {w w' : World dep.hashing}
    {ev : Event B D} (hw : InCycle h w) (hother : ∀ now reply, ev ≠ .answer now reply)
    (hbeside : Beside w w') : InCycle (h ++ [(w, ev)]) w' := by
  obtain ⟨hpublishes, hfails⟩ := not_publishes_of_other (w := w) hother
  constructor
  · exact hw.cycles_concat ev hbeside.cycles.ge
  · rw [hbeside.running, hbeside.publisher, hbeside.found]
    exact hw.found
  · rw [hbeside.running, hbeside.publisher, hbeside.found]
    exact hw.undecided
  · rw [hbeside.running, hbeside.cycles]
    intro frame hrunning hframe e he hcycles
    rcases List.mem_append.mp he with he | he
    · exact hw.fresh frame hrunning hframe e he hcycles
    · obtain rfl := List.mem_singleton.mp he
      exact ⟨hpublishes, hfails⟩
  · rw [hbeside.running, hbeside.cycles]
    intro frame progress hrunning hframe
    obtain ⟨⟨a, ha, hattests⟩, hnone⟩ := hw.attested frame progress hrunning hframe
    refine ⟨⟨a, List.mem_append_left _ ha, hattests⟩, fun e he hcycles ↦ ?_⟩
    rcases List.mem_append.mp he with he | he
    · exact hnone e he hcycles
    · obtain rfl := List.mem_singleton.mp he
      exact hfails
  · apply hw.apart_concat
    · exact fun target root hp ↦ absurd hp (hpublishes target root)
    · exact fun batch hf ↦ absurd hf (hfails batch)
    · exact fun target root _ hp ↦ absurd hp (hpublishes target root)

/-- A new cycle has published nothing. -/
theorem InCycle.begun {h : List (World dep.hashing × Event B D)} {w : World dep.hashing}
    (hw : InCycle h w) (queued : ℕ) : InCycle (h ++ [(w, .begin)])
      (World.settle { w with queued, cycles := w.cycles + 1, found := w.publisher }
        (w.publisher, runCycle dep.options)) := by
  obtain ⟨hpublishes, hfails⟩ := not_publishes_of_other (w := w) (e := .begin) (by simp)
  have hbefore : ∀ e ∈ h ++ [(w, Event.begin)], e.1.cycles ≠ w.cycles + 1 := fun e he ↦
    Nat.ne_of_lt (Nat.lt_succ_of_le (hw.cycles_concat .begin le_rfl e he))
  constructor
  · exact hw.cycles_concat .begin (Nat.le_succ _)
  · intro hrunning
    change (cycle (w.publisher, runCycle dep.options)).1 = w.publisher
    change (cycle (w.publisher, runCycle dep.options)).2 = _ at hrunning
    unfold runCycle at hrunning ⊢
    split at hrunning
    · cases hrunning
    · rfl
  · intro frame hrunning hframe
    change (cycle (w.publisher, runCycle dep.options)).2 = _ at hrunning
    change Undecided _ w.publisher ((cycle (w.publisher, runCycle dep.options)).1, some frame)
    unfold runCycle at hrunning ⊢
    split at hrunning
    · cases hrunning
    · cases hrunning
      constructor
      · exact ⟨rfl, rfl, rfl⟩
      · intro frame hsome
        obtain rfl := Option.some.inj hsome
        rfl
      · intro frame batch hsome hbatch
        obtain rfl := Option.some.inj hsome
        cases hbatch
  · intro frame hrunning hframe e he hcycles
    exact absurd hcycles (hbefore e he)
  · intro frame progress hrunning hframe
    change (cycle (w.publisher, runCycle dep.options)).2 = _ at hrunning
    unfold runCycle at hrunning
    split at hrunning
    · cases hrunning
    · cases hrunning
      cases hframe
  · apply hw.apart_concat
    · exact fun target root hp ↦ absurd hp (hpublishes target root)
    · exact fun batch hf ↦ absurd hf (hfails batch)
    · exact fun target root _ hp ↦ absurd hp (hpublishes target root)

/-- A piece of a cycle that has not attested yet. -/
theorem InCycle.undecided_answer {h : List (World dep.hashing × Event B D)} {w w' : World dep.hashing}
    {ev : Event B D} {frame : Frame B D} (hw : InCycle h w) (hrunning : w.running = some frame)
    (hframe : frame.progress = none) (hcycles : w'.cycles = w.cycles) (hfound : w'.found = w.found)
    (hread : w'.running ≠ some .readRegistry)
    (hundecided : Undecided dep.options w.found (w'.publisher, w'.running))
    (hfails : w'.running ≠ none → ∀ batch, ¬ AttestationFails (w, ev) batch) :
    InCycle (h ++ [(w, ev)]) w' := by
  have hpublishes := not_publishes_of_progress (e := ev) hrunning hframe
  have hfresh := hw.fresh frame hrunning hframe
  constructor
  · exact hw.cycles_concat ev hcycles.ge
  · exact fun hread' ↦ absurd hread' hread
  · intro frame' hrunning' hframe'
    rw [hfound, ← hrunning']
    exact hundecided
  · intro frame' hrunning' hframe' e he he'
    rcases List.mem_append.mp he with he | he
    · exact hfresh e he (he'.trans hcycles)
    · obtain rfl := List.mem_singleton.mp he
      exact ⟨hpublishes, hfails (by simp [hrunning'])⟩
  · intro frame' progress hrunning' hframe'
    rw [hundecided.progress frame' hrunning'] at hframe'
    cases hframe'
  · apply hw.apart_concat
    · exact fun target root hp ↦ absurd hp (hpublishes target root)
    · exact fun _ _ e he he' ↦ (hfresh e he he').1
    · exact fun target root _ hp ↦ absurd hp (hpublishes target root)

/-- A piece of a cycle after its attestation. -/
theorem InCycle.attested_answer {h : List (World dep.hashing × Event B D)} {w w' : World dep.hashing}
    {ev : Event B D} {r : D} (hw : InCycle h w) (hcycles : w'.cycles = w.cycles)
    (hrunning : ∀ frame, w'.running = some frame →
      ∃ progress, frame.progress = some progress ∧ progress.batch.registry.currentRoot = r)
    (hattests : ∃ a ∈ h ++ [(w, ev)], a.1.cycles = w.cycles ∧ Attests a r)
    (hold : ∀ e ∈ h, e.1.cycles = w.cycles → ∀ batch, ¬ AttestationFails e batch)
    (hfails : ∀ batch, ¬ AttestationFails (w, ev) batch) : InCycle (h ++ [(w, ev)]) w' := by
  have hprogress : ∀ frame, w'.running = some frame → frame.progress ≠ none := by
    intro frame hsome hnone
    obtain ⟨progress, hprogress, _⟩ := hrunning frame hsome
    rw [hnone] at hprogress
    cases hprogress
  constructor
  · exact hw.cycles_concat ev hcycles.ge
  · exact fun hread ↦ absurd rfl (hprogress _ hread)
  · exact fun frame hsome hnone ↦ absurd hnone (hprogress frame hsome)
  · exact fun frame hsome hnone ↦ absurd hnone (hprogress frame hsome)
  · intro frame progress hsome hframe
    obtain ⟨progress', hprogress', rfl⟩ := hrunning frame hsome
    obtain rfl := Option.some.inj (hframe.symm.trans hprogress')
    rw [hcycles]
    refine ⟨hattests, fun e he he' ↦ ?_⟩
    rcases List.mem_append.mp he with he | he
    · exact hold e he he'
    · obtain rfl := List.mem_singleton.mp he
      exact hfails
  · apply hw.apart_concat
    · exact fun _ _ _ f hf hf' ↦ hold f hf hf'
    · exact fun batch hf ↦ absurd hf (hfails batch)
    · exact fun _ _ batch _ ↦ hfails batch

theorem InCycle.answered {h : List (World dep.hashing × Event B D)} {w w₁ : World dep.hashing}
    {now : ℕ → ℤ} {reply : Reply D} {frame : Frame B D} {answer : Answer D}
    {r : Publisher D × Next B D} (hw : InCycle h w) (hrunning : w.running = some frame)
    (hperform : perform dep w frame reply = some (w₁, answer)) (hbeside : Beside w w₁)
    (hresumed : Resumed dep.options w.publisher now frame answer r) :
    InCycle (h ++ [(w, .answer now reply)]) (w₁.settle r) := by
  have hcycles : (w₁.settle r).cycles = w.cycles := hbeside.cycles
  have hfails := not_attestationFails (n := now) hrunning hperform
  cases hprogress : frame.progress with
  | some progress =>
    obtain ⟨⟨a, ha, hattests⟩, hold⟩ := hw.attested frame progress hrunning hprogress
    apply hw.attested_answer (r := progress.batch.registry.currentRoot) hcycles
    · intro frame' hframe'
      obtain ⟨progress', hprogress', hbatch⟩ := hresumed.batch hprogress hframe'
      exact ⟨progress', hprogress', by rw [hbatch]⟩
    · exact ⟨a, List.mem_append_left _ ha, hattests⟩
    · exact hold
    · apply hfails
      rintro call batch message rfl
      cases hprogress
  | none =>
    by_cases hattested : ∃ batch transactionId, frame = .attest .submit batch ∧
        answer = .receipt transactionId
    · obtain ⟨batch, transactionId, rfl, rfl⟩ := hattested
      obtain ⟨rfl, hroot⟩ := (perform_attest hperform).2 transactionId rfl
      apply hw.attested_answer (r := batch.registry.currentRoot) hcycles
      · intro frame' hframe'
        cases hresumed with
        | attested => exact ⟨_, progress_of_publishToReferenda hframe', rfl⟩
      · exact ⟨_, List.mem_append_right _ (List.mem_singleton_self _), rfl, batch, now,
          transactionId, hrunning, rfl, rfl, hroot⟩
      · exact fun e he he' ↦ (hw.fresh _ hrunning rfl e he he').2
      · exact hfails (by simp)
    · apply hw.undecided_answer hrunning hprogress hcycles hbeside.found
      · exact hresumed.ne_readRegistry
      · exact resumed_undecided (hw.undecided frame hrunning hprogress)
          (fun hread ↦ hw.found (hread ▸ hrunning)) hresumed
          (fun batch transactionId hframe hanswer ↦
            hattested ⟨batch, transactionId, hframe, hanswer⟩)
      · intro hwaits
        apply hfails
        rintro call batch message rfl rfl
        cases hresumed with
        | attestationFailed => exact hwaits rfl

theorem inCycle_step (h : List (World dep.hashing × Event B D)) (w : World dep.hashing)
    (ev : Event B D) (w' : World dep.hashing) (hw : InCycle h w) (hok : step dep w ev = .ok w') :
    InCycle (h ++ [(w, ev)]) w' := by
  cases effect_of_step hok with
  | begun queued hrunning => exact hw.begun queued
  | answered hrunning hperform hbeside hresumed =>
    exact hw.answered hrunning hperform hbeside hresumed
  | beside hother hbeside => exact hw.beside hother hbeside

/-! ## After a failed attestation -/

/-- From the end of a cycle until the next one has read the registry. -/
structure Between (p : Publisher D) (n : ℕ) (w : World dep.hashing) : Prop where
  cycles : n ≤ w.cycles
  idle : w.cycles = n → w.running = none ∧ w.publisher = p
  next : w.cycles = n + 1 → w.running = some .readRegistry → w.publisher = p

theorem between_step {p : Publisher D} {n : ℕ} (w : World dep.hashing) (ev : Event B D)
    (w' : World dep.hashing) (hw : Between p n w) (hok : step dep w ev = .ok w') :
    Between p n w' := by
  cases effect_of_step hok with
  | begun queued hrunning =>
    have hle := hw.cycles
    constructor
    · exact hle.trans (Nat.le_succ _)
    · intro hcycles
      change w.cycles + 1 = n at hcycles
      omega
    · intro hcycles hread
      change (cycle (w.publisher, runCycle dep.options)).2 = _ at hread
      change (cycle (w.publisher, runCycle dep.options)).1 = p
      have hpublisher := (hw.idle (Nat.succ.inj hcycles)).2
      unfold runCycle at hread ⊢
      split at hread
      · cases hread
      · exact hpublisher
  | answered hrunning hperform hbeside hresumed =>
    constructor
    · exact hw.cycles.trans hbeside.cycles.ge
    · intro hcycles
      have hnone := (hw.idle (hbeside.cycles.symm.trans hcycles)).1
      rw [hrunning] at hnone
      cases hnone
    · exact fun _ hread ↦ absurd hread hresumed.ne_readRegistry
  | beside hother hbeside =>
    constructor
    · exact hw.cycles.trans hbeside.cycles.ge
    · rw [hbeside.cycles, hbeside.running, hbeside.publisher]
      exact hw.idle
    · rw [hbeside.cycles, hbeside.running, hbeside.publisher]
      exact hw.next

/-- A failed attestation ends the cycle and changes nothing else. -/
theorem failed_ended {w w' : World dep.hashing} {ev : Event B D} {batch : Batch D}
    (hok : step dep w ev = .ok w') (hfails : AttestationFails (w, ev) batch) :
    w' = { w with
      publisher := { w.publisher with lastResult := some (.skipped .attestationFailed none) }
      running := none } := by
  obtain ⟨call, now, reply, w₁, message, hrunning, rfl, hperform⟩ := hfails
  cases effect_of_step hok with
  | beside hother _ => exact absurd rfl (hother now reply)
  | answered hrunning' hperform' hbeside hresumed =>
    obtain rfl := Option.some.inj (hrunning.symm.trans hrunning')
    obtain ⟨rfl, rfl⟩ := Prod.ext_iff.mp (Option.some.inj (hperform.symm.trans hperform'))
    obtain rfl := (perform_attest hperform).1
    cases hresumed
    rfl

/-- The next cycle, when it reads what the failed one has read. -/
theorem read_again {w w' : World dep.hashing} {now : ℕ → ℤ} {state : RegistryState D}
    (hread : w.running = some .readRegistry)
    (hok : step dep w (.answer now (.registry state)) = .ok w') :
    w'.running = (cycle (afterRegistry dep.options w.publisher now state)).2 := by
  cases effect_of_step hok with
  | beside hother _ => exact absurd rfl (hother now _)
  | answered hrunning hperform hbeside hresumed =>
    obtain rfl := Option.some.inj (hread.symm.trans hrunning)
    cases hperform
    cases hresumed
    rfl

/-! ## Every run -/

/-- What a cycle whose attestation of `batch` fails leaves behind, where `w` is the world in which it
fails after the events `es`, and `ev` the event. -/
structure FailedAttestation (dep : Deployment B D) (w₀ : World dep.hashing) (es : List (Event B D))
    (ev : Event B D) (w w' : World dep.hashing) (batch : Batch D) : Prop where
  ended : w' = { w with
    publisher := { w.publisher with lastResult := some (.skipped .attestationFailed none) }
    running := none }
  published : SamePublished w.publisher w.found
  pending : Pending w.found w.publisher batch.registry.currentRoot
  silent : ∀ later, ∀ e ∈ accepted (step dep) w₀ (es ++ ev :: later), ∀ target root,
    Publishes e target root → e.1.cycles ≠ w.cycles
  retried : ∀ later now w'', (runEvents dep w₀ (es ++ ev :: later)).cycles = w.cycles + 1 →
    (runEvents dep w₀ (es ++ ev :: later)).running = some .readRegistry →
    step dep (runEvents dep w₀ (es ++ ev :: later)) (.answer now (.registry batch.registry)) =
      .ok w'' →
    w''.running =
      if batch.belowMinimum ∧
          waitedMs w.publisher.pendingSinceMs (now 1) < dep.options.maxWaitMs then
        (cycle (w.publisher, checkDeadlines batch (now 2 / 1000) dep.options.referenda)).2
      else some (.attest (if w.publisher.registryJoined then .submit else .join) batch)

/-- What holds after the events `es` of the next event. -/
structure AttestedFirst (dep : Deployment B D) (w₀ : World dep.hashing) (es : List (Event B D)) :
    Prop where
  attested : ∀ ev w' target root, step dep (runEvents dep w₀ es) ev = .ok w' →
    Publishes (runEvents dep w₀ es, ev) target root →
    ∃ a ∈ accepted (step dep) w₀ es, a.1.cycles = (runEvents dep w₀ es).cycles ∧ Attests a root
  current : ∀ ev w' target root, step dep (runEvents dep w₀ es) ev = .ok w' →
    Publishes (runEvents dep w₀ es, ev) target root →
    ∃ earlier, earlier <+: es ∧
      CredentialRegistryV1.currentRoot dep.hashing (runEvents dep w₀ earlier).registry = root
  failed : ∀ ev w' batch, step dep (runEvents dep w₀ es) ev = .ok w' →
    AttestationFails (runEvents dep w₀ es, ev) batch →
    FailedAttestation dep w₀ es ev (runEvents dep w₀ es) w' batch

theorem start_inCycle (blockTime : UInt64) (registry : CredentialRegistryV1.Ledger B D)
    (referenda : String → ReferendumV2.Ledger dep.hashing) :
    InCycle [] (start dep blockTime registry referenda) where
  cycles _ he := absurd he List.not_mem_nil
  found h := by cases h
  undecided _ h := by cases h
  fresh _ h := by cases h
  attested _ _ h := by cases h
  apart _ he := absurd he List.not_mem_nil

theorem InCycle.attests_of_publishes {h : List (World dep.hashing × Event B D)}
    {w : World dep.hashing} {ev : Event B D} {target : ReferendumTarget B} {root : D}
    (hw : InCycle h w) (hpublishes : Publishes (w, ev) target root) :
    ∃ a ∈ h, a.1.cycles = w.cycles ∧ Attests a root := by
  obtain ⟨frame, progress, hrunning, hprogress, rfl⟩ := hpublishes.running
  exact (hw.attested frame progress hrunning hprogress).1

theorem attest_before_publish (dep : Deployment B D) (blockTime : UInt64)
    (registry : CredentialRegistryV1.Ledger B D)
    (referenda : String → ReferendumV2.Ledger dep.hashing) (es : List (Event B D)) :
    AttestedFirst dep (start dep blockTime registry referenda) es := by
  have hstart : InCycle [] (start dep blockTime registry referenda) :=
    start_inCycle blockTime registry referenda
  generalize start dep blockTime registry referenda = w₀ at hstart
  have hall : ∀ es, InCycle (accepted (step dep) w₀ es) (runEvents dep w₀ es) :=
    run_history_unconditional inCycle_step hstart
  constructor
  · exact fun ev w' target root _ hpublishes ↦ (hall es).attests_of_publishes hpublishes
  · intro ev w' target root _ hpublishes
    obtain ⟨a, ha, _, hattests⟩ := (hall es).attests_of_publishes hpublishes
    obtain ⟨earlier, post, s', hsplit, hstate, _⟩ := mem_accepted ha
    obtain ⟨batch, now, transactionId, _, _, _, hroot⟩ := hattests
    exact ⟨earlier, ⟨a.2 :: post, hsplit.symm⟩, by rw [runEvents, ← hstate, hroot]⟩
  · intro ev w' batch hok hfails
    have hended := failed_ended hok hfails
    obtain ⟨call, now, reply, w₁, message, hrunning, _, _⟩ := id hfails
    have hundecided := (hall es).undecided _ hrunning rfl
    have hdecides := hundecided.decides _ batch rfl rfl
    constructor
    · exact hended
    · exact hundecided.published
    · exact hdecides.pending
    · intro later e he target root hpublishes
      refine (hall _).apart e he (runEvents dep w₀ es, ev) ?_ target root batch hpublishes hfails
      rw [accepted_append]
      exact List.mem_append_right _ (accepted_cons_of_ok hok later ▸ List.mem_cons_self)
    · intro later now w'' hcycles hread hok'
      have hbetween : Between w'.publisher w'.cycles w' := by
        constructor
        · exact le_rfl
        · exact fun _ ↦ ⟨by rw [hended], rfl⟩
        · exact fun _ _ ↦ rfl
      have hlater := run_invariant between_step hbetween later
      rw [runEvents, run_append, run_cons, apply_of_ok hok] at hcycles hread hok'
      have hpublisher := hlater.next (by rw [hcycles, hended]) hread
      rw [read_again hread hok', hpublisher, hended]
      have hsame : SamePublished { (runEvents dep w₀ es).publisher with
          lastResult := some (.skipped .attestationFailed none) } (runEvents dep w₀ es).found :=
        ⟨hundecided.published.root, hundecided.published.count, hundecided.published.time⟩
      rw [afterRegistry_again now hsame ⟨hdecides.batchOf, hdecides.pending.pending,
        hdecides.pending.since⟩]
      split
      · exact cycle_snd _ _ _
      · rfl

/-! ## A stale attestation -/

/-- A single credential waits until its batch is due. While the publisher joins the registry a second
one is added, so the attestation is stale. The next cycle reads the new root. -/
def staleEvents : List (Event Term Digest) :=
  [.publishOnce, .begin, sampleAnswer 100 (.registry (sampleReading 1)),
    sampleAnswer 100 (.referendum ⟨false, 200⟩),
    .publishOnce, .begin, sampleAnswer 110 (.registry (sampleReading 1)),
    .registryCall (sampleAdd 1), sampleAnswer 110 (.succeeds "join"),
    sampleAnswer 110 (.succeeds "attest"),
    .publishOnce, .begin, sampleAnswer 111 (.registry (sampleReading 2)),
    sampleAnswer 111 (.referendum ⟨false, 200⟩)]

/-- A batch of one is due at once, and the registry cannot be joined. -/
def failedEvents : List (Event Term Digest) :=
  [.publishOnce, .begin, sampleAnswer 100 (.registry (sampleReading 1)),
    sampleAnswer 100 (.fails "the node does not answer")]

/-- A publisher of one referendum with one credential in the registry, after some events. -/
def sampleWorld (minBatchSize : ℕ) (h : 1 ≤ minBatchSize) (es : List (Event Term Digest)) :
    World symbolic :=
  runEvents (sampleDeployment minBatchSize h ["referendum"])
    (start (sampleDeployment minBatchSize h ["referendum"]) 100 (sampleRegistry 1)
      fun _ ↦ ReferendumV2.sampleInitial) es

def failedWorld : World symbolic := sampleWorld 1 batch_of_one failedEvents

def staleWorld (n : ℕ) : World symbolic := sampleWorld 16 batch_of_sixteen (staleEvents.take n)

/-- A cycle whose attestation fails has noted a pending root, and after a stale attestation the wait
begins anew, so the next cycle does not attest. -/
theorem failed_attestation_not_retried :
    (failedWorld.publisher.lastResult = some (.skipped .attestationFailed none) ∧
      failedWorld.found.pendingRootField = none ∧
      failedWorld.publisher.pendingRootField = some (sampleReading 1).currentRoot) ∧
    (staleWorld 10).publisher.lastResult = some (.skipped .attestationFailed none) ∧
      (staleWorld 10).publisher.pendingSinceMs = some 100000 ∧
      (staleWorld 14).cycles = (staleWorld 10).cycles + 1 ∧
      (staleWorld 14).publisher.lastResult = some (.skipped .belowMinimumBatch (some 2)) ∧
      (staleWorld 14).publisher.pendingSinceMs = some 111000 ∧
      (staleWorld 14).publisher.lastPublishedRootField = none := by
  refine ⟨⟨?_, ?_, ?_⟩, ?_, ?_, ?_, ?_, ?_, ?_⟩ <;> decide +kernel

end MidnightReferendum.CredentialRootPublisher
