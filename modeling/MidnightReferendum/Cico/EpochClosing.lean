import MidnightReferendum.Cico.EpochCoordinator

/-!
# The freeze leaves no credential behind

The indexer may be behind the chain, so the coordinator may ask for the freeze of a root that is no longer
current. The registry refuses it, and a registry that is frozen by others is accepted only with its current
root. So whatever the indexer shows, a freeze that succeeds has seen the final state of the registry.
-/

namespace MidnightReferendum.CredentialEpochCoordinator

open MidnightReferendum.Compact CredentialRegistryV1 Checks Execution Merkle Passport PromiseChain

variable {B D : Type} {dep : Deployment B D}

/-- Every state of the registry extends the states before it, and the indexer has shown one of them. -/
structure Blocks (dep : Deployment B D) (w : World B D) : Prop where
  pairwise : w.blocks.Pairwise (Extends dep.hashing.toHashing)
  bound : ∀ ledger ∈ w.blocks, Extends dep.hashing.toHashing ledger w.registry
  seen : w.seen < w.blocks.length

/-- The indexer has shown the registry frozen with the root of a result. -/
def Shown (dep : Deployment B D) (w : World B D) (root : D) : Prop :=
  ∃ ledger, w.blocks[w.seen]? = some ledger ∧ ledger.frozen = true ∧ ledger.frozenRoot = root ∧
    currentRoot dep.hashing.toHashing ledger = root

/-- What happens beside the calls of the coordinator. -/
structure Beside (dep : Deployment B D) (w w' : World B D) : Prop where
  chain : w'.chain = w.chain
  tasks : w'.tasks = w.tasks
  blocks : w.blocks <+: w'.blocks
  seen : w.seen ≤ w'.seen
  registry : Extends dep.hashing.toHashing w.registry w'.registry
  kept : Blocks dep w → Blocks dep w'

theorem Blocks.extends_of_le {w : World B D} (h : Blocks dep w) {m n : ℕ} {ledger ledger' : Ledger B D}
    (hm : w.blocks[m]? = some ledger) (hn : w.blocks[n]? = some ledger') (hle : m ≤ n) :
    Extends dep.hashing.toHashing ledger ledger' := by
  obtain ⟨hmlt, rfl⟩ := List.getElem?_eq_some_iff.mp hm
  obtain ⟨hnlt, rfl⟩ := List.getElem?_eq_some_iff.mp hn
  rcases Nat.eq_or_lt_of_le hle with rfl | hlt
  · exact extends_refl _
  · exact List.pairwise_iff_getElem.mp h.pairwise m n hmlt hnlt hlt

theorem Shown.later {w w' : World B D} {root : D} (h : Shown dep w root) (hw : Blocks dep w)
    (hbeside : Beside dep w w') : Shown dep w' root := by
  obtain ⟨ledger, hledger, hfrozen, hroot, hcurrent⟩ := h
  have hw' := hbeside.kept hw
  obtain ⟨later, hlater⟩ : ∃ later, w'.blocks[w'.seen]? = some later :=
    ⟨_, List.getElem?_eq_getElem hw'.seen⟩
  have hledger' : w'.blocks[w.seen]? = some ledger := by
    obtain ⟨rest, hrest⟩ := hbeside.blocks
    rw [← hrest, List.getElem?_append_left hw.seen]
    exact hledger
  obtain ⟨hfrozen', hroot', hleaves, _⟩ :=
    (hw'.extends_of_le hledger' hlater hbeside.seen).frozen hfrozen
  exact ⟨later, hlater, hfrozen', hroot'.trans hroot, (currentRoot_congr hleaves).trans hcurrent⟩

/-- What the indexer has shown frozen is final. -/
theorem Shown.final {w : World B D} {root : D} (h : Shown dep w root) (hw : Blocks dep w) :
    w.registry.frozen = true ∧ w.registry.frozenRoot = root ∧
      currentRoot dep.hashing.toHashing w.registry = root := by
  obtain ⟨ledger, hledger, hfrozen, hroot, hcurrent⟩ := h
  have hmem : ledger ∈ w.blocks := List.mem_of_getElem? hledger
  obtain ⟨hfrozen', hroot', hleaves, _⟩ := (hw.bound ledger hmem).frozen hfrozen
  exact ⟨hfrozen', hroot'.trans hroot, (currentRoot_congr hleaves).trans hcurrent⟩

theorem beside_refl (w : World B D) : Beside dep w w where
  chain := rfl
  tasks := rfl
  blocks := List.prefix_rfl
  seen := le_rfl
  registry := extends_refl _
  kept h := h

variable [DecidableEq B] [DecidableEq D]

theorem beside_of_transact {w w' : World B D} {call : CredentialRegistryV1.Call B D}
    (h : w.transact dep call = some w') : Beside dep w w' := by
  unfold World.transact at h
  split at h
  · next ledger hledger =>
    obtain rfl := Option.some.inj h
    have hextends := step_extends _ _ _ hledger
    refine ⟨rfl, rfl, List.prefix_append _ _, le_rfl, hextends, fun hw ↦ ⟨?_, ?_, ?_⟩⟩
    · refine List.pairwise_append.mpr ⟨hw.pairwise, List.pairwise_singleton _ _, ?_⟩
      intro old hold new hnew
      obtain rfl := List.mem_singleton.mp hnew
      exact extends_trans (hw.bound old hold) hextends
    · intro old hold
      rcases List.mem_append.mp hold with hmem | hnew
      · exact extends_trans (hw.bound old hmem) hextends
      · obtain rfl := List.mem_singleton.mp hnew
        exact extends_refl _
    · have hlength : (w.extend ledger).blocks.length = w.blocks.length + 1 := List.length_append
      rw [hlength]
      exact hw.seen.trans (Nat.lt_succ_self _)
  · cases h

omit [DecidableEq B] [DecidableEq D] in
theorem beside_of_read {w w' : World B D} {position : ℕ} {ledger : Ledger B D}
    (h : w.read position = some (w', ledger)) :
    Beside dep w w' ∧ w'.blocks[w'.seen]? = some ledger := by
  unfold World.read at h
  split at h
  · next hle =>
    obtain ⟨ledger', hledger, heq⟩ := Option.map_eq_some_iff.mp h
    cases heq
    refine ⟨⟨rfl, rfl, List.prefix_rfl, hle, extends_refl _, fun hw ↦ ⟨hw.pairwise, hw.bound, ?_⟩⟩, hledger⟩
    exact (List.getElem?_eq_some_iff.mp hledger).1
  · cases h

omit [DecidableEq B] [DecidableEq D] in
/-- A snapshot shows the state of the registry at the position of the indexer. -/
theorem beside_of_readSnapshot {w w' : World B D} {position : ℕ} {answer : Answer B D}
    (h : w.readSnapshot dep position = some (w', answer)) : Beside dep w w' ∧
      ∀ state, answer = .snapshot state → ∃ ledger, w'.blocks[w'.seen]? = some ledger ∧
        readRegistry dep dep.options.registryContractAddress ledger = some state := by
  obtain ⟨⟨w₁, ledger⟩, hread, heq⟩ := Option.map_eq_some_iff.mp h
  have hshown : Beside dep w w₁ ∧ w₁.blocks[w₁.seen]? = some ledger := beside_of_read hread
  simp only at heq
  split at heq
  · next state hstate =>
    cases heq
    refine ⟨hshown.1, fun state' hsnapshot ↦ ⟨ledger, hshown.2, ?_⟩⟩
    cases hsnapshot
    exact hstate
  · cases heq
    exact ⟨hshown.1, fun state' hsnapshot ↦ by cases hsnapshot⟩

theorem perform_beside {w w' : World B D} {frame : Frame B D} {reply : Reply} {answer : Answer B D}
    (h : perform dep w frame reply = some (w', answer)) : Beside dep w w' ∧
      ∀ state, answer = .snapshot state → ∃ ledger, w'.blocks[w'.seen]? = some ledger ∧
        readRegistry dep dep.options.registryContractAddress ledger = some state := by
  have hrefl : ∀ {answer' : Answer B D}, (∀ state, answer' ≠ .snapshot state) →
      some (w, answer') = some (w', answer) → Beside dep w w' ∧
        ∀ state, answer = .snapshot state → ∃ ledger, w'.blocks[w'.seen]? = some ledger ∧
          readRegistry dep dep.options.registryContractAddress ledger = some state := by
    intro answer' hnot heq
    cases heq
    exact ⟨beside_refl w, fun state hstate ↦ absurd hstate (hnot state)⟩
  have hsent : ∀ {call : CredentialRegistryV1.Call B D} {answer' : Answer B D},
      (∀ state, answer' ≠ .snapshot state) →
      (w.transact dep call).map (·, answer') = some (w', answer) → Beside dep w w' ∧
        ∀ state, answer = .snapshot state → ∃ ledger, w'.blocks[w'.seen]? = some ledger ∧
          readRegistry dep dep.options.registryContractAddress ledger = some state := by
    intro call answer' hnot heq
    obtain ⟨w₁, htransact, heq⟩ := Option.map_eq_some_iff.mp heq
    cases heq
    exact ⟨beside_of_transact htransact, fun state hstate ↦ absurd hstate (hnot state)⟩
  have hrejected : ∀ message state, (.rejected message : Answer B D) ≠ .snapshot state :=
    fun message state heq ↦ by cases heq
  have hdone : ∀ state, (.done : Answer B D) ≠ .snapshot state := fun state heq ↦ by cases heq
  unfold perform at h
  split at h
  · exact hrefl (hrejected _) h
  · exact beside_of_readSnapshot h
  · exact beside_of_readSnapshot h
  · exact beside_of_readSnapshot h
  · exact hrefl hdone h
  · exact hrefl hdone h
  · exact hrefl hdone h
  · exact hsent (fun state heq ↦ by cases heq) h
  · exact hsent (hrejected _) h
  · cases h

/-! ## How a section ends -/

omit [DecidableEq B] [DecidableEq D] in
theorem readRegistry_frozen {registryContractAddress : Js.JsString} {ledger : Ledger B D}
    {state : CredentialEpochSnapshot B D} (h : readRegistry dep registryContractAddress ledger = some state) :
    state.frozen = ledger.frozen ∧ state.frozenRoot = ledger.frozenRoot ∧
      state.currentRoot = currentRoot dep.hashing.toHashing ledger := by
  obtain ⟨address, _, rfl⟩ := Option.map_eq_some_iff.mp h
  exact ⟨rfl, rfl, rfl⟩

omit [DecidableEq D] in
theorem readExpectedRegistry_ok {opts : Options B} {state before : CredentialEpochSnapshot B D}
    (h : readExpectedRegistry opts state = .ok before) : before = state := by
  simp only [readExpectedRegistry, check_bind_eq_ok, pure, Except.pure, Except.ok.injEq] at h
  exact h.2.2.2.2.symm

/-- A result is made from a snapshot that is frozen with its current root. -/
def MadeFrom (result : CredentialEpochFreezeResult B D) (state : CredentialEpochSnapshot B D) : Prop :=
  state.frozen = true ∧ state.frozenRoot = result.reference.frozenRoot ∧
    state.currentRoot = result.reference.frozenRoot

omit [DecidableEq B] in
theorem alreadyFrozen_ok {before : CredentialEpochSnapshot B D} {result : CredentialEpochFreezeResult B D}
    (h : alreadyFrozen dep before = .ok result) : MadeFrom result before := by
  simp only [alreadyFrozen, assertFrozenRootIsCurrent, bind_eq_ok, check_eq_ok, pure, Except.pure] at h
  obtain ⟨_, _, reference, hreference, hresult⟩ := h
  obtain rfl := Except.ok.inj hresult
  obtain ⟨_, _, hfrozen, hcurrent, rfl⟩ := createFrozenCredentialRegistryReference_eq_ok.mp hreference
  exact ⟨hfrozen, rfl, hcurrent.symm⟩

omit [DecidableEq B] in
theorem nowFrozen_ok {before after : CredentialEpochSnapshot B D} {receipt : Relayer.CanonicalReceipt}
    {result : CredentialEpochFreezeResult B D} (h : nowFrozen dep before after receipt = .ok result) :
    MadeFrom result after := by
  simp only [nowFrozen, reconciled, bind_eq_ok, check_eq_ok, pure, Except.pure] at h
  obtain ⟨after', ⟨_, _, _, _, _, _, hafter⟩, reference, hreference, hresult⟩ := h
  obtain rfl := Except.ok.inj hafter
  obtain rfl := Except.ok.inj hresult
  obtain ⟨_, _, hfrozen, hcurrent, rfl⟩ := createFrozenCredentialRegistryReference_eq_ok.mp hreference
  exact ⟨hfrozen, rfl, hcurrent.symm⟩

/-- How a section goes on when the call that it awaits ends. -/
structure Resumed (answer : Answer B D) (task : Task B D) : Prop where
  begun : task.stage ≠ .waiting
  frozen : ∀ result, task = .frozen result → ∃ state, answer = .snapshot state ∧ MadeFrom result state
  operation : task = .running .operation → ∃ state, answer = .snapshot state ∧ state.frozen = false

omit [DecidableEq B] [DecidableEq D] in
theorem resumed_rejected (answer : Answer B D) (message : String) :
    Resumed answer (.rejected message) where
  begun h := by cases h
  frozen result h := by cases h
  operation h := by cases h

omit [DecidableEq B] [DecidableEq D] in
theorem resumed_mutated (answer : Answer B D) : Resumed answer .mutated where
  begun h := by cases h
  frozen result h := by cases h
  operation h := by cases h

omit [DecidableEq B] [DecidableEq D] in
/-- The section waits for another call than the operation of a mutation. -/
theorem resumed_running {answer : Answer B D} {frame : Frame B D} (h : frame ≠ .operation) :
    Resumed answer (.running frame) where
  begun h := by cases h
  frozen result h := by cases h
  operation heq := by
    cases heq
    exact absurd rfl h

omit [DecidableEq B] [DecidableEq D] in
theorem resumed_ofResult {state : CredentialEpochSnapshot B D}
    {outcome : Except String (CredentialEpochFreezeResult B D)}
    (h : ∀ result, outcome = .ok result → MadeFrom result state) :
    Resumed (.snapshot state) (Task.ofResult outcome) := by
  cases outcome with
  | error message => exact resumed_rejected _ message
  | ok result =>
    constructor
    · intro hstage
      cases hstage
    · intro result' heq
      cases heq
      exact ⟨state, rfl, h result rfl⟩
    · intro heq
      cases heq

omit [DecidableEq D] in
theorem resumed_mutationAfterRead (state : CredentialEpochSnapshot B D) :
    Resumed (.snapshot state) (mutationAfterRead dep state) := by
  unfold mutationAfterRead
  split
  · exact resumed_rejected _ _
  · next before hbefore =>
    obtain rfl := readExpectedRegistry_ok hbefore
    split
    · exact resumed_rejected _ _
    · next hopen =>
      constructor
      · intro hstage
        cases hstage
      · intro result heq
        cases heq
      · intro _
        exact ⟨before, rfl, Bool.not_eq_true _ ▸ hopen⟩

theorem resumed_freezeAfterRead (state : CredentialEpochSnapshot B D) :
    Resumed (.snapshot state) (freezeAfterRead dep state) := by
  unfold freezeAfterRead
  split
  · exact resumed_rejected _ _
  · next before hbefore =>
    obtain rfl := readExpectedRegistry_ok hbefore
    split
    · exact resumed_ofResult fun result hresult ↦ alreadyFrozen_ok hresult
    · split
      · exact resumed_rejected _ _
      · exact resumed_running fun heq ↦ by cases heq

theorem resumed_reconcileAfterRead (before : CredentialEpochSnapshot B D) (receipt : Relayer.CanonicalReceipt)
    (attempt : ℕ) (state : CredentialEpochSnapshot B D) :
    Resumed (.snapshot state) (reconcileAfterRead dep before receipt attempt state) := by
  unfold reconcileAfterRead
  split
  · exact resumed_rejected _ _
  · next after hafter =>
    obtain rfl := readExpectedRegistry_ok hafter
    split
    · exact resumed_ofResult fun result hresult ↦ nowFrozen_ok hresult
    · split
      · exact resumed_running fun heq ↦ by cases heq
      · exact resumed_rejected _ _

theorem resume_resumed {frame : Frame B D} {answer : Answer B D} {task : Task B D}
    (h : resume dep frame answer = some task) : Resumed answer task := by
  unfold resume at h
  split at h
  · obtain rfl := Option.some.inj h
    exact resumed_rejected _ _
  · obtain rfl := Option.some.inj h
    exact resumed_mutationAfterRead _
  · obtain rfl := Option.some.inj h
    exact resumed_mutated _
  · obtain rfl := Option.some.inj h
    exact resumed_freezeAfterRead _
  · obtain rfl := Option.some.inj h
    exact resumed_running fun heq ↦ by cases heq
  · split at h
    · obtain rfl := Option.some.inj h
      exact resumed_running fun heq ↦ by cases heq
    · obtain rfl := Option.some.inj h
      exact resumed_rejected _ _
  · obtain rfl := Option.some.inj h
    exact resumed_reconcileAfterRead _ _ _ _
  · obtain rfl := Option.some.inj h
    exact resumed_running fun heq ↦ by cases heq
  · cases h

/-! ## One step -/

/-- What an accepted event does. -/
inductive Effect (dep : Deployment B D) (w : World B D) : Event B D → World B D → Prop where
  | called (call : Call) :
    Effect dep w (.call call) { w.setTask w.chain.asked (.queued call) with chain := w.chain.ask }
  | begun (n : ℕ) (call : Call) (hn : n < w.chain.asked) (htask : w.tasks n = .queued call)
      (hturn : w.chain.Turn w.stage n) : Effect dep w (.begin n) (w.setTask n (.running call.frame))
  | answered (n : ℕ) (reply : Reply) (frame : Frame B D) (w₁ : World B D) (answer : Answer B D)
      (task : Task B D) (htask : w.tasks n = .running frame) (hbeside : Beside dep w w₁)
      (hsnapshot : ∀ state, answer = .snapshot state → ∃ ledger, w₁.blocks[w₁.seen]? = some ledger ∧
        readRegistry dep dep.options.registryContractAddress ledger = some state)
      (hresumed : Resumed answer task) : Effect dep w (.answer n reply) (w₁.setTask n task)
  | beside (e : Event B D) (w' : World B D) (hbeside : Beside dep w w') : Effect dep w e w'

theorem effect_of_step {w w' : World B D} {e : Event B D} (h : step dep w e = .ok w') : Effect dep w e w' := by
  have hsome : stepOption dep w e = some w' := by
    unfold step at h
    split at h
    · next w₁ hw₁ =>
      obtain rfl := Except.ok.inj h
      exact hw₁
    · cases h
  cases e with
  | call call =>
    obtain rfl := Option.some.inj hsome
    exact .called call
  | begin n =>
    simp only [stepOption] at hsome
    split at hsome
    · next call htask =>
      split at hsome
      · next hturn =>
        obtain rfl := Option.some.inj hsome
        exact .begun n call hturn.1 htask hturn.2
      · cases hsome
    · cases hsome
  | answer n reply =>
    simp only [stepOption] at hsome
    split at hsome
    · next frame htask =>
      obtain ⟨⟨w₁, answer⟩, hperform, hsome⟩ := Option.bind_eq_some_iff.mp hsome
      obtain ⟨task, hresume, hsome⟩ := Option.bind_eq_some_iff.mp hsome
      obtain rfl := Option.some.inj hsome
      obtain ⟨hbeside, hsnapshot⟩ := perform_beside hperform
      exact .answered n reply frame w₁ answer task htask hbeside hsnapshot (resume_resumed hresume)
    · cases hsome
  | getStatus position =>
    obtain ⟨⟨w₁, ledger⟩, hread, rfl⟩ := Option.map_eq_some_iff.mp hsome
    exact .beside _ _ (beside_of_read hread).1
  | operationCall n call =>
    simp only [stepOption] at hsome
    split at hsome
    · exact .beside _ _ (beside_of_transact hsome)
    · cases hsome
  | registryCall call => exact .beside _ _ (beside_of_transact hsome)

/-- What a run keeps. -/
structure Knows (dep : Deployment B D) (w : World B D) : Prop where
  blocks : Blocks dep w
  ordered : Ordered w.chain w.stage
  asked : ∀ n, w.stage n ≠ .waiting → n < w.chain.asked
  shown : ∀ n result, w.tasks n = .frozen result → Shown dep w result.reference.frozenRoot

omit [DecidableEq B] [DecidableEq D] in
theorem task_setTask_self (w : World B D) (n : ℕ) (task : Task B D) : (w.setTask n task).tasks n = task := by
  simp [World.setTask]

omit [DecidableEq B] [DecidableEq D] in
theorem task_setTask_of_ne (w : World B D) {m n : ℕ} (h : m ≠ n) (task : Task B D) :
    (w.setTask n task).tasks m = w.tasks m := by
  simp [World.setTask, h]

omit [DecidableEq B] [DecidableEq D] in
theorem stage_setTask (w : World B D) (n : ℕ) (task : Task B D) :
    (w.setTask n task).stage = Function.update w.stage n task.stage := by
  funext m
  by_cases hm : m = n
  · subst hm
    simp [World.stage, World.setTask]
  · simp [World.stage, World.setTask, hm]

omit [DecidableEq B] [DecidableEq D] in
theorem Knows.beside {w w' : World B D} (h : Knows dep w) (hbeside : Beside dep w w') : Knows dep w' := by
  have hstage : w'.stage = w.stage := by
    unfold World.stage
    rw [hbeside.tasks]
  refine ⟨hbeside.kept h.blocks, ?_, ?_, ?_⟩
  · rw [hbeside.chain, hstage]
    exact h.ordered
  · rw [hbeside.chain, hstage]
    exact h.asked
  · intro n result htask
    rw [hbeside.tasks] at htask
    exact (h.shown n result htask).later h.blocks hbeside

omit [DecidableEq B] [DecidableEq D] in
/-- A call of the coordinator goes on when it has begun or when it is its turn. -/
theorem Knows.setTask {w : World B D} {n : ℕ} {task : Task B D} (h : Knows dep w) (hn : n < w.chain.asked)
    (hsettled : w.stage n ≠ .settled) (hbegins : w.stage n ≠ .waiting ∨ w.chain.Turn w.stage n)
    (hshown : ∀ result, task = .frozen result → Shown dep w result.reference.frozenRoot) :
    Knows dep (w.setTask n task) := by
  refine ⟨⟨h.blocks.pairwise, h.blocks.bound, h.blocks.seen⟩, ?_, ?_, ?_⟩
  · rw [stage_setTask]
    apply h.ordered.advance
    · intro m _ hm
      have hne : m ≠ n := fun heq ↦ hsettled (heq ▸ hm)
      rw [Function.update_of_ne hne]
      exact hm
    · intro m _ hm
      by_cases heq : m = n
      · exact heq ▸ hbegins
      · rw [Function.update_of_ne heq] at hm
        exact Or.inl hm
  · intro m hm
    by_cases heq : m = n
    · exact heq ▸ hn
    · rw [stage_setTask, Function.update_of_ne heq] at hm
      exact h.asked m hm
  · intro m result htask
    by_cases heq : m = n
    · subst heq
      exact hshown result ((task_setTask_self w m task).symm.trans htask)
    · exact h.shown m result ((task_setTask_of_ne w heq task).symm.trans htask)

omit [DecidableEq B] [DecidableEq D] in
/-- A result that is made from a snapshot has been shown. -/
theorem shown_of_madeFrom {w : World B D} {answer : Answer B D} {result : CredentialEpochFreezeResult B D}
    (hsnapshot : ∀ state, answer = .snapshot state → ∃ ledger, w.blocks[w.seen]? = some ledger ∧
      readRegistry dep dep.options.registryContractAddress ledger = some state)
    (hmade : ∃ state, answer = .snapshot state ∧ MadeFrom result state) :
    Shown dep w result.reference.frozenRoot := by
  obtain ⟨state, hanswer, hfrozen, hroot, hcurrent⟩ := hmade
  obtain ⟨ledger, hledger, hread⟩ := hsnapshot state hanswer
  obtain ⟨hfrozen', hroot', hcurrent'⟩ := readRegistry_frozen hread
  exact ⟨ledger, hledger, hfrozen'.symm.trans hfrozen, hroot'.symm.trans hroot, hcurrent'.symm.trans hcurrent⟩

theorem knows_step {w w' : World B D} {e : Event B D} (h : Knows dep w) (hok : step dep w e = .ok w') :
    Knows dep w' := by
  cases effect_of_step hok with
  | called call =>
    have hwaiting : ∀ n, (w.setTask w.chain.asked (.queued call)).stage n ≠ .waiting → w.stage n ≠ .waiting := by
      intro n hn
      rw [stage_setTask] at hn
      by_cases heq : n = w.chain.asked
      · subst heq
        rw [Function.update_self] at hn
        exact absurd rfl hn
      · rwa [Function.update_of_ne heq] at hn
    refine ⟨⟨h.blocks.pairwise, h.blocks.bound, h.blocks.seen⟩, ?_, ?_, ?_⟩
    · apply h.ordered.ask
      · intro n hn
        have hne : n ≠ w.chain.asked := Nat.ne_of_lt hn
        exact (congrFun (stage_setTask w _ _) n).trans (Function.update_of_ne hne _ _)
      · exact (congrFun (stage_setTask w _ _) _).trans (Function.update_self _ _ _)
    · intro n hn
      exact (h.asked n (hwaiting n hn)).trans (Nat.lt_succ_self _)
    · intro n result htask
      have hset : (w.setTask w.chain.asked (.queued call)).tasks n = .frozen result := htask
      by_cases heq : n = w.chain.asked
      · subst heq
        cases (task_setTask_self w _ _).symm.trans hset
      · exact h.shown n result ((task_setTask_of_ne w heq _).symm.trans hset)
  | begun n call hn htask hturn =>
    refine h.setTask hn ?_ (Or.inr hturn) fun result heq ↦ ?_
    · unfold World.stage
      rw [htask]
      intro hsettled
      cases hsettled
    · cases heq
  | answered n reply frame w₁ answer task htask hbeside hsnapshot hresumed =>
    have hrunning : w.stage n = .running := by
      unfold World.stage
      rw [htask]
      rfl
    have hrunning' : w₁.stage n = .running := by
      unfold World.stage at hrunning ⊢
      rwa [hbeside.tasks]
    have h₁ := h.beside hbeside
    refine h₁.setTask ?_ ?_ (Or.inl ?_) fun result heq ↦ ?_
    · rw [hbeside.chain]
      exact h.asked n fun hwaiting ↦ by cases hrunning.symm.trans hwaiting
    · intro hsettled
      cases hrunning'.symm.trans hsettled
    · intro hwaiting
      cases hrunning'.symm.trans hwaiting
    · exact shown_of_madeFrom hsnapshot (hresumed.frozen result heq)
  | beside e w' hbeside => exact h.beside hbeside

omit [DecidableEq B] [DecidableEq D] in
theorem knows_start (dep : Deployment B D) : Knows dep (start dep) where
  blocks := {
    pairwise := List.pairwise_singleton _ _
    bound := fun ledger hledger ↦ by
      obtain rfl := List.mem_singleton.mp hledger
      exact extends_refl _
    seen := Nat.one_pos }
  ordered := ordered_empty _
  asked n hn := absurd rfl hn
  shown n result htask := by cases htask

/-! ## Every run -/

/-- The transaction of an event that adds a credential. -/
def addedLeaf (dep : Deployment B D) : Event B D → Option B
  | .operationCall _ (.addCredential _ leaf) =>
    some (credentialLeaf dep.hashing.toHashing dep.registry leaf)
  | .registryCall (.addCredential _ leaf) => some (credentialLeaf dep.hashing.toHashing dep.registry leaf)
  | _ => none

/-- An event starts the operation of a mutation. -/
def StartsOperation (dep : Deployment B D) (e : World B D × Event B D) : Prop :=
  ∃ n, e.1.tasks n ≠ .running .operation ∧ (apply (step dep) e.1 e.2).tasks n = .running .operation

/-- No voter is frozen out. -/
structure NeverFreezesOut (dep : Deployment B D) (h : List (World B D × Event B D)) (w : World B D) : Prop where
  exclusive : ∀ m n, w.stage m = .running → w.stage n = .running → m = n
  root : ∀ n result, w.tasks n = .frozen result →
    w.registry.frozen = true ∧ result.reference.frozenRoot = w.registry.frozenRoot
  complete : ∀ n result, w.tasks n = .frozen result → ∀ e ∈ h, ∀ leaf ∈ addedLeaf dep e.2,
    Tree.Opens dep.hashing.tree 16 leaf result.reference.frozenRoot
  final : ∀ e ∈ h, StartsOperation dep e → ∀ n result, e.1.tasks n ≠ .frozen result

theorem leaf_of_transact {w w' : World B D} {issuerSecret : B} {leaf : LeafWitness B}
    (h : w.transact dep (.addCredential issuerSecret leaf) = some w') :
    credentialLeaf dep.hashing.toHashing dep.registry leaf ∈ w'.registry.credentials.leaves := by
  unfold World.transact at h
  split at h
  · next ledger hledger =>
    obtain rfl := Option.some.inj h
    obtain ⟨_, _, hleaves, _⟩ := addCredential_ok hledger
    have hregistry : (w.extend ledger).registry.credentials.leaves = ledger.credentials.leaves := rfl
    rw [hregistry, hleaves]
    exact List.mem_append_right _ List.mem_cons_self
  · cases h

theorem leaf_of_step {w w' : World B D} {e : Event B D} (hok : step dep w e = .ok w') {leaf : B}
    (hleaf : leaf ∈ addedLeaf dep e) : leaf ∈ w'.registry.credentials.leaves := by
  have hsome : stepOption dep w e = some w' := by
    unfold step at hok
    split at hok
    · next w₁ hw₁ =>
      obtain rfl := Except.ok.inj hok
      exact hw₁
    · cases hok
  unfold addedLeaf at hleaf
  split at hleaf
  · next n issuerSecret witness =>
    obtain rfl := Option.some.inj hleaf
    simp only [stepOption] at hsome
    split at hsome
    · exact leaf_of_transact hsome
    · cases hsome
  · obtain rfl := Option.some.inj hleaf
    exact leaf_of_transact hsome
  · cases hleaf

theorem registry_of_step {w w' : World B D} {e : Event B D} (hok : step dep w e = .ok w') :
    Extends dep.hashing.toHashing w.registry w'.registry := by
  cases effect_of_step hok with
  | called call => exact extends_refl _
  | begun n call hn htask hturn => exact extends_refl _
  | answered n reply frame w₁ answer task htask hbeside hsnapshot hresumed => exact hbeside.registry
  | beside e w' hbeside => exact hbeside.registry

/-- An operation starts only after a reading of a registry that is not frozen. -/
theorem not_frozen_of_starts {w w' : World B D} {e : Event B D} (h : Knows dep w)
    (hok : step dep w e = .ok w') (hstarts : StartsOperation dep (w, e)) (n : ℕ)
    (result : CredentialEpochFreezeResult B D) : w.tasks n ≠ .frozen result := by
  intro hfrozen
  obtain ⟨m, hnot, hoperation⟩ := hstarts
  rw [apply_of_ok hok] at hoperation
  -- Only the task of the event may have changed.
  have hchanged : ∀ {w₁ : World B D} {k : ℕ} {task : Task B D}, w₁.tasks = w.tasks →
      (w₁.setTask k task).tasks m = .running .operation → task = .running .operation := by
    intro w₁ k task htasks hrunning
    by_cases heq : m = k
    · subst heq
      exact (task_setTask_self w₁ m task).symm.trans hrunning
    · rw [← htasks] at hnot
      exact absurd ((task_setTask_of_ne w₁ heq task).symm.trans hrunning) hnot
  cases effect_of_step hok with
  | called call => cases hchanged rfl hoperation
  | begun k call hk htask hturn =>
    have hframe := hchanged rfl hoperation
    cases call <;> cases hframe
  | answered k reply frame w₁ answer task htask hbeside hsnapshot hresumed =>
    have heq := hchanged hbeside.tasks hoperation
    obtain ⟨state, hanswer, hopen⟩ := hresumed.operation heq
    obtain ⟨ledger, hledger, hread⟩ := hsnapshot state hanswer
    obtain ⟨shown, hshown, hshownFrozen, _⟩ := (h.shown n result hfrozen).later h.blocks hbeside
    obtain rfl := Option.some.inj (hledger.symm.trans hshown)
    rw [← (readRegistry_frozen hread).1, hopen] at hshownFrozen
    cases hshownFrozen
  | beside e w' hbeside =>
    rw [hbeside.tasks] at hoperation
    exact hnot hoperation

/-- Whatever the indexer shows and whichever calls fail, no voter is frozen out. -/
theorem coordinator_never_freezes_out (dep : Deployment B D) (es : List (Event B D)) :
    NeverFreezesOut dep (accepted (step dep) (start dep) es) (run (step dep) (start dep) es) := by
  have hrun := run_history_unconditional (f := step dep)
    (I := fun h w ↦ Knows dep w ∧
      (∀ e ∈ h, ∀ leaf ∈ addedLeaf dep e.2, leaf ∈ w.registry.credentials.leaves) ∧
      ∀ e ∈ h, StartsOperation dep e → ∀ n result, e.1.tasks n ≠ .frozen result)
    (fun h w e w' ⟨hknows, hleaves, hfinal⟩ hok ↦ by
      refine ⟨knows_step hknows hok, fun e' he' leaf hleaf ↦ ?_, fun e' he' hstarts ↦ ?_⟩
      · rcases List.mem_append.mp he' with hold | hnew
        · exact (registry_of_step hok).leaves.subset (hleaves e' hold leaf hleaf)
        · obtain rfl := List.mem_singleton.mp hnew
          exact leaf_of_step hok hleaf
      · rcases List.mem_append.mp he' with hold | hnew
        · exact hfinal e' hold hstarts
        · obtain rfl := List.mem_singleton.mp hnew
          exact not_frozen_of_starts hknows hok hstarts)
    ⟨knows_start dep, fun e he ↦ (List.not_mem_nil he).elim, fun e he ↦ (List.not_mem_nil he).elim⟩ es
  generalize run (step dep) (start dep) es = w at hrun
  obtain ⟨hknows, hleaves, hfinal⟩ := hrun
  refine ⟨fun m n hm hn ↦ ?_, fun n result htask ↦ ?_, fun n result htask e he leaf hleaf ↦ ?_, hfinal⟩
  · have hbegun : ∀ k, w.stage k = .running → k < w.chain.asked := fun k hk ↦
      hknows.asked k fun hwaiting ↦ by cases hk.symm.trans hwaiting
    exact hknows.ordered.running_unique (hbegun m hm) (hbegun n hn) hm hn
  · obtain ⟨hfrozen, hroot, _⟩ := (hknows.shown n result htask).final hknows.blocks
    exact ⟨hfrozen, hroot.symm⟩
  · obtain ⟨_, _, hcurrent⟩ := (hknows.shown n result htask).final hknows.blocks
    obtain ⟨path, _, hpath, hroot⟩ := exists_findPathForLeaf dep.hashing.tree
      w.registry.credentials.length_le (hleaves e he leaf hleaf)
    exact ⟨path, hpath, hroot.trans hcurrent⟩

/-! ## A sample run -/

def sampleDeployment : Deployment Term Digest where
  hashing := symbolicBytes
  registry := sampleSealed
  options := {
    registryContractAddress := sampleAddress '1'
    registryId := .uint 6
    issuerId := .uint 4
    credentialEpoch := 7
    issuerSecret := .uint 1
    reconciliationAttempts := 8
    reconciliationAttempts_pos := by decide }
  asContractAddress := some

def sampleReceipt : Relayer.CanonicalReceipt where
  action := .credential
  network := Js.js "preview"
  transactionId := Js.js "tx"
  transactionHash := Js.js "hash"
  contractAddress := sampleAddress '1'
  circuit := Js.js "freeze"
  blockHeight := 1
  blockHash := Js.js "block"
  blockTimestamp := Js.js "now"
  explorerUrl := none

/-- A credential is enrolled while a freeze waits, and the indexer shows the frozen registry late. -/
def sampleEvents : List (Event Term Digest) :=
  [.call .runEnrollmentMutation, .call .closeAndFreeze, .begin 0, .begin 1, .answer 0 (.reads 0),
    .operationCall 0 (.addCredential (.uint 1) (sampleLeaf (.uint 10))), .answer 0 .done, .begin 1,
    .answer 1 (.reads 1), .answer 1 .done, .answer 1 (.receipt sampleReceipt), .answer 1 (.reads 1),
    .answer 1 .done, .answer 1 (.reads 2)]

/-- How a call has ended. -/
def Task.outcome {B D : Type} : Task B D → Option Outcome
  | .frozen result => some result.outcome
  | _ => none

example : ((run (step sampleDeployment) (start sampleDeployment) sampleEvents).tasks 1).outcome =
    some .frozen := by
  decide +kernel

end MidnightReferendum.CredentialEpochCoordinator
