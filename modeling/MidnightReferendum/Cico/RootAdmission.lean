import MidnightReferendum.Cico.RootPublisher
import MidnightReferendum.Registry.AppendOnly
import MidnightReferendum.ReferendumV2.Roots

/-!
# The publisher on a chain

The publisher runs beside the registry and the referenda. Between two pieces of a cycle anybody may
send transactions and the block time goes on. A call of the publisher that sends a transaction takes
effect when it is answered; it may also fail before the chain has seen the transaction, or lose the
receipt of one that the chain has accepted. Calls of `publishOnce`, by the timer or by others, queue
up and run one after the other.
-/

namespace MidnightReferendum.CredentialRootPublisher

open MidnightReferendum.Compact Execution

/-- The contracts that the publisher is configured for. -/
structure Deployment (B D : Type) where
  hashing : Hashing B D
  registry : CredentialRegistryV1.Sealed B
  referendum : String → ReferendumV2.Sealed B D
  options : Options B

/-- The chain and the publisher. The last two fields record the cycles: how many have begun, and the
publisher as the last of them found it. -/
structure World {B D : Type} (H : Hashing B D) where
  blockTime : UInt64
  registry : CredentialRegistryV1.Ledger B D
  referenda : String → ReferendumV2.Ledger H
  publisher : Publisher D
  running : Option (Frame B D)
  queued : ℕ
  cycles : ℕ
  found : Publisher D

/-- How an awaited call ends. The readers may report anything. -/
inductive Reply (D : Type) where
  | registry (state : RegistryState D)
  | referendum (state : ReferendumState)
  | succeeds (transactionId : String)
  | loses (message : String)
  | fails (message : String)

inductive Event (B D : Type) where
  | publishOnce
  | begin
  | answer (now : ℕ → ℤ) (reply : Reply D)
  | registryCall (call : CredentialRegistryV1.Call B D)
  | referendumCall (contractAddress : String) (call : ReferendumV2.Call B D)
  | block (time : UInt64)

variable {B D : Type} [DecidableEq B] [DecidableEq D]

/-- A transaction of the publisher, where `outcome` is what the chain makes of it. -/
def send {σ : Type} (outcome : Except String σ) (s : σ) : Reply D → Option (σ × Answer D)
  | .succeeds transactionId =>
    match outcome with
    | .ok s' => some (s', .receipt transactionId)
    | .error message => some (s, .failed message)
  | .loses message =>
    match outcome with
    | .ok s' => some (s', .failed message)
    | .error _ => some (s, .failed message)
  | .fails message => some (s, .failed message)
  | _ => none

/-- `join` and the reads change nothing on the chain. -/
def look : Reply D → Option (Answer D)
  | .registry state => some (.registry state)
  | .referendum state => some (.referendum state)
  | .succeeds _ => some .joined
  | .loses message => some (.failed message)
  | .fails message => some (.failed message)

variable (dep : Deployment B D)

/-- The transaction of `publishCredentialRoot` in the current block. -/
def publishTx (w : World dep.hashing) (target : ReferendumTarget B) (root : D) :
    ReferendumV2.Tx B D :=
  ⟨w.blockTime, .publishCredentialRoot root target.rootPublisherSecret⟩

/-- What the ledger of a referendum makes of `publishCredentialRoot`. -/
def publishOutcome (w : World dep.hashing) (target : ReferendumTarget B) (root : D) :
    Except String (ReferendumV2.Ledger dep.hashing) :=
  ReferendumV2.step dep.hashing (dep.referendum target.contractAddress)
    (w.referenda target.contractAddress) (publishTx dep w target root)

/-- The call for which a cycle waits is carried out and answered. -/
def perform (w : World dep.hashing) (frame : Frame B D) (reply : Reply D) :
    Option (World dep.hashing × Answer D) :=
  match frame with
  | .attest .submit batch =>
    (send (CredentialRegistryV1.step dep.hashing dep.registry w.registry
      (.attestCurrentRoot batch.registry.currentRoot)) w.registry reply).map
        fun r ↦ ({ w with registry := r.1 }, r.2)
  | .publishToReferendum .submit progress target _ =>
    (send (publishOutcome dep w target progress.batch.registry.currentRoot)
      (w.referenda target.contractAddress) reply).map
        fun r ↦ ({ w with referenda := Function.update w.referenda target.contractAddress r.1 }, r.2)
  | _ => (look reply).map fun answer ↦ (w, answer)

/-- The publisher after a piece of a cycle. -/
def World.settle {H : Hashing B D} (w : World H) (r : Publisher D × Next B D) : World H :=
  { w with publisher := (cycle r).1, running := (cycle r).2 }

def step (w : World dep.hashing) : Event B D → Except Unit (World dep.hashing)
  | .publishOnce => .ok { w with queued := w.queued + 1 }
  | .begin =>
    match w.running, w.queued with
    | none, queued + 1 =>
      .ok (World.settle { w with queued, cycles := w.cycles + 1, found := w.publisher }
        (w.publisher, runCycle dep.options))
    | _, _ => .error ()
  | .answer now reply =>
    match w.running with
    | none => .error ()
    | some frame =>
      match perform dep w frame reply with
      | none => .error ()
      | some (w', answer) =>
        match resume dep.options w'.publisher now frame answer with
        | none => .error ()
        | some r => .ok (w'.settle r)
  | .registryCall call =>
    match CredentialRegistryV1.step dep.hashing dep.registry w.registry call with
    | .ok registry => .ok { w with registry }
    | .error _ => .error ()
  | .referendumCall contractAddress call =>
    match ReferendumV2.step dep.hashing (dep.referendum contractAddress)
      (w.referenda contractAddress) ⟨w.blockTime, call⟩ with
    | .ok ledger =>
      .ok { w with referenda := Function.update w.referenda contractAddress ledger }
    | .error _ => .error ()
  | .block time => if w.blockTime ≤ time then .ok { w with blockTime := time } else .error ()

/-- A publisher that has just been constructed, beside any contracts. -/
def start (blockTime : UInt64) (registry : CredentialRegistryV1.Ledger B D)
    (referenda : String → ReferendumV2.Ledger dep.hashing) : World dep.hashing where
  blockTime := blockTime
  registry := registry
  referenda := referenda
  publisher := {}
  running := none
  queued := 0
  cycles := 0
  found := {}

/-- The world after a list of events. -/
abbrev runEvents (w : World dep.hashing) (es : List (Event B D)) : World dep.hashing :=
  run (step dep) w es

variable {dep}

/-! ## What an event does -/

/-- The publisher is where it was. -/
structure Beside {H : Hashing B D} (w w' : World H) : Prop where
  publisher : w'.publisher = w.publisher
  running : w'.running = w.running
  cycles : w'.cycles = w.cycles
  found : w'.found = w.found

inductive Effect (w : World dep.hashing) : Event B D → World dep.hashing → Prop
  | begun (queued : ℕ) (running : w.running = none) :
    Effect w .begin (World.settle { w with queued, cycles := w.cycles + 1, found := w.publisher }
      (w.publisher, runCycle dep.options))
  | answered {now : ℕ → ℤ} {reply : Reply D} {frame : Frame B D} {w₁ : World dep.hashing}
      {answer : Answer D} {r : Publisher D × Next B D} (running : w.running = some frame)
      (performed : perform dep w frame reply = some (w₁, answer)) (besides : Beside w w₁)
      (resumed : Resumed dep.options w.publisher now frame answer r) :
    Effect w (.answer now reply) (w₁.settle r)
  | beside {e : Event B D} {w' : World dep.hashing} (other : ∀ now reply, e ≠ .answer now reply)
      (besides : Beside w w') : Effect w e w'

theorem perform_beside {w w₁ : World dep.hashing} {frame : Frame B D} {reply : Reply D}
    {answer : Answer D} (h : perform dep w frame reply = some (w₁, answer)) : Beside w w₁ := by
  unfold perform at h
  split at h
  all_goals
    obtain ⟨r, _, hr⟩ := Option.map_eq_some_iff.mp h
    obtain rfl := (Prod.ext_iff.mp hr).1
    exact ⟨rfl, rfl, rfl, rfl⟩

theorem step_answer {w w' : World dep.hashing} {now : ℕ → ℤ} {reply : Reply D}
    (h : step dep w (.answer now reply) = .ok w') : Effect w (.answer now reply) w' := by
  simp only [step] at h
  split at h
  · cases h
  · next frame hrunning =>
    split at h
    · cases h
    · next w₁ answer hperform =>
      split at h
      · cases h
      · next r hresume =>
        obtain rfl := Except.ok.inj h
        have hbeside := perform_beside hperform
        rw [hbeside.publisher] at hresume
        exact .answered hrunning hperform hbeside (resumed_of_resume hresume)

theorem step_begin {w w' : World dep.hashing} (h : step dep w .begin = .ok w') :
    Effect w .begin w' := by
  simp only [step] at h
  split at h
  · next queued hrunning hqueued =>
    obtain rfl := Except.ok.inj h
    exact .begun queued hrunning
  · cases h

theorem effect_of_step {w w' : World dep.hashing} {e : Event B D} (h : step dep w e = .ok w') :
    Effect w e w' := by
  cases e with
  | answer now reply => exact step_answer h
  | begin => exact step_begin h
  | publishOnce =>
    obtain rfl := Except.ok.inj h
    exact .beside (by simp) ⟨rfl, rfl, rfl, rfl⟩
  | registryCall call =>
    simp only [step] at h
    split at h
    · obtain rfl := Except.ok.inj h
      exact .beside (by simp) ⟨rfl, rfl, rfl, rfl⟩
    · cases h
  | referendumCall contractAddress call =>
    simp only [step] at h
    split at h
    · obtain rfl := Except.ok.inj h
      exact .beside (by simp) ⟨rfl, rfl, rfl, rfl⟩
    · cases h
  | block time =>
    simp only [step] at h
    split at h
    · obtain rfl := Except.ok.inj h
      exact .beside (by simp) ⟨rfl, rfl, rfl, rfl⟩
    · cases h

/-- An attestation changes nothing, and its receipt shows that the root was current. -/
theorem perform_attest {w w₁ : World dep.hashing} {call : Call} {batch : Batch D} {reply : Reply D}
    {answer : Answer D} (h : perform dep w (.attest call batch) reply = some (w₁, answer)) :
    w₁ = w ∧ ∀ transactionId, answer = .receipt transactionId →
      reply = .succeeds transactionId ∧
        CredentialRegistryV1.currentRoot dep.hashing w.registry = batch.registry.currentRoot := by
  cases call with
  | join =>
    obtain ⟨answer', hlook, hr⟩ := Option.map_eq_some_iff.mp h
    obtain ⟨rfl, rfl⟩ := Prod.ext_iff.mp hr
    refine ⟨rfl, fun transactionId hreceipt ↦ ?_⟩
    cases reply <;> cases hlook <;> cases hreceipt
  | submit =>
    obtain ⟨⟨registry, answer'⟩, hsend, hr⟩ := Option.map_eq_some_iff.mp h
    obtain ⟨rfl, rfl⟩ := Prod.ext_iff.mp hr
    unfold send at hsend
    split at hsend
    · split at hsend
      · next hok =>
        obtain ⟨hroot, rfl⟩ := CredentialRegistryV1.attestCurrentRoot_ok.mp hok
        cases hsend
        refine ⟨rfl, fun transactionId hreceipt ↦ ?_⟩
        cases hreceipt
        exact ⟨rfl, hroot⟩
      · cases hsend
        exact ⟨rfl, by simp⟩
    · split at hsend
      · next hok =>
        obtain ⟨_, rfl⟩ := CredentialRegistryV1.attestCurrentRoot_ok.mp hok
        cases hsend
        exact ⟨rfl, by simp⟩
      · cases hsend
        exact ⟨rfl, by simp⟩
    · cases hsend
      exact ⟨rfl, by simp⟩
    · cases hsend

/-! ## A concrete deployment -/

/-- A publisher for some addresses, each with the root publisher secret of the sample referendum. -/
def sampleDeployment (minBatchSize : ℕ) (minBatchSize_pos : 1 ≤ minBatchSize)
    (addresses : List String) : Deployment Term Digest where
  hashing := symbolic
  registry := CredentialRegistryV1.sampleSealed
  referendum _ := ReferendumV2.sampleSealed
  options := {
    referenda := addresses.map fun address ↦ ⟨address, .uint 2⟩
    minBatchSize := minBatchSize
    maxWaitMs := 10000
    minBatchSize_pos := minBatchSize_pos }

theorem batch_of_one : 1 ≤ 1 := le_rfl

theorem batch_of_two : 1 ≤ 2 := one_le_two

theorem batch_of_sixteen : 1 ≤ 16 := Nat.le_add_left 1 15

/-- The next addition to the sample registry. -/
def sampleAdd (n : ℕ) : CredentialRegistryV1.Call Term Digest :=
  .addCredential (.uint 1) (CredentialRegistryV1.sampleLeaf (.uint n))

/-- The sample registry with some credentials. -/
def sampleRegistry (count : ℕ) : CredentialRegistryV1.Ledger Term Digest :=
  CredentialRegistryV1.sampleLedger ((List.range count).map sampleAdd)

/-- What a reader reports of the sample registry. -/
def sampleReading (count : ℕ) : RegistryState Digest where
  currentRoot := CredentialRegistryV1.currentRoot symbolic (sampleRegistry count)
  credentialCount := count

/-- The call is answered when the clock shows `seconds`. -/
def sampleAnswer (seconds : ℤ) (reply : Reply Digest) : Event Term Digest :=
  .answer (fun _ ↦ 1000 * seconds) reply

end MidnightReferendum.CredentialRootPublisher
