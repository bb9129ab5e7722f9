import MidnightReferendum.Cico.Issuance
import MidnightReferendum.Cico.RootPublisher
import MidnightReferendum.Systems.Execution

/-!
# The shared private states of issuer and publisher

`server.ts` gives the issuer, the epoch coordinator and the root publisher one registry executor and,
through it, one private state provider. The provider has a single scope. A join sets the scope and then
stores a state under it, and a later call proves with the state that it finds under the scope of that
moment. The coordinator runs its mutations one after the other and so does the publisher its cycles,
but nothing orders a mutation and a cycle.

The publisher is the one of the module on its cycles; here only its calls matter. A mutation is an
issuance or the freeze.
-/

namespace MidnightReferendum.Cico

open Js Execution CredentialRootPublisher

/-! ## The provider -/

/-- `ReferendumV2PrivateState`, as the publisher makes it -/
structure ReferendumPrivateState where
  role : String
  rootPublisherSecret : Bytes32
  deriving DecidableEq

def rootPublisherPrivateState (rootPublisherSecret : Bytes32) : ReferendumPrivateState where
  role := "organizer"
  rootPublisherSecret := rootPublisherSecret

inductive PrivateState where
  | registry (state : RegistryPrivateState)
  | referendum (state : ReferendumPrivateState)
  deriving DecidableEq

/-- `inMemoryPrivateStateProvider` -/
structure PrivateStateProvider where
  states : String → Option PrivateState := fun _ ↦ none
  contractScope : String := "unbound"

namespace PrivateStateProvider

def stateKey (p : PrivateStateProvider) (id : String) : String := p.contractScope ++ ":" ++ id

def setContractAddress (p : PrivateStateProvider) (address : String) : PrivateStateProvider :=
  { p with contractScope := address }

def set (p : PrivateStateProvider) (id : String) (state : PrivateState) : PrivateStateProvider :=
  { p with states := Function.update p.states (p.stateKey id) (some state) }

def get (p : PrivateStateProvider) (id : String) : Option PrivateState := p.states (p.stateKey id)

@[simp]
theorem contractScope_set (p : PrivateStateProvider) (id : String) (state : PrivateState) :
    (p.set id state).contractScope = p.contractScope := rfl

@[simp]
theorem get_set (p : PrivateStateProvider) (id : String) (state : PrivateState) :
    (p.set id state).get id = some state := by
  simp [get, set, stateKey]

end PrivateStateProvider

/-! ## Calls -/

/-- `CREDENTIAL_REGISTRY_V1_PRIVATE_STATE_ID` -/
def registryStateId : String := "credentialRegistryV1PrivateState"

/-- `REFERENDUM_V2_PRIVATE_STATE_ID` -/
def referendumStateId : String := "referendumV2PrivateState"

/-- What the server is configured with. -/
structure Wiring where
  registryContractAddress : String
  issuerSecret : Bytes32
  publisher : Options Bytes32

/-- A contract that is joined with a private state. -/
structure Join where
  contractAddress : String
  privateStateId : String
  initialPrivateState : PrivateState

/-- A call that is proved with a private state. -/
inductive ProvedCall where
  | addCredential (privateState : RegistryPrivateState)
  | freeze
  | attestCurrentRoot
  | publishCredentialRoot (target : ReferendumTarget Bytes32)
  deriving DecidableEq

/-- How far a call has come: its join has set the scope, and has stored the state too, and the call is
proved or has found no state. -/
inductive Stage where
  | idle
  | bound
  | stored
  | proved
  | refused
  deriving DecidableEq

/-- The call relies on what its own join has written. -/
def Stage.critical : Stage → Bool
  | .bound => true
  | .stored => true
  | _ => false

/-- A mutation of the registry, which the coordinator has queued. -/
inductive Mutation where
  | issue (privateState : RegistryPrivateState)
  | freeze

/-- Where a mutation is: it reads the registry, an issuance then claims its evidence, and it joins the
registry and calls the circuit. -/
inductive MutationFrame where
  | readExpectedRegistry (mutation : Mutation)
  | claim (mutation : Mutation)
  | mutate (mutation : Mutation)

variable (w : Wiring)

def registryJoin (state : RegistryPrivateState) : Join where
  contractAddress := w.registryContractAddress
  privateStateId := registryStateId
  initialPrivateState := .registry state

def referendumJoin (target : ReferendumTarget Bytes32) : Join where
  contractAddress := target.contractAddress
  privateStateId := referendumStateId
  initialPrivateState := .referendum (rootPublisherPrivateState target.rootPublisherSecret)

/-- The join that a call is to follow. -/
def ProvedCall.join : ProvedCall → Join
  | .addCredential privateState => registryJoin w privateState
  | .freeze => registryJoin w (freezePrivateState w.issuerSecret)
  | .attestCurrentRoot => registryJoin w attestationPrivateState
  | .publishCredentialRoot target => referendumJoin target

/-- The attestation has no witnesses, so any private state will do for it. -/
def ProvedCall.binding : ProvedCall → Bool
  | .attestCurrentRoot => false
  | _ => true

def Mutation.call : Mutation → ProvedCall
  | .issue privateState => .addCredential privateState
  | .freeze => .freeze

/-- The call to which a frame of the publisher belongs, and whether it still has to join. -/
def frameCall {D : Type} : Frame Bytes32 D → Option (ProvedCall × Call)
  | .attest call _ => some (.attestCurrentRoot, call)
  | .publishToReferendum call _ target _ => some (.publishCredentialRoot target, call)
  | _ => none

/-! ## Runs -/

/-- A call that was to be proved, with the scope at that moment and the private state found under it. -/
structure Proof where
  call : ProvedCall
  scope : String
  found : Option PrivateState
  deriving DecidableEq

/-- The server. The stages belong to the running mutation and to the running cycle. -/
structure Server (D : Type) where
  provider : PrivateStateProvider := {}
  mutations : List Mutation := []
  mutation : Option MutationFrame := none
  mutationStage : Stage := .idle
  publisher : Publisher D := {}
  queued : ℕ := 0
  cycle : Option (Frame Bytes32 D) := none
  cycleStage : Stage := .idle
  proofs : List Proof := []

inductive ServerEvent (D : Type) where
  /-- `runEnrollmentMutation` or `closeAndFreeze` is called -/
  | mutate (mutation : Mutation)
  /-- the next step of the mutation, which may also begin the next one -/
  | mutationGoesOn
  /-- the awaited call of the mutation throws, or the mutation is over -/
  | mutationEnds
  | publishOnce
  | beginCycle
  /-- the next step of the awaited call of the cycle -/
  | cycleGoesOn
  /-- the awaited call of the cycle is answered -/
  | cycleAnswer (now : ℕ → ℤ) (answer : Answer D)

variable {w} {D : Type}

/-- The next step of a join or, after it, of the call: the provider, the stage and the proofs. -/
def callStep (provider : PrivateStateProvider) (proofs : List Proof) (call : ProvedCall) (join : Join) :
    Stage → Bool → Option (PrivateStateProvider × Stage × List Proof)
  | .idle, true => some (provider.setContractAddress join.contractAddress, .bound, proofs)
  | .bound, true =>
    some (provider.set join.privateStateId join.initialPrivateState, .stored, proofs)
  | .idle, false | .stored, false =>
    some (provider, if (provider.get join.privateStateId).isSome then .proved else .refused,
      proofs ++ [⟨call, provider.contractScope, provider.get join.privateStateId⟩])
  | _, _ => none

/-- The stage in which an awaited call can be answered so. -/
def answerStage : Answer D → Option Stage
  | .joined => some .stored
  | .receipt _ => some .proved
  | _ => none

variable (w) [DecidableEq D]

def serverStep (s : Server D) : ServerEvent D → Except Unit (Server D)
  | .mutate mutation => .ok { s with mutations := s.mutations ++ [mutation] }
  | .mutationGoesOn =>
    match s.mutation, s.mutations with
    | none, mutation :: mutations =>
      .ok { s with mutations, mutation := some (.readExpectedRegistry mutation) }
    | none, [] => .error ()
    | some (.readExpectedRegistry (.issue privateState)), _ =>
      .ok { s with mutation := some (.claim (.issue privateState)) }
    | some (.readExpectedRegistry .freeze), _ => .ok { s with mutation := some (.mutate .freeze) }
    | some (.claim mutation), _ => .ok { s with mutation := some (.mutate mutation) }
    | some (.mutate mutation), _ =>
      -- The join is over when its state is stored; the call follows it at once.
      match callStep s.provider s.proofs mutation.call (mutation.call.join w) s.mutationStage
        (s.mutationStage ≠ .stored) with
      | some (provider, mutationStage, proofs) => .ok { s with provider, mutationStage, proofs }
      | none => .error ()
  | .mutationEnds => .ok { s with mutation := none, mutationStage := .idle }
  | .publishOnce => .ok { s with queued := s.queued + 1 }
  | .beginCycle =>
    match s.cycle, s.queued with
    | none, queued + 1 =>
      let r := CredentialRootPublisher.cycle (s.publisher, runCycle w.publisher)
      .ok { s with queued, publisher := r.1, cycle := r.2, cycleStage := .idle }
    | _, _ => .error ()
  | .cycleGoesOn =>
    match s.cycle.bind frameCall with
    | none => .error ()
    | some (call, stage) =>
      match callStep s.provider s.proofs call (call.join w) s.cycleStage (stage = .join) with
      | some (provider, cycleStage, proofs) => .ok { s with provider, cycleStage, proofs }
      | none => .error ()
  | .cycleAnswer now answer =>
    match s.cycle with
    | none => .error ()
    | some frame =>
      match resume w.publisher s.publisher now frame answer with
      | none => .error ()
      | some r =>
        if (answerStage answer).all (· = s.cycleStage) then
          .ok { s with
            publisher := (CredentialRootPublisher.cycle r).1
            cycle := (CredentialRootPublisher.cycle r).2
            cycleStage := if answerStage answer = some .stored then .stored else .idle }
        else .error ()

/-- The server after a list of events. -/
abbrev runServer (s : Server D) (es : List (ServerEvent D)) : Server D := run (serverStep w) s es

/-- The call is proved with the private state of its own join, under its own contract. -/
def Proof.Correct (p : Proof) : Prop :=
  p.call.binding = true → p.scope = (p.call.join w).contractAddress ∧
    p.found = some (p.call.join w).initialPrivateState

/-- A publication stands between its join and its call. -/
def Server.publishing (s : Server D) : Bool :=
  s.cycleStage.critical && (s.cycle.bind frameCall).any fun call ↦ call.1.binding

/-- No join of one component comes between the join of the other one and its call, and a publication
follows a join of its own. -/
def Undisturbed (e : Server D × ServerEvent D) : Prop :=
  match e.2, e.1.mutation, e.1.cycle.bind frameCall with
  | .mutationGoesOn, some (.mutate _), _ => e.1.mutationStage ≠ .stored → e.1.publishing = false
  | .cycleGoesOn, _, some (_, .join) => e.1.mutationStage.critical = false
  | .cycleGoesOn, _, some (call, .submit) => call.binding = true → e.1.cycleStage = .stored
  | _, _, _ => True

instance (e : Server D × ServerEvent D) : Decidable (Undisturbed e) := by
  unfold Undisturbed
  split <;> infer_instance

/-! ## One call -/

/-- What the join of a call has written is in place. -/
structure Holds (provider : PrivateStateProvider) (join : Join) (stage : Stage) : Prop where
  scope : stage.critical = true → provider.contractScope = join.contractAddress
  state : stage = .stored → provider.get join.privateStateId = some join.initialPrivateState

theorem Holds.of_not_critical {provider : PrivateStateProvider} {join : Join} {stage : Stage}
    (h : stage.critical = false) : Holds provider join stage where
  scope hcritical := by
    rw [h] at hcritical
    cases hcritical
  state hstored := by
    rw [hstored] at h
    cases h

/-- A step of a call is one of its join, or the call itself. -/
theorem callStep_cases {provider provider' : PrivateStateProvider} {proofs proofs' : List Proof}
    {call : ProvedCall} {join : Join} {stage stage' : Stage} {joining : Bool}
    (h : callStep provider proofs call join stage joining = some (provider', stage', proofs')) :
    (joining = true ∧ (Holds provider join stage → Holds provider' join stage') ∧ proofs' = proofs) ∨
      (joining = false ∧ provider' = provider ∧ stage'.critical = false ∧
        proofs' = proofs ++ [⟨call, provider.contractScope, provider.get join.privateStateId⟩]) := by
  unfold callStep at h
  split at h
  · cases h
    exact Or.inl ⟨rfl, fun _ ↦ ⟨fun _ ↦ rfl, fun h ↦ by cases h⟩, rfl⟩
  · cases h
    refine Or.inl ⟨rfl, fun hholds ↦ ⟨fun _ ↦ hholds.scope rfl, fun _ ↦ ?_⟩, rfl⟩
    exact PrivateStateProvider.get_set _ _ _
  · cases h
    refine Or.inr ⟨rfl, rfl, ?_, rfl⟩
    split <;> rfl
  · cases h
    refine Or.inr ⟨rfl, rfl, ?_, rfl⟩
    split <;> rfl
  · cases h

/-! ## The server -/

/-- What a mutation or a publication that is between its join and its call has written is in place, and
all calls so far were correct. -/
structure Exclusive (s : Server D) : Prop where
  stage : s.mutationStage ≠ .idle → ∃ mutation, s.mutation = some (.mutate mutation)
  mutation : ∀ mutation, s.mutation = some (.mutate mutation) →
    Holds s.provider (mutation.call.join w) s.mutationStage
  cycle : ∀ call stage, s.cycle.bind frameCall = some (call, stage) → call.binding = true →
    Holds s.provider (call.join w) s.cycleStage
  proofs : ∀ p ∈ s.proofs, p.Correct w

variable {w}

omit [DecidableEq D] in
theorem mutationGoesOn_exclusive {s : Server D} {mutation : Mutation}
    (hs : Exclusive w s) (hmutation : s.mutation = some (.mutate mutation))
    (hsafe : Undisturbed (s, .mutationGoesOn)) {provider : PrivateStateProvider}
    {stage : Stage} {proofs : List Proof}
    (h : callStep s.provider s.proofs mutation.call (mutation.call.join w) s.mutationStage
      (s.mutationStage ≠ .stored) = some (provider, stage, proofs)) :
    Exclusive w { s with provider, mutationStage := stage, proofs } := by
  have hholds := hs.mutation mutation hmutation
  rcases callStep_cases h with ⟨hjoining, hnew, rfl⟩ | ⟨hcalling, rfl, hcritical, rfl⟩
  · constructor
    · exact fun _ ↦ ⟨mutation, hmutation⟩
    · intro mutation' hmutation'
      cases hmutation.symm.trans hmutation'
      exact hnew hholds
    · intro call stage' hcall hbinding
      apply Holds.of_not_critical
      have hnone : s.publishing = false := by
        simp only [Undisturbed, hmutation] at hsafe
        exact hsafe (by simpa using hjoining)
      simpa [Server.publishing, hcall, hbinding] using hnone
    · exact hs.proofs
  · have hstored : s.mutationStage = .stored := by simpa using hcalling
    constructor
    · exact fun _ ↦ ⟨mutation, hmutation⟩
    · exact fun _ _ ↦ .of_not_critical hcritical
    · exact hs.cycle
    · intro p hp
      rcases List.mem_append.mp hp with hp | hp
      · exact hs.proofs p hp
      · obtain rfl := List.mem_singleton.mp hp
        exact fun _ ↦ ⟨hholds.scope (by rw [hstored]; rfl), hholds.state hstored⟩

omit [DecidableEq D] in
theorem cycleGoesOn_exclusive {s : Server D} {call : ProvedCall} {joining : Call}
    (hs : Exclusive w s) (hcall : s.cycle.bind frameCall = some (call, joining))
    (hsafe : Undisturbed (s, .cycleGoesOn)) {provider : PrivateStateProvider}
    {stage : Stage} {proofs : List Proof}
    (h : callStep s.provider s.proofs call (call.join w) s.cycleStage (joining = .join) =
      some (provider, stage, proofs)) :
    Exclusive w { s with provider, cycleStage := stage, proofs } := by
  rcases callStep_cases h with ⟨hjoining, hnew, rfl⟩ | ⟨hcalling, rfl, hcritical, rfl⟩
  · have hmutation : s.mutationStage.critical = false := by
      obtain rfl : joining = .join := by simpa using hjoining
      simpa only [Undisturbed, hcall] using hsafe
    constructor
    · exact hs.stage
    · exact fun _ _ ↦ .of_not_critical hmutation
    · intro call' joining' hcall' hbinding
      cases hcall.symm.trans hcall'
      exact hnew (hs.cycle call joining hcall hbinding)
    · exact hs.proofs
  · have hstored : call.binding = true → s.cycleStage = .stored := by
      cases joining with
      | join => cases hcalling
      | submit => simpa only [Undisturbed, hcall] using hsafe
    constructor
    · exact hs.stage
    · exact hs.mutation
    · exact fun _ _ _ _ ↦ .of_not_critical hcritical
    · intro p hp
      rcases List.mem_append.mp hp with hp | hp
      · exact hs.proofs p hp
      · obtain rfl := List.mem_singleton.mp hp
        intro hbinding
        have hholds := hs.cycle call joining hcall hbinding
        exact ⟨hholds.scope (by rw [hstored hbinding]; rfl), hholds.state (hstored hbinding)⟩

/-- A join is answered for the call that follows it. -/
theorem frameCall_of_joined {opts : Options Bytes32} {p : Publisher D} {now : ℕ → ℤ}
    {frame : Frame Bytes32 D} {answer : Answer D} {r : Publisher D × Next Bytes32 D}
    (h : resume opts p now frame answer = some r) (hjoined : answerStage answer = some .stored) :
    ∃ call, frameCall frame = some (call, .join) ∧
      (CredentialRootPublisher.cycle r).2.bind frameCall = some (call, .submit) := by
  cases resumed_of_resume h with
  | registryJoined => exact ⟨_, rfl, rfl⟩
  | referendumJoined => exact ⟨_, rfl, rfl⟩
  | imminent => cases hjoined
  | @notImminent batch nowSeconds target rest answer hread =>
    cases answer with
    | joined => exact absurd rfl hread
    | _ => cases hjoined
  | read => cases hjoined
  | readFailed => cases hjoined
  | attested => cases hjoined
  | attestationFailed => cases hjoined
  | published => cases hjoined
  | publishFailed => cases hjoined

theorem cycleAnswer_exclusive {s : Server D} {now : ℕ → ℤ} {frame : Frame Bytes32 D}
    {answer : Answer D} {r : Publisher D × Next Bytes32 D} (hs : Exclusive w s)
    (hframe : s.cycle = some frame)
    (hresume : resume w.publisher s.publisher now frame answer = some r)
    (hstage : (answerStage answer).all (· = s.cycleStage) = true) :
    Exclusive w { s with
      publisher := (CredentialRootPublisher.cycle r).1
      cycle := (CredentialRootPublisher.cycle r).2
      cycleStage := if answerStage answer = some .stored then .stored else .idle } := by
  constructor
  · exact hs.stage
  · exact hs.mutation
  · intro call joining hcall hbinding
    by_cases hjoined : answerStage answer = some .stored
    · obtain ⟨call', hbefore, hafter⟩ := frameCall_of_joined hresume hjoined
      cases hafter.symm.trans hcall
      have hstored : s.cycleStage = .stored := by
        rw [hjoined] at hstage
        exact (of_decide_eq_true hstage).symm
      have hholds := hs.cycle call .join (by rw [hframe]; exact hbefore) hbinding
      rw [hstored] at hholds
      simpa only [if_pos hjoined] using hholds
    · apply Holds.of_not_critical
      simp only [if_neg hjoined, Stage.critical]
  · exact hs.proofs

omit [DecidableEq D] in
/-- A mutation that waits for something else has not begun its join. -/
theorem mutationFrame_exclusive {s : Server D} (hs : Exclusive w s)
    (hidle : ∀ mutation, s.mutation ≠ some (.mutate mutation)) (frame : Option MutationFrame)
    (mutations : List Mutation) : Exclusive w { s with mutation := frame, mutations } := by
  have hstage : s.mutationStage = .idle := by
    by_contra hne
    obtain ⟨mutation, hmutation⟩ := hs.stage hne
    exact hidle mutation hmutation
  constructor
  · exact fun hne ↦ absurd hstage hne
  · intro mutation _
    apply Holds.of_not_critical
    rw [hstage]
    rfl
  · exact hs.cycle
  · exact hs.proofs

theorem exclusive_step (s : Server D) (e : ServerEvent D) (s' : Server D) (hs : Exclusive w s)
    (hsafe : Undisturbed (s, e)) (h : serverStep w s e = .ok s') : Exclusive w s' := by
  cases e with
  | mutate mutation =>
    obtain rfl := Except.ok.inj h
    exact ⟨hs.stage, hs.mutation, hs.cycle, hs.proofs⟩
  | mutationGoesOn =>
    simp only [serverStep] at h
    split at h
    · next hmutation _ =>
      obtain rfl := Except.ok.inj h
      exact mutationFrame_exclusive hs (by simp [hmutation]) _ _
    · cases h
    · next hmutation =>
      obtain rfl := Except.ok.inj h
      exact mutationFrame_exclusive hs (by simp [hmutation]) _ _
    · next hmutation =>
      obtain rfl := Except.ok.inj h
      exact mutationFrame_exclusive hs (by simp [hmutation]) _ _
    · next hmutation =>
      obtain rfl := Except.ok.inj h
      exact mutationFrame_exclusive hs (by simp [hmutation]) _ _
    · next mutation hmutation =>
      split at h
      · next provider stage proofs hcall =>
        obtain rfl := Except.ok.inj h
        exact mutationGoesOn_exclusive hs hmutation hsafe hcall
      · cases h
  | mutationEnds =>
    obtain rfl := Except.ok.inj h
    exact ⟨fun hne ↦ absurd rfl hne, nofun, hs.cycle, hs.proofs⟩
  | publishOnce =>
    obtain rfl := Except.ok.inj h
    exact ⟨hs.stage, hs.mutation, hs.cycle, hs.proofs⟩
  | beginCycle =>
    simp only [serverStep] at h
    split at h
    · obtain rfl := Except.ok.inj h
      exact ⟨hs.stage, hs.mutation, fun _ _ _ _ ↦ .of_not_critical rfl, hs.proofs⟩
    · cases h
  | cycleGoesOn =>
    simp only [serverStep] at h
    split at h
    · cases h
    · next call joining hcall =>
      split at h
      · next provider stage proofs hstep =>
        obtain rfl := Except.ok.inj h
        exact cycleGoesOn_exclusive hs hcall hsafe hstep
      · cases h
  | cycleAnswer now answer =>
    simp only [serverStep] at h
    split at h
    · cases h
    · next frame hframe =>
      split at h
      · cases h
      · next r hresume =>
        split at h
        · next hstage =>
          obtain rfl := Except.ok.inj h
          exact cycleAnswer_exclusive hs hframe hresume hstage
        · cases h

/-- In a run in which no join disturbs a call of the other component, every addCredential, freeze and
publishCredentialRoot finds exactly the private state of its own join. -/
theorem private_states_not_mixed (w : Wiring) (es : List (ServerEvent D))
    (hsafe : ∀ e ∈ accepted (serverStep w) ({} : Server D) es, Undisturbed e) :
    ∀ p ∈ (runServer w {} es).proofs, p.Correct w := by
  have hstart : Exclusive w ({} : Server D) := by
    constructor
    · exact fun hne ↦ absurd rfl hne
    · intro _ hnone
      cases hnone
    · intro _ _ hnone
      cases hnone
    · intro p hp
      cases hp
  have hrun : Exclusive w (runServer w {} es) :=
    run_history (I := fun _ s ↦ Exclusive w s) (P := Undisturbed)
      (fun _ s e s' hs hP hok ↦ exclusive_step s e s' hs hP hok) hstart es hsafe
  exact hrun.proofs

/-! ## Mixed states -/

theorem one_le_batch : 1 ≤ 1 := Nat.le_refl 1

/-- A server with one referendum that publishes every batch. -/
def sampleWiring : Wiring where
  registryContractAddress := "registry"
  issuerSecret := Vector.replicate 32 1
  publisher := {
    referenda := [⟨"referendum", Vector.replicate 32 2⟩]
    minBatchSize := 1
    minBatchSize_pos := one_le_batch }

/-- The private state of an issuance. -/
def sampleIssuance (n : UInt8) : RegistryPrivateState :=
  { emptyPrivateState sampleWiring.issuerSecret with
    holderBinding := Vector.replicate 32 n
    credentialBlind := Vector.replicate 32 3
    credentialAgeClass := 2
    credentialAssurance := 2 }

/-- A mutation that is queued and has got as far as its join. -/
def mutationBegins (mutation : Mutation) : List (ServerEvent ℕ) :=
  [.mutate mutation, .mutationGoesOn, .mutationGoesOn, .mutationGoesOn]

/-- The join of a mutation and the call after it. -/
def mutationCalls : List (ServerEvent ℕ) := [.mutationGoesOn, .mutationGoesOn, .mutationGoesOn]

/-- A cycle that has read the registry. -/
def cycleBegins (root : ℕ) : List (ServerEvent ℕ) :=
  [.publishOnce, .beginCycle, .cycleAnswer (fun _ ↦ 0) (.registry ⟨root, root⟩)]

/-- A join of the publisher. -/
def cycleJoins : List (ServerEvent ℕ) :=
  [.cycleGoesOn, .cycleGoesOn, .cycleAnswer (fun _ ↦ 0) .joined]

/-- A call of the publisher. -/
def cycleCalls : List (ServerEvent ℕ) := [.cycleGoesOn, .cycleAnswer (fun _ ↦ 0) (.receipt "tx")]

/-- An issuance and after it the first cycle. -/
def orderlyEvents : List (ServerEvent ℕ) :=
  mutationBegins (.issue (sampleIssuance 5)) ++ mutationCalls ++ [.mutationEnds] ++
    cycleBegins 1 ++ cycleJoins ++ cycleCalls ++ cycleJoins ++ cycleCalls

theorem private_states_not_mixed_sample :
    (∀ p ∈ (runServer sampleWiring {} orderlyEvents).proofs, p.Correct sampleWiring) ∧
      (runServer sampleWiring {} orderlyEvents).proofs.map Proof.call =
        [.addCredential (sampleIssuance 5), .attestCurrentRoot,
          .publishCredentialRoot ⟨"referendum", Vector.replicate 32 2⟩] :=
  ⟨private_states_not_mixed sampleWiring orderlyEvents (by decide +kernel), by decide +kernel⟩

/-- The first cycle joins the registry between the join of an issuance and its call. -/
def disturbedEvents : List (ServerEvent ℕ) :=
  mutationBegins (.issue (sampleIssuance 5)) ++ mutationCalls.take 2 ++ cycleBegins 1 ++
    cycleJoins ++ mutationCalls.drop 2

/-- A second issuance and a second cycle, one after the other. -/
def secondCycleEvents : List (ServerEvent ℕ) :=
  orderlyEvents ++ mutationBegins (.issue (sampleIssuance 6)) ++ mutationCalls ++ [.mutationEnds] ++
    cycleBegins 2 ++ cycleCalls ++ [.cycleGoesOn]

/-- The credential is proved with the empty state of the attestation, and in the second cycle the
publication does not find its state under the scope of the registry. -/
theorem private_states_mixed :
    (runServer sampleWiring {} disturbedEvents).proofs =
        [⟨.addCredential (sampleIssuance 5), "registry", some (.registry attestationPrivateState)⟩] ∧
      (runServer sampleWiring {} secondCycleEvents).proofs.getLast? =
        some ⟨.publishCredentialRoot ⟨"referendum", Vector.replicate 32 2⟩, "registry", none⟩ ∧
      sampleIssuance 5 ≠ attestationPrivateState := by
  refine ⟨?_, ?_, ?_⟩ <;> decide +kernel

end MidnightReferendum.Cico
