import MidnightReferendum.Passport.MidnightV2
import MidnightReferendum.ReferendumV2.Conservation
import MidnightReferendum.ReferendumV2.Roots
import MidnightReferendum.Registry.AppendOnly

/-!
# The voting client and the contract

`createCanonicalStateResolver` of `midnight-civic-action-adapter.ts`. Before it votes, the client checks that
the referendum belongs to the registry of the catalog, and looks up the path of the credential in the registry.
The checks want a registry that is frozen with the root of the deployment, and the path leads to the current
root. The contract admits every voter with a path to an accepted root. While enrollment is open, the client
therefore refuses every voter whom the contract admits.
-/

namespace MidnightReferendum.Passport

open MidnightReferendum.Compact Checks Execution Js Merkle

/-! ## The client -/

/-- The part of `ReferendumV2ExecutorConfig` that the client reads. -/
structure ReferendumV2ExecutorConfig (B D : Type) where
  registry : FrozenCredentialRegistryReference B D
  eventId : B

structure ReferendumV2CatalogEntry (B D : Type) where
  referendumId : JsString
  contractAddress : JsString
  config : ReferendumV2ExecutorConfig B D

/-- `publicDataProvider.queryContractState`: the contracts that the indexer knows. -/
structure PublicDataProvider {B D : Type} (H : Hashing B D) where
  registryState : JsString → Option (CredentialRegistryV1.Sealed B × CredentialRegistryV1.Ledger B D)
  referendumState : JsString → Option (ReferendumV2.Sealed B D × ReferendumV2.Ledger H)

def noRegistryState : String := "Credential registry has no canonical state"

/-- A value that may be missing. -/
def found {α : Type} (message : String) : Option α → Except String α
  | some a => .ok a
  | none => .error message

def FrozenCredentialRegistryReference.binding {B D : Type} (reference : FrozenCredentialRegistryReference B D) :
    ReferendumV2RegistryBinding B D where
  registryId := reference.registryId
  issuerId := reference.issuerId
  credentialEpoch := reference.credentialEpoch
  initialCredentialRoot := reference.frozenRoot
  registryContractBinding := reference.registryContractBinding

section Client

variable {B D : Type} [DecidableEq B] [DecidableEq D] (H : Bytes B D) (provider : PublicDataProvider H.toHashing)
  (entry : ReferendumV2CatalogEntry B D)

def assertCanonicalBinding : Except String Unit := do
  let registryContractAddress := entry.config.registry.registryContractAddress
  let (registry, registryLedger) ← found noRegistryState (provider.registryState registryContractAddress)
  let reference ← createFrozenCredentialRegistryReference H registryContractAddress
    (parseCredentialRegistryV1 H.toHashing registry registryLedger)
  assertReferendumRegistryBinding H reference entry.config.registry.binding
  let (referendum, referendumLedger) ←
    found "Referendum has no canonical state" (provider.referendumState entry.contractAddress)
  let state := parseReferendumV2 referendum referendumLedger
  assertReferendumRegistryBinding H reference state.binding
  check (state.phase = .commit ∧ state.closed = false) "Referendum is not accepting votes"
  check (state.eventId = entry.config.eventId) "Referendum event ID does not match the catalog"

def resolveCredentialPath (credentialLeaf : B) : Except String (Path B D 16) := do
  let (_, registryLedger) ←
    found noRegistryState (provider.registryState entry.config.registry.registryContractAddress)
  findCredentialPath H.toHashing registryLedger credentialLeaf

/-- The client goes on with a vote, and the path that it has found passes the membership check of
`castVote`. -/
def Admits (accepted : Finset D) (credentialLeaf : B) : Prop :=
  assertCanonicalBinding H provider entry = .ok () ∧ ∃ path,
    resolveCredentialPath H provider entry credentialLeaf = .ok path ∧ path.leaf = credentialLeaf ∧
      pathRoot H.tree path ∈ accepted

end Client

/-! ## The registry and a referendum -/

/-- The registry with all the roots that it has had, and a referendum once it is deployed. -/
structure Contracts {B D : Type} (H : Hashing B D) where
  registry : CredentialRegistryV1.Ledger B D
  roots : List D
  referendum : Option (ReferendumV2.Ledger H)

/-- Where the contracts are, and what they are deployed with. -/
structure Deployed (B D : Type) where
  hashing : Bytes B D
  registryAddress : JsString
  registry : CredentialRegistryV1.Sealed B
  referendumAddress : JsString
  referendum : ReferendumV2.Sealed B D

inductive ContractEvent (B D : Type) where
  | registryCall (call : CredentialRegistryV1.Call B D)
  | deploy
  | referendumTx (tx : ReferendumV2.Tx B D)

/-- The root that a transaction admits. -/
def publishedRoot {B D : Type} (tx : ReferendumV2.Tx B D) : Option D :=
  match tx.call with
  | .publishCredentialRoot root _ => some root
  | _ => none

section Contracts

variable {B D : Type} [DecidableEq B] [DecidableEq D] (dep : Deployed B D)

/-- A referendum is deployed with a root that the registry has had, and such roots are published. -/
def contractsStep (w : Contracts dep.hashing.toHashing) :
    ContractEvent B D → Except String (Contracts dep.hashing.toHashing)
  | .registryCall call => do
    let registry ← CredentialRegistryV1.step dep.hashing.toHashing dep.registry w.registry call
    pure { w with
      registry
      roots := w.roots ++ [CredentialRegistryV1.currentRoot dep.hashing.toHashing registry] }
  | .deploy => do
    check (w.referendum.isNone = true ∧ dep.referendum.initialCredentialRoot ∈ w.roots) "not deployed"
    let referendum ← ReferendumV2.initialState dep.hashing.toHashing dep.referendum
    pure { w with referendum := some referendum }
  | .referendumTx tx => do
    check (∀ root ∈ publishedRoot tx, root ∈ w.roots) "not a root of the registry"
    let before ← found "not deployed" w.referendum
    let referendum ← ReferendumV2.step dep.hashing.toHashing dep.referendum before tx
    pure { w with referendum := some referendum }

def contractsStart : Contracts dep.hashing.toHashing :=
  let registry := CredentialRegistryV1.initialState dep.hashing.toHashing
  ⟨registry, [CredentialRegistryV1.currentRoot dep.hashing.toHashing registry], none⟩

end Contracts

/-! ## What holds in every run of the contracts -/

section Runs

variable {B D : Type} {dep : Deployed B D}

/-- Every root is the root of leaves with which the registry begins, and only such roots are accepted. -/
structure RootsOfRegistry (dep : Deployed B D) (w : Contracts dep.hashing.toHashing) : Prop where
  consistent : CredentialRegistryV1.Consistent dep.hashing.toHashing w.registry
  roots : ∀ root ∈ w.roots, ∃ t : Tree B 16,
    t.root dep.hashing.tree = root ∧ t.leaves <+: w.registry.credentials.leaves
  accepted : ∀ s ∈ w.referendum, ∀ root ∈ s.acceptedCredentialRoots, root ∈ w.roots

/-- A credential under an accepted root is in the registry. -/
theorem RootsOfRegistry.mem_leaves {w : Contracts dep.hashing.toHashing} (hw : RootsOfRegistry dep w)
    (hH : dep.hashing.CollisionFree) {s : ReferendumV2.Ledger dep.hashing.toHashing} (hs : s ∈ w.referendum)
    {root : D} (hroot : root ∈ s.acceptedCredentialRoots) {leaf : B}
    (hopens : Tree.Opens dep.hashing.tree 16 leaf root) : leaf ∈ w.registry.credentials.leaves := by
  obtain ⟨t, rfl, hprefix⟩ := hw.roots root (hw.accepted s hs root hroot)
  exact hprefix.subset ((Tree.opens_root_iff hH.tree_sound).mp hopens)

variable [DecidableEq B] [DecidableEq D]

theorem found_eq_ok {α : Type} {message : String} {o : Option α} {a : α} :
    found message o = .ok a ↔ o = some a := by
  cases o <;> simp [found]

/-- A transaction accepts at most the root that it publishes. -/
theorem accepted_of_step {H : Hashing B D} {cfg : ReferendumV2.Sealed B D} {s s' : ReferendumV2.Ledger H}
    {tx : ReferendumV2.Tx B D} (h : ReferendumV2.step H cfg s tx = .ok s') {root : D}
    (hroot : root ∈ s'.acceptedCredentialRoots) :
    root ∈ s.acceptedCredentialRoots ∨ publishedRoot tx = some root := by
  cases ReferendumV2.rootMove_of_step h with
  | stay haccepted _ => exact Or.inl (haccepted ▸ hroot)
  | publish new secret hcall _ haccepted _ =>
    rw [haccepted, Finset.mem_insert] at hroot
    rcases hroot with rfl | hold
    · right
      simp only [publishedRoot, hcall]
    · exact Or.inl hold
  | revoke old secret _ _ haccepted _ =>
    rw [haccepted] at hroot
    exact Or.inl (Finset.mem_of_mem_erase hroot)

theorem contractsStep_roots (w : Contracts dep.hashing.toHashing) (e : ContractEvent B D)
    (w' : Contracts dep.hashing.toHashing) (hw : RootsOfRegistry dep w) (h : contractsStep dep w e = .ok w') :
    RootsOfRegistry dep w' := by
  cases e with
  | registryCall call =>
    simp only [contractsStep, bind_eq_ok, pure, Except.pure, Except.ok.injEq] at h
    obtain ⟨registry, hstep, rfl⟩ := h
    have hextends := CredentialRegistryV1.step_extends _ _ _ hstep
    refine ⟨CredentialRegistryV1.step_consistent _ _ _ hw.consistent hstep, fun root hroot ↦ ?_, ?_⟩
    · rcases List.mem_append.mp hroot with hold | hnew
      · obtain ⟨t, ht, hprefix⟩ := hw.roots root hold
        exact ⟨t, ht, hprefix.trans hextends.leaves⟩
      · obtain rfl := List.mem_singleton.mp hnew
        exact ⟨registry.credentials, rfl, List.prefix_rfl⟩
    · intro s hs root hroot
      exact List.mem_append_left _ (hw.accepted s hs root hroot)
  | deploy =>
    simp only [contractsStep, bind_eq_ok, check_eq_ok, pure, Except.pure, Except.ok.injEq] at h
    obtain ⟨_, ⟨_, hinitial⟩, referendum, hreferendum, rfl⟩ := h
    refine ⟨hw.consistent, hw.roots, fun s hs root hroot ↦ ?_⟩
    obtain rfl := Option.some.inj hs
    rw [(ReferendumV2.initialState_ok.mp hreferendum).2] at hroot
    obtain rfl := Finset.mem_singleton.mp hroot
    exact hinitial
  | referendumTx tx =>
    simp only [contractsStep, bind_eq_ok, check_eq_ok, found_eq_ok, pure, Except.pure, Except.ok.injEq] at h
    obtain ⟨_, hpublished, before, hbefore, referendum, hstep, rfl⟩ := h
    refine ⟨hw.consistent, hw.roots, fun s hs root hroot ↦ ?_⟩
    obtain rfl := Option.some.inj hs
    rcases accepted_of_step hstep hroot with hold | hnew
    · exact hw.accepted before hbefore root hold
    · exact hpublished root hnew

omit [DecidableEq B] [DecidableEq D] in
theorem contractsStart_roots (dep : Deployed B D) : RootsOfRegistry dep (contractsStart dep) where
  consistent := CredentialRegistryV1.initialState_consistent
  roots root hroot := by
    obtain rfl := List.mem_singleton.mp hroot
    exact ⟨_, rfl, List.prefix_rfl⟩
  accepted s hs := by cases hs

end Runs

/-! ## Whom the client admits -/

section Admitted

variable {B D : Type} [DecidableEq B] [DecidableEq D]

/-- The indexer shows both contracts at their addresses. -/
def Contracts.provider (dep : Deployed B D) (w : Contracts dep.hashing.toHashing) :
    PublicDataProvider dep.hashing.toHashing where
  registryState address := if address = dep.registryAddress then some (dep.registry, w.registry) else none
  referendumState address :=
    if address = dep.referendumAddress then w.referendum.map (dep.referendum, ·) else none

/-- The referendum is configured consistently with the registry and the entry of the catalog. -/
structure ConsistentEntry (dep : Deployed B D) (entry : ReferendumV2CatalogEntry B D) : Prop where
  registryAddress : entry.config.registry.registryContractAddress = dep.registryAddress
  referendumAddress : entry.contractAddress = dep.referendumAddress
  binding : deriveRegistryContractBinding dep.hashing dep.registryAddress =
    .ok dep.referendum.registryContractBinding
  registryId : dep.registry.registryId = dep.referendum.registryId
  issuerId : dep.registry.issuerId = dep.referendum.issuerId
  credentialEpoch : dep.registry.credentialEpoch = dep.referendum.credentialEpoch
  config : entry.config.registry.binding = {
    registryId := dep.referendum.registryId
    issuerId := dep.referendum.issuerId
    credentialEpoch := dep.referendum.credentialEpoch.toNat
    initialCredentialRoot := dep.referendum.initialCredentialRoot
    registryContractBinding := dep.referendum.registryContractBinding }
  eventId : entry.config.eventId = dep.referendum.eventId

variable {dep : Deployed B D} {w : Contracts dep.hashing.toHashing} {entry : ReferendumV2CatalogEntry B D}
  {s : ReferendumV2.Ledger dep.hashing.toHashing}

/-- The checks of the client pass if and only if the registry is frozen with the root of the deployment. -/
theorem assertCanonicalBinding_eq_ok (hentry : ConsistentEntry dep entry) (hs : w.referendum = some s)
    (hcommit : s.phase = .commit) (hopen : s.closed = false) :
    assertCanonicalBinding dep.hashing (w.provider dep) entry = .ok () ↔
      w.registry.frozen = true ∧
        w.registry.frozenRoot = CredentialRegistryV1.currentRoot dep.hashing.toHashing w.registry ∧
        w.registry.frozenRoot = dep.referendum.initialCredentialRoot := by
  have hregistry : (w.provider dep).registryState entry.config.registry.registryContractAddress =
      some (dep.registry, w.registry) := if_pos hentry.registryAddress
  have hreferendum : (w.provider dep).referendumState entry.contractAddress = some (dep.referendum, s) := by
    have hshown : (w.provider dep).referendumState entry.contractAddress =
        w.referendum.map (dep.referendum, ·) := if_pos hentry.referendumAddress
    rw [hshown, hs, Option.map_some]
  have hbinding : deriveRegistryContractBinding dep.hashing entry.config.registry.registryContractAddress =
      .ok dep.referendum.registryContractBinding := hentry.registryAddress ▸ hentry.binding
  simp only [assertCanonicalBinding, hregistry, hreferendum, found, bind_eq_ok, Except.ok.injEq,
    createFrozenCredentialRegistryReference_eq_ok, assertReferendumRegistryBinding_eq_ok, check_eq_ok, hbinding]
  constructor
  · rintro ⟨_, rfl, reference, ⟨_, _, hfrozen, hcurrent, rfl⟩, _, ⟨_, _, _, hroot, _⟩, _⟩
    rw [hentry.config] at hroot
    exact ⟨hfrozen, hcurrent, hroot⟩
  · rintro ⟨hfrozen, hcurrent, hroot⟩
    refine ⟨_, rfl, _, ⟨_, rfl, hfrozen, hcurrent, rfl⟩, (), ?_, _, rfl, (), ?_, (), ⟨hcommit, hopen⟩, ?_⟩
    · rw [hentry.config]
      exact ⟨hentry.registryId, hentry.issuerId, congrArg UInt64.toNat hentry.credentialEpoch, hroot, hbinding⟩
    · exact ⟨hentry.registryId, hentry.issuerId, congrArg UInt64.toNat hentry.credentialEpoch, hroot, hbinding⟩
    · exact hentry.eventId.symm

omit [DecidableEq D] in
/-- The path leads from the credential to the current root of the registry. -/
theorem resolveCredentialPath_root (hentry : ConsistentEntry dep entry) {leaf : B}
    (hleaf : leaf ∈ w.registry.credentials.leaves) :
    ∃ path, resolveCredentialPath dep.hashing (w.provider dep) entry leaf = .ok path ∧ path.leaf = leaf ∧
      pathRoot dep.hashing.tree path =
        CredentialRegistryV1.currentRoot dep.hashing.toHashing w.registry := by
  have hregistry : (w.provider dep).registryState entry.config.registry.registryContractAddress =
      some (dep.registry, w.registry) := if_pos hentry.registryAddress
  obtain ⟨path, hpath, hstart, hroot⟩ := exists_findPathForLeaf dep.hashing.tree
    w.registry.credentials.length_le hleaf
  have hfound : findCredentialPath dep.hashing.toHashing w.registry leaf = .ok path := by
    simp only [findCredentialPath, hpath]
  refine ⟨path, ?_, hstart, hroot⟩
  simp only [resolveCredentialPath, hregistry, found, bind_eq_ok]
  exact ⟨_, rfl, hfound⟩

/-- The client admits a voter whom the contract admits if and only if the registry is frozen with the root that
the referendum has been deployed with, and this root is still accepted. -/
theorem client_admits_iff (dep : Deployed B D) (hH : dep.hashing.CollisionFree)
    (entry : ReferendumV2CatalogEntry B D) (hentry : ConsistentEntry dep entry) (es : List (ContractEvent B D))
    (s : ReferendumV2.Ledger dep.hashing.toHashing)
    (hs : (run (contractsStep dep) (contractsStart dep) es).referendum = some s)
    (hcommit : s.phase = .commit) (hopen : s.closed = false) (leaf : B)
    (hleaf : ∃ root ∈ s.acceptedCredentialRoots, Tree.Opens dep.hashing.tree 16 leaf root) :
    Admits dep.hashing ((run (contractsStep dep) (contractsStart dep) es).provider dep) entry
        s.acceptedCredentialRoots leaf ↔
      (run (contractsStep dep) (contractsStart dep) es).registry.frozen = true ∧
        CredentialRegistryV1.currentRoot dep.hashing.toHashing
            (run (contractsStep dep) (contractsStart dep) es).registry =
          dep.referendum.initialCredentialRoot ∧
        dep.referendum.initialCredentialRoot ∈ s.acceptedCredentialRoots := by
  have hw : RootsOfRegistry dep (run (contractsStep dep) (contractsStart dep) es) :=
    run_invariant contractsStep_roots (contractsStart_roots dep) es
  generalize run (contractsStep dep) (contractsStart dep) es = w at hs hw ⊢
  obtain ⟨root, hroot, hopens⟩ := hleaf
  obtain ⟨path, hpath, hstart, hcurrent⟩ :=
    resolveCredentialPath_root hentry (hw.mem_leaves hH hs hroot hopens)
  rw [Admits, assertCanonicalBinding_eq_ok hentry hs hcommit hopen]
  constructor
  · rintro ⟨⟨hfrozen, hfreeze, hinitial⟩, path', hpath', _, haccepted⟩
    obtain rfl := Except.ok.inj (hpath.symm.trans hpath')
    have hsame := hfreeze.symm.trans hinitial
    exact ⟨hfrozen, hsame, hsame ▸ hcurrent ▸ haccepted⟩
  · rintro ⟨hfrozen, hsame, haccepted⟩
    have hfreeze := hw.consistent.frozenRoot hfrozen
    exact ⟨⟨hfrozen, hfreeze, hfreeze.trans hsame⟩, path, hpath, hstart, by rw [hcurrent, hsame]; exact haccepted⟩

end Admitted

/-! ## Sample runs -/

/-- The next credential of the sample registry. -/
def enroll (n : ℕ) : CredentialRegistryV1.Call Term Digest :=
  .addCredential (.uint 1) (CredentialRegistryV1.sampleLeaf (.uint n))

def enrolledLeaf : Term :=
  CredentialRegistryV1.credentialLeaf symbolic CredentialRegistryV1.sampleSealed
    (CredentialRegistryV1.sampleLeaf (.uint 0))

/-- The root of the registry with one credential. -/
def enrolledRoot : Digest := CredentialRegistryV1.currentRoot symbolic (CredentialRegistryV1.sampleLedger [enroll 0])

def sampleBinding : Term :=
  symbolicBytes.persistentHash
    [symbolicBytes.pad "cico:registry:address:v1", symbolicBytes.ofHex (sampleAddress '1')]

def sampleDeployed : Deployed Term Digest where
  hashing := symbolicBytes
  registryAddress := sampleAddress '1'
  registry := CredentialRegistryV1.sampleSealed
  referendumAddress := sampleAddress '2'
  referendum := { ReferendumV2.sampleSealed with
    initialCredentialRoot := enrolledRoot
    registryContractBinding := sampleBinding }

def sampleEntry : ReferendumV2CatalogEntry Term Digest where
  referendumId := js "referendum"
  contractAddress := sampleAddress '2'
  config := {
    registry := ⟨sampleAddress '1', sampleBinding, .uint 6, .uint 4, 7, enrolledRoot⟩
    eventId := .uint 5 }

theorem sampleEntry_consistent : ConsistentEntry sampleDeployed sampleEntry where
  registryAddress := rfl
  referendumAddress := rfl
  binding := by decide +kernel
  registryId := rfl
  issuerId := rfl
  credentialEpoch := rfl
  config := rfl
  eventId := rfl

def contractsAfter (es : List (ContractEvent Term Digest)) : Contracts symbolic :=
  run (contractsStep sampleDeployed) (contractsStart sampleDeployed) es

/-- The registry is frozen with its only credential before the referendum is deployed. -/
def frozenBefore : List (ContractEvent Term Digest) :=
  [.registryCall (enroll 0), .registryCall (.freeze (.uint 1) enrolledRoot), .deploy]

/-- The referendum is deployed with one credential, and another one is enrolled. -/
def openEnrollment : List (ContractEvent Term Digest) :=
  [.registryCall (enroll 0), .deploy, .registryCall (enroll 1)]

/-- The referendum of a run. -/
def referendumAfter (es : List (ContractEvent Term Digest)) : ReferendumV2.Ledger symbolic :=
  (contractsAfter es).referendum.getD (ReferendumV2.defaultLedger symbolic)

theorem referendum_eq_some {es : List (ContractEvent Term Digest)}
    (h : (contractsAfter es).referendum.isSome = true) :
    (contractsAfter es).referendum = some (referendumAfter es) := by
  obtain ⟨s, hs⟩ := Option.isSome_iff_exists.mp h
  rw [referendumAfter, hs, Option.getD_some]

theorem enrolledLeaf_opens : Tree.Opens symbolic.tree 16 enrolledLeaf enrolledRoot :=
  (Tree.opens_root_iff symbolic_collisionFree.tree_sound).mpr (by decide +kernel)

theorem client_admits_iff_sample :
    Admits symbolicBytes ((contractsAfter frozenBefore).provider sampleDeployed) sampleEntry
      (referendumAfter frozenBefore).acceptedCredentialRoots enrolledLeaf :=
  (client_admits_iff sampleDeployed symbolic_collisionFree sampleEntry sampleEntry_consistent frozenBefore
    (referendumAfter frozenBefore) (referendum_eq_some (by decide +kernel)) (by decide +kernel) (by decide +kernel)
    enrolledLeaf ⟨enrolledRoot, by decide +kernel, enrolledLeaf_opens⟩).mpr
    ⟨by decide +kernel, by decide +kernel, by decide +kernel⟩

/-- The contract accepts the root over the credential of a voter, and the client refuses the voter. Its path
would not lead to an accepted root either. -/
theorem open_enrollment_refused :
    (contractsAfter openEnrollment).registry.frozen = false ∧
      (referendumAfter openEnrollment).phase = .commit ∧ (referendumAfter openEnrollment).closed = false ∧
      (∃ root ∈ (referendumAfter openEnrollment).acceptedCredentialRoots,
        Tree.Opens symbolic.tree 16 enrolledLeaf root) ∧
      ¬Admits symbolicBytes ((contractsAfter openEnrollment).provider sampleDeployed) sampleEntry
        (referendumAfter openEnrollment).acceptedCredentialRoots enrolledLeaf ∧
      ∀ path, resolveCredentialPath symbolicBytes ((contractsAfter openEnrollment).provider sampleDeployed)
          sampleEntry enrolledLeaf = .ok path →
        pathRoot symbolic.tree path ∉ (referendumAfter openEnrollment).acceptedCredentialRoots := by
  have hopen : (contractsAfter openEnrollment).registry.frozen = false := by decide +kernel
  have hcommit : (referendumAfter openEnrollment).phase = .commit := by decide +kernel
  have hclosed : (referendumAfter openEnrollment).closed = false := by decide +kernel
  have hreferendum : (contractsAfter openEnrollment).referendum = some (referendumAfter openEnrollment) :=
    referendum_eq_some (by decide +kernel)
  have hleaf : enrolledLeaf ∈ (contractsAfter openEnrollment).registry.credentials.leaves := by decide +kernel
  refine ⟨hopen, hcommit, hclosed, ⟨enrolledRoot, by decide +kernel, enrolledLeaf_opens⟩, ?_, ?_⟩
  · rintro ⟨hbinding, _⟩
    have hfrozen := ((assertCanonicalBinding_eq_ok sampleEntry_consistent hreferendum hcommit
      hclosed).mp hbinding).1
    cases hopen.symm.trans hfrozen
  · intro path hpath
    obtain ⟨path', hpath', _, hroot⟩ := resolveCredentialPath_root sampleEntry_consistent hleaf
    obtain rfl := Except.ok.inj (hpath'.symm.trans hpath)
    have hnot : CredentialRegistryV1.currentRoot symbolic (contractsAfter openEnrollment).registry ∉
        (referendumAfter openEnrollment).acceptedCredentialRoots := by
      decide +kernel
    exact hroot ▸ hnot

end MidnightReferendum.Passport
