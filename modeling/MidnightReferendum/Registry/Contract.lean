import MidnightReferendum.Compact.Credential
import MidnightReferendum.Systems.Execution

/-!
# The credential registry contract

`credential-registry-v1.compact`. The issuer appends claim-bound credential leaves to a Merkle tree
until it freezes the registry. Anybody may attest the current root, which changes nothing. The tree
is a plain `MerkleTree`, so `checkRoot` accepts its current root only.
-/

namespace MidnightReferendum.CredentialRegistryV1

open MidnightReferendum.Compact Execution

/-- The sealed ledger fields, fixed by the constructor. -/
structure Sealed (B : Type) where
  registryId : B
  issuerId : B
  credentialEpoch : UInt64
  issuerKey : B

/-- The ledger fields that circuits change. -/
structure Ledger (B D : Type) where
  credentials : Merkle.Tree B 16
  frozenRoot : D
  frozen : Bool
  credentialCount : ℕ

/-- The answers of the witness calls in `credentialLeaf`. -/
structure LeafWitness (B : Type) where
  holderBinding : B
  credentialCountry : B
  credentialAgeClass : UInt8
  credentialAssurance : UInt8
  credentialValidUntil : UInt64
  credentialBlind : B

/-- A call of an exported circuit, with its arguments and the answers of its witness calls. -/
inductive Call (B D : Type) where
  | addCredential (issuerSecret : B) (leaf : LeafWitness B)
  | attestCurrentRoot (candidateRoot : D)
  | freeze (issuerSecret : B) (candidateRoot : D)

variable {B D : Type} [DecidableEq B] [DecidableEq D] (H : Hashing B D) (cfg : Sealed B)

def credentialLeaf (w : LeafWitness B) : B :=
  credentialCommitment H cfg.issuerId
    { holderBinding := w.holderBinding
      country := w.credentialCountry
      ageClass := w.credentialAgeClass
      assurance := w.credentialAssurance
      epoch := cfg.credentialEpoch
      validUntil := w.credentialValidUntil
      blind := w.credentialBlind }

/-- The current root of the tree, which the runtime's `checkRoot` compares with. -/
def currentRoot (s : Ledger B D) : D := s.credentials.root H.tree

def checkRoot (s : Ledger B D) (root : D) : Bool := decide (currentRoot H s = root)

/-- The secret answers for the issuer key. -/
def IsIssuer (issuerSecret : B) : Prop :=
  roleKey H (H.pad "cico:registry:issuer:") issuerSecret = cfg.issuerKey

instance (issuerSecret : B) : Decidable (IsIssuer H cfg issuerSecret) :=
  inferInstanceAs (Decidable (_ = _))

def requireIssuer (issuerSecret : B) : Circuit (Ledger B D) Unit :=
  assert (IsIssuer H cfg issuerSecret) "Registry authorization failed"

/-- The ledger after the constructor. -/
def initialState : Ledger B D where
  credentials := Merkle.Tree.empty B 16
  frozenRoot := H.defaultDigest
  frozen := false
  credentialCount := 0

def addCredential (issuerSecret : B) (w : LeafWitness B) : Circuit (Ledger B D) Unit := do
  requireIssuer H cfg issuerSecret
  let s ← get
  assert (!s.frozen) "Credential registry is frozen"
  assert (!s.credentials.isFull) "Credential registry is full"
  let credentials ← ofOption treeFull (s.credentials.insert? (credentialLeaf H cfg w))
  modify fun s ↦ { s with credentials }
  modify fun s ↦ { s with credentialCount := s.credentialCount + 1 }

def attestCurrentRoot (candidateRoot : D) : Circuit (Ledger B D) Unit := do
  let s ← get
  assert (checkRoot H s candidateRoot) "Invalid registry root"
  pure ()

def freeze (issuerSecret : B) (candidateRoot : D) : Circuit (Ledger B D) Unit := do
  requireIssuer H cfg issuerSecret
  let s ← get
  assert (!s.frozen) "Credential registry is already frozen"
  assert (checkRoot H s candidateRoot) "Invalid registry root"
  modify fun s ↦ { s with frozenRoot := candidateRoot }
  modify fun s ↦ { s with frozen := true }

def circuit : Call B D → Circuit (Ledger B D) Unit
  | .addCredential issuerSecret leaf => addCredential H cfg issuerSecret leaf
  | .attestCurrentRoot candidateRoot => attestCurrentRoot H candidateRoot
  | .freeze issuerSecret candidateRoot => freeze H cfg issuerSecret candidateRoot

/-- One transaction of the registry. -/
def step (s : Ledger B D) (call : Call B D) : Except String (Ledger B D) :=
  transact (circuit H cfg call) s

/-- The ledger after a list of submitted calls. -/
abbrev runCalls (s : Ledger B D) (calls : List (Call B D)) : Ledger B D := run (step H cfg) s calls

variable {H cfg}

omit [DecidableEq B] in
theorem checkRoot_eq_true {s : Ledger B D} {root : D} :
    checkRoot H s root = true ↔ currentRoot H s = root := by
  simp [checkRoot]

/-! ## What each circuit does when it is accepted -/

theorem addCredential_ok {s s' : Ledger B D} {issuerSecret : B} {w : LeafWitness B}
    (h : step H cfg s (.addCredential issuerSecret w) = .ok s') :
    IsIssuer H cfg issuerSecret ∧ s.frozen = false ∧
      s'.credentials.leaves = s.credentials.leaves ++ [credentialLeaf H cfg w] ∧
      s'.frozenRoot = s.frozenRoot ∧ s'.frozen = s.frozen ∧
      s'.credentialCount = s.credentialCount + 1 := by
  simp only [step, transact_eq_ok, circuit, addCredential, requireIssuer, accepts_assert_bind,
    accepts_get_bind, accepts_ofOption_bind, accepts_modify_bind, accepts_modify,
    Bool.not_eq_true'] at h
  obtain ⟨hissuer, hfrozen, _, tree, htree, rfl⟩ := h
  exact ⟨hissuer, hfrozen, Merkle.Tree.leaves_insert? htree, rfl, rfl, rfl⟩

theorem attestCurrentRoot_ok {s s' : Ledger B D} {candidateRoot : D} :
    step H cfg s (.attestCurrentRoot candidateRoot) = .ok s' ↔
      currentRoot H s = candidateRoot ∧ s' = s := by
  simp only [step, transact_eq_ok, circuit, attestCurrentRoot, accepts_get_bind,
    accepts_assert_bind, accepts_pure, checkRoot_eq_true, true_and]
  rw [eq_comm (a := s')]

theorem freeze_ok {s s' : Ledger B D} {issuerSecret : B} {candidateRoot : D}
    (h : step H cfg s (.freeze issuerSecret candidateRoot) = .ok s') :
    IsIssuer H cfg issuerSecret ∧ s.frozen = false ∧ currentRoot H s = candidateRoot ∧
      s' = { s with frozenRoot := candidateRoot, frozen := true } := by
  simp only [step, transact_eq_ok, circuit, freeze, requireIssuer, accepts_assert_bind,
    accepts_get_bind, accepts_modify_bind, accepts_modify, Bool.not_eq_true',
    checkRoot_eq_true] at h
  obtain ⟨hissuer, hfrozen, hroot, rfl⟩ := h
  exact ⟨hissuer, hfrozen, hroot, rfl⟩

end MidnightReferendum.CredentialRegistryV1
