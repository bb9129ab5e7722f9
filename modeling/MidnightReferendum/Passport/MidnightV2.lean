import MidnightReferendum.Compact.Symbolic
import MidnightReferendum.Js.Text
import MidnightReferendum.ReferendumV2.Contract
import MidnightReferendum.Registry.Contract
import MidnightReferendum.Systems.Checks

/-!
# What clients read of the contracts

`api/src/passport-v2/midnight-v2.ts` and `deriveRegistryContractBinding` of `crypto.ts`. A client parses the
ledger of a contract, makes a reference from a registry that is frozen, and compares the reference with what
a referendum is bound to.
-/

namespace MidnightReferendum.Passport

open MidnightReferendum.Compact Checks Merkle Js

/-! ## Addresses -/

/-- `value.replace(/^0x/u, '')` -/
def dropHexMark (s : JsString) : JsString := if js "0x" <+: s then s.drop 2 else s

/-- Hash functions, and the bytes of 64 hexadecimal digits. -/
structure Bytes (B D : Type) extends Hashing B D where
  ofHex : JsString → B

section Binding

variable {B D : Type} (H : Bytes B D)

def addressNotHex : String := "Registry contract address must be exactly 32-byte hexadecimal data"

/-- Characters outside ASCII are no hexadecimal digits in lower case either. -/
def deriveRegistryContractBinding (registryContractAddress : JsString) : Except String B :=
  let normalized := lowerHex (dropHexMark (trimmed registryContractAddress))
  if isDigest normalized then
    .ok (H.persistentHash [H.pad "cico:registry:address:v1", H.ofHex normalized])
  else .error addressNotHex

end Binding

/-! ## Ledgers -/

structure CredentialRegistryV1State (B D : Type) where
  registryId : B
  issuerId : B
  credentialEpoch : ℕ
  currentRoot : D
  frozenRoot : D
  frozen : Bool
  credentialCount : ℕ

/-- The fields of a referendum that clients compare. -/
structure ReferendumV2State (B D : Type) where
  registryId : B
  issuerId : B
  credentialEpoch : ℕ
  initialCredentialRoot : D
  registryContractBinding : B
  eventId : B
  phase : Phase
  closed : Bool

section Ledgers

variable {B D : Type} (H : Hashing B D)

def parseCredentialRegistryV1 (cfg : CredentialRegistryV1.Sealed B) (ledger : CredentialRegistryV1.Ledger B D) :
    CredentialRegistryV1State B D where
  registryId := cfg.registryId
  issuerId := cfg.issuerId
  credentialEpoch := cfg.credentialEpoch.toNat
  currentRoot := CredentialRegistryV1.currentRoot H ledger
  frozenRoot := ledger.frozenRoot
  frozen := ledger.frozen
  credentialCount := ledger.credentialCount

variable {H} in
def parseReferendumV2 (cfg : ReferendumV2.Sealed B D) (ledger : ReferendumV2.Ledger H) :
    ReferendumV2State B D where
  registryId := cfg.registryId
  issuerId := cfg.issuerId
  credentialEpoch := cfg.credentialEpoch.toNat
  initialCredentialRoot := cfg.initialCredentialRoot
  registryContractBinding := cfg.registryContractBinding
  eventId := cfg.eventId
  phase := ledger.phase
  closed := ledger.closed

variable [DecidableEq B]

def notInRegistry : String := "Credential is not present in the canonical registry"

def findCredentialPath (ledger : CredentialRegistryV1.Ledger B D) (credentialLeaf : B) :
    Except String (Path B D 16) :=
  match findPathForLeaf H.tree 16 ledger.credentials.leaves credentialLeaf with
  | some path => .ok path
  | none => .error notInRegistry

end Ledgers

/-! ## References to a registry -/

structure FrozenCredentialRegistryReference (B D : Type) where
  registryContractAddress : JsString
  registryContractBinding : B
  registryId : B
  issuerId : B
  credentialEpoch : ℕ
  frozenRoot : D

structure ReferendumV2RegistryBinding (B D : Type) where
  registryId : B
  issuerId : B
  credentialEpoch : ℕ
  initialCredentialRoot : D
  registryContractBinding : B

def ReferendumV2State.binding {B D : Type} (state : ReferendumV2State B D) : ReferendumV2RegistryBinding B D where
  registryId := state.registryId
  issuerId := state.issuerId
  credentialEpoch := state.credentialEpoch
  initialCredentialRoot := state.initialCredentialRoot
  registryContractBinding := state.registryContractBinding

section References

variable {B D : Type} (H : Bytes B D) [DecidableEq D]

def notFrozen : String := "Credential registry must be canonically frozen"

def createFrozenCredentialRegistryReference (registryContractAddress : JsString)
    (state : CredentialRegistryV1State B D) : Except String (FrozenCredentialRegistryReference B D) := do
  let registryContractBinding ← deriveRegistryContractBinding H registryContractAddress
  check (state.frozen = true) notFrozen
  check (state.frozenRoot = state.currentRoot) "Credential registry must freeze its current canonical root"
  pure {
    registryContractAddress
    registryContractBinding
    registryId := state.registryId
    issuerId := state.issuerId
    credentialEpoch := state.credentialEpoch
    frozenRoot := state.frozenRoot }

variable [DecidableEq B]

def assertReferendumRegistryBinding (reference : FrozenCredentialRegistryReference B D)
    (binding : ReferendumV2RegistryBinding B D) : Except String Unit := do
  check (reference.registryId = binding.registryId) "Referendum registry ID does not match the frozen registry"
  check (reference.issuerId = binding.issuerId) "Referendum issuer ID does not match the frozen registry"
  check (reference.credentialEpoch = binding.credentialEpoch)
    "Referendum credential epoch does not match the frozen registry"
  check (reference.frozenRoot = binding.initialCredentialRoot)
    "Referendum root does not match the canonical frozen registry root"
  let expectedRegistryContractBinding ← deriveRegistryContractBinding H reference.registryContractAddress
  check (expectedRegistryContractBinding = binding.registryContractBinding)
    "Referendum registry contract binding does not match the frozen registry"

variable {H}

omit [DecidableEq B] in
/-- A reference is made only from a registry that has frozen its current root. -/
theorem createFrozenCredentialRegistryReference_eq_ok {registryContractAddress : JsString}
    {state : CredentialRegistryV1State B D} {reference : FrozenCredentialRegistryReference B D} :
    createFrozenCredentialRegistryReference H registryContractAddress state = .ok reference ↔
      ∃ binding, deriveRegistryContractBinding H registryContractAddress = .ok binding ∧
        state.frozen = true ∧ state.frozenRoot = state.currentRoot ∧
        reference = ⟨registryContractAddress, binding, state.registryId, state.issuerId, state.credentialEpoch,
          state.frozenRoot⟩ := by
  simp only [createFrozenCredentialRegistryReference, bind_eq_ok, check_eq_ok, exists_and_left, exists_const,
    pure, Except.pure, Except.ok.injEq, eq_comm (a := reference)]

/-- A reference belongs to a binding if they have the same data, and its address is the one that is bound. -/
theorem assertReferendumRegistryBinding_eq_ok {reference : FrozenCredentialRegistryReference B D}
    {binding : ReferendumV2RegistryBinding B D} {u : Unit} :
    assertReferendumRegistryBinding H reference binding = .ok u ↔
      reference.registryId = binding.registryId ∧ reference.issuerId = binding.issuerId ∧
        reference.credentialEpoch = binding.credentialEpoch ∧
        reference.frozenRoot = binding.initialCredentialRoot ∧
        deriveRegistryContractBinding H reference.registryContractAddress =
          .ok binding.registryContractBinding := by
  simp only [assertReferendumRegistryBinding, bind_eq_ok, check_eq_ok, exists_eq_right, exists_const]

end References

/-! ## Symbolic values -/

/-- The bytes of hexadecimal digits are the number that has them as its digits. -/
def symbolicBytes : Bytes Term Digest :=
  { symbolic with ofHex := fun digits ↦ .uint (digits.foldl (fun n u ↦ n * 65536 + u.toNat) 0) }

/-- An address that ends in a digit. -/
def sampleAddress (digit : Char) : JsString := js (String.ofList (List.replicate 63 '0' ++ [digit]))

end MidnightReferendum.Passport
