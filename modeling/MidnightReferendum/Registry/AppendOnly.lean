import MidnightReferendum.Compact.Symbolic
import MidnightReferendum.Registry.Contract

/-!
# The registry only grows

Every accepted call keeps the leaves in place, so the leaves of a state are a prefix of the leaves of
every later state. Together with the soundness of Merkle paths this carries each membership proof
against a root that was once current to all later roots, and it makes a root that has been left
behind impossible to attest.
-/

namespace MidnightReferendum.CredentialRegistryV1

open MidnightReferendum.Compact Execution Merkle

variable {B D : Type} {H : Hashing B D} {cfg : Sealed B}

/-- The counter counts the leaves, and a frozen registry records its current root. -/
structure Consistent (H : Hashing B D) (s : Ledger B D) : Prop where
  count : s.credentialCount = s.credentials.leaves.length
  frozenRoot : s.frozen = true → s.frozenRoot = currentRoot H s

/-- What a later state keeps of an earlier one. -/
structure Extends (H : Hashing B D) (s t : Ledger B D) : Prop where
  leaves : s.credentials.leaves <+: t.credentials.leaves
  frozen : s.frozen = true → t.frozen = true ∧ t.frozenRoot = s.frozenRoot ∧
    t.credentials.leaves = s.credentials.leaves ∧ t.credentialCount = s.credentialCount

theorem currentRoot_congr {s t : Ledger B D} (h : t.credentials.leaves = s.credentials.leaves) :
    currentRoot H t = currentRoot H s := by
  simp only [currentRoot, Tree.root, h]

theorem initialState_consistent : Consistent H (initialState H : Ledger B D) where
  count := rfl
  frozenRoot h := absurd h (by simp [initialState])

theorem extends_refl (s : Ledger B D) : Extends H s s :=
  ⟨List.prefix_rfl, fun h ↦ ⟨h, rfl, rfl, rfl⟩⟩

theorem extends_trans {s t u : Ledger B D} (hst : Extends H s t) (htu : Extends H t u) :
    Extends H s u := by
  refine ⟨hst.leaves.trans htu.leaves, fun h ↦ ?_⟩
  obtain ⟨hfrozen, hroot, hleaves, hcount⟩ := hst.frozen h
  obtain ⟨hfrozen', hroot', hleaves', hcount'⟩ := htu.frozen hfrozen
  exact ⟨hfrozen', hroot'.trans hroot, hleaves'.trans hleaves, hcount'.trans hcount⟩

variable [DecidableEq B] [DecidableEq D]

theorem step_consistent (s : Ledger B D) (c : Call B D) (s' : Ledger B D) (hs : Consistent H s)
    (h : step H cfg s c = .ok s') : Consistent H s' := by
  cases c with
  | addCredential issuerSecret w =>
    obtain ⟨_, hopen, hleaves, _, hfrozen, hcount⟩ := addCredential_ok h
    refine ⟨?_, fun ht ↦ ?_⟩
    · rw [hcount, hs.count, hleaves, List.length_append, List.length_singleton]
    · rw [hfrozen, hopen] at ht
      exact absurd ht Bool.false_ne_true
  | attestCurrentRoot candidateRoot =>
    rw [(attestCurrentRoot_ok.mp h).2]
    exact hs
  | freeze issuerSecret candidateRoot =>
    obtain ⟨_, _, hroot, rfl⟩ := freeze_ok h
    exact ⟨hs.count, fun _ ↦ hroot.symm⟩

theorem step_extends (s : Ledger B D) (c : Call B D) (s' : Ledger B D)
    (h : step H cfg s c = .ok s') : Extends H s s' := by
  cases c with
  | addCredential issuerSecret w =>
    obtain ⟨_, hopen, hleaves, _, _, _⟩ := addCredential_ok h
    refine ⟨?_, fun ht ↦ ?_⟩
    · rw [hleaves]
      exact List.prefix_append _ _
    · rw [hopen] at ht
      exact absurd ht Bool.false_ne_true
  | attestCurrentRoot candidateRoot =>
    rw [(attestCurrentRoot_ok.mp h).2]
    exact extends_refl s
  | freeze issuerSecret candidateRoot =>
    obtain ⟨_, hopen, _, rfl⟩ := freeze_ok h
    refine ⟨List.prefix_rfl, fun ht ↦ ?_⟩
    rw [hopen] at ht
    exact absurd ht Bool.false_ne_true

variable (H cfg) in
theorem run_extends (s : Ledger B D) (calls : List (Call B D)) :
    Extends H s (runCalls H cfg s calls) :=
  run_relation extends_refl extends_trans step_extends s calls

/-- An accepted `addCredential` makes the tree strictly larger. -/
theorem length_lt_of_addCredential {s : Ledger B D} {calls : List (Call B D)} {e : Ledger B D × Call B D}
    {issuerSecret : B} {w : LeafWitness B} (he : e ∈ accepted (step H cfg) s calls)
    (hcall : e.2 = .addCredential issuerSecret w) :
    s.credentials.leaves.length < (runCalls H cfg s calls).credentials.leaves.length := by
  obtain ⟨pre, post, t, rfl, hstate, hok⟩ := mem_accepted he
  rw [hcall] at hok
  have hbefore := (run_extends H cfg s pre).leaves.length_le
  have hafter := (run_extends H cfg t post).leaves.length_le
  obtain ⟨_, _, hleaves, _⟩ := addCredential_ok hok
  rw [hleaves, List.length_append, List.length_singleton, hstate] at hafter
  rw [hcall, runCalls, run_append, run_cons, apply_of_ok (hstate ▸ hok)]
  change _ < (run (step H cfg) t post).credentials.leaves.length
  change _ ≤ (run (step H cfg) s pre).credentials.leaves.length at hbefore
  change _ ≤ (run (step H cfg) t post).credentials.leaves.length at hafter
  omega

/-- The issuer secret that a call answers, if it asks for one. -/
def Call.issuerSecret : Call B D → Option B
  | .addCredential issuerSecret _ => some issuerSecret
  | .attestCurrentRoot _ => none
  | .freeze issuerSecret _ => some issuerSecret

/-- The root that a call compares with the current one. -/
def Call.candidateRoot : Call B D → Option D
  | .addCredential _ _ => none
  | .attestCurrentRoot candidateRoot => some candidateRoot
  | .freeze _ candidateRoot => some candidateRoot

/-- A call that names a root is accepted only while this root is current. -/
theorem currentRoot_of_candidateRoot {s s' : Ledger B D} {c : Call B D} {root : D}
    (hroot : c.candidateRoot = some root) (h : step H cfg s c = .ok s') : currentRoot H s = root := by
  cases c with
  | addCredential issuerSecret w => simp [Call.candidateRoot] at hroot
  | attestCurrentRoot candidateRoot =>
    exact (attestCurrentRoot_ok.mp h).1.trans (Option.some.inj hroot)
  | freeze issuerSecret candidateRoot =>
    exact (freeze_ok h).2.2.1.trans (Option.some.inj hroot)

/-- What holds in a reachable state of the registry and in everything after it. -/
structure AppendOnly (H : Hashing B D) (cfg : Sealed B) (s : Ledger B D) : Prop where
  count : s.credentialCount = s.credentials.leaves.length
  capacity : s.credentialCount ≤ 2 ^ 16
  issuer_only : ∀ c s', step H cfg s c = .ok s' →
    s'.credentials.leaves ≠ s.credentials.leaves ∨ s'.frozen ≠ s.frozen →
    ∃ issuerSecret, c.issuerSecret = some issuerSecret ∧ IsIssuer H cfg issuerSecret
  historic_path : ∀ c s' root, c.candidateRoot = some root → step H cfg s c = .ok s' →
    ∀ later leaf, Tree.Opens H.tree 16 leaf root →
      Tree.Opens H.tree 16 leaf (currentRoot H (runCalls H cfg s later))
  frozen_final : s.frozen = true → s.frozenRoot = currentRoot H s ∧
    ∀ later, (runCalls H cfg s later).frozen = true ∧
      (runCalls H cfg s later).frozenRoot = s.frozenRoot ∧
      currentRoot H (runCalls H cfg s later) = currentRoot H s ∧
      (runCalls H cfg s later).credentialCount = s.credentialCount
  attest_iff : ∀ root, (∃ s', step H cfg s (.attestCurrentRoot root) = .ok s') ↔
    root = currentRoot H s
  attest_pure : ∀ root s', step H cfg s (.attestCurrentRoot root) = .ok s' → s' = s
  attest_stale : ∀ later e issuerSecret w, e ∈ accepted (step H cfg) s later →
    e.2 = .addCredential issuerSecret w →
    ∀ s', step H cfg (runCalls H cfg s later) (.attestCurrentRoot (currentRoot H s)) ≠ .ok s'

theorem issuer_of_change {s s' : Ledger B D} {c : Call B D} (h : step H cfg s c = .ok s')
    (hchange : s'.credentials.leaves ≠ s.credentials.leaves ∨ s'.frozen ≠ s.frozen) :
    ∃ issuerSecret, c.issuerSecret = some issuerSecret ∧ IsIssuer H cfg issuerSecret := by
  cases c with
  | addCredential issuerSecret w => exact ⟨issuerSecret, rfl, (addCredential_ok h).1⟩
  | attestCurrentRoot candidateRoot =>
    rw [(attestCurrentRoot_ok.mp h).2] at hchange
    simp at hchange
  | freeze issuerSecret candidateRoot => exact ⟨issuerSecret, rfl, (freeze_ok h).1⟩

/-- A membership proof against the root of a state stays possible in every later state. -/
theorem opens_later (hH : H.CollisionFree) {s : Ledger B D} {leaf : B}
    (h : Tree.Opens H.tree 16 leaf (currentRoot H s)) (later : List (Call B D)) :
    Tree.Opens H.tree 16 leaf (currentRoot H (runCalls H cfg s later)) := by
  have hleaf := (Tree.opens_root_iff hH.tree_sound).mp h
  have hgrow := (run_extends H cfg s later).leaves
  exact (Tree.opens_root_iff hH.tree_sound).mpr (hgrow.subset hleaf)

theorem registry_append_only (hH : H.CollisionFree) (cfg : Sealed B) (calls : List (Call B D)) :
    AppendOnly H cfg (runCalls H cfg (initialState H) calls) := by
  have hconsistent : Consistent H (runCalls H cfg (initialState H) calls) :=
    run_invariant step_consistent initialState_consistent calls
  generalize runCalls H cfg (initialState H) calls = s at hconsistent
  exact {
    count := hconsistent.count
    capacity := hconsistent.count.le.trans s.credentials.length_le
    issuer_only := fun c s' h hchange ↦ issuer_of_change h hchange
    historic_path := by
      intro c s' root hroot h later leaf hleaf
      rw [← currentRoot_of_candidateRoot hroot h] at hleaf
      exact opens_later hH hleaf later
    frozen_final := by
      intro hfrozen
      refine ⟨hconsistent.frozenRoot hfrozen, fun later ↦ ?_⟩
      obtain ⟨hfrozen', hroot, hleaves, hcount⟩ := (run_extends H cfg s later).frozen hfrozen
      exact ⟨hfrozen', hroot, currentRoot_congr hleaves, hcount⟩
    attest_iff := by
      intro root
      simp only [attestCurrentRoot_ok, exists_and_left, exists_eq, and_true]
      exact eq_comm
    attest_pure := fun root s' h ↦ (attestCurrentRoot_ok.mp h).2
    attest_stale := by
      intro later e issuerSecret w he hcall s' h
      have hlength := length_lt_of_addCredential he hcall
      have hroot := (attestCurrentRoot_ok.mp h).1
      have hleaves := Tree.leaves_eq_of_root_eq hH.tree_sound hroot
      rw [hleaves] at hlength
      exact absurd hlength (lt_irrefl _) }

/-! ## A concrete registry -/

/-- A registry over symbolic values whose issuer secret is the number one. -/
def sampleSealed : Sealed Term where
  registryId := .uint 6
  issuerId := .uint 4
  credentialEpoch := 7
  issuerKey := roleKey symbolic (symbolic.pad "cico:registry:issuer:") (.uint 1)

def sampleLeaf (holderBinding : Term) : LeafWitness Term where
  holderBinding := holderBinding
  credentialCountry := .text "032"
  credentialAgeClass := 2
  credentialAssurance := 2
  credentialValidUntil := 2000000000
  credentialBlind := .uint 3

def sampleLedger (calls : List (Call Term Digest)) : Ledger Term Digest :=
  runCalls symbolic sampleSealed (initialState symbolic) calls

/-- Two credentials are added by the issuer, one by a stranger, and the registry is frozen. -/
def sampleCalls : List (Call Term Digest) :=
  let adds := [.addCredential (.uint 1) (sampleLeaf (.uint 10)),
    .addCredential (.uint 9) (sampleLeaf (.uint 11)), .addCredential (.uint 1) (sampleLeaf (.uint 12))]
  adds ++ [.freeze (.uint 1) (currentRoot symbolic (sampleLedger adds))]

theorem registry_append_only_sample :
    AppendOnly symbolic sampleSealed (sampleLedger sampleCalls) ∧
      (sampleLedger sampleCalls).credentialCount = 2 ∧ (sampleLedger sampleCalls).frozen = true :=
  ⟨registry_append_only symbolic_collisionFree sampleSealed sampleCalls, by decide +kernel,
    by decide +kernel⟩

end MidnightReferendum.CredentialRegistryV1
