import MidnightReferendum.ReferendumV2.OneVote

/-!
# Auditing the admitted roots

Registries and referenda live on one chain, each at its own address. A referendum names its registry in
`registryContract` but cannot read it, so its publisher may publish any digest. An accepted `attestCurrentRoot` of the
named registry is the evidence that a root is genuine. Where every accepted root has such an attestation before it, each
vote is cast with a credential that the issuer of the named registry added before the attestation, and the claims that
the issuer committed to are the claims of the vote. Registries at other addresses do not count.
-/

namespace MidnightReferendum.RootAudit

open MidnightReferendum.Compact Execution Merkle

variable {B D : Type} (H : Hashing B D)

/-- A deployed contract: its sealed fields and its ledger. -/
inductive Contract where
  | registry (cfg : CredentialRegistryV1.Sealed B) (ledger : CredentialRegistryV1.Ledger B D)
  | referendum (cfg : ReferendumV2.Sealed B D) (ledger : ReferendumV2.Ledger H)

/-- What a transaction does at the address that it is sent to. -/
inductive Transaction (B D : Type) where
  | deployRegistry (cfg : CredentialRegistryV1.Sealed B)
  | deployReferendum (cfg : ReferendumV2.Sealed B D)
  | callRegistry (call : CredentialRegistryV1.Call B D)
  | callReferendum (tx : ReferendumV2.Tx B D)

/-- The accepted transactions in order, each with its address, and the contracts by address. -/
structure Chain where
  transactions : List (B × Transaction B D)
  contracts : B → Option (Contract H)

/-- The chain before the first transaction. -/
def Chain.empty : Chain H := ⟨[], fun _ ↦ none⟩

variable [DecidableEq B] [DecidableEq D]

/-- The contract at an address after a transaction. -/
def contractStep : Option (Contract H) → Transaction B D → Except String (Contract H)
  | none, .deployRegistry cfg => .ok (.registry cfg (CredentialRegistryV1.initialState H))
  | none, .deployReferendum cfg => (ReferendumV2.initialState H cfg).map (.referendum cfg)
  | some (.registry cfg s), .callRegistry call => (CredentialRegistryV1.step H cfg s call).map (.registry cfg)
  | some (.referendum cfg s), .callReferendum tx => (ReferendumV2.step H cfg s tx).map (.referendum cfg)
  | _, _ => .error "No such contract"

/-- One transaction, sent to an address. -/
def chainStep (c : Chain H) (t : B × Transaction B D) : Except String (Chain H) :=
  (contractStep H (c.contracts t.1) t.2).map fun contract ↦
    { transactions := c.transactions ++ [t], contracts := Function.update c.contracts t.1 (some contract) }

variable {H}

theorem chainStep_ok {c c' : Chain H} {t : B × Transaction B D} (h : chainStep H c t = .ok c') :
    ∃ contract, contractStep H (c.contracts t.1) t.2 = .ok contract ∧ c'.transactions = c.transactions ++ [t] ∧
      c'.contracts = Function.update c.contracts t.1 (some contract) := by
  cases hcontract : contractStep H (c.contracts t.1) t.2 with
  | ok contract =>
    rw [chainStep, hcontract] at h
    cases h
    exact ⟨contract, rfl, rfl, rfl⟩
  | error message =>
    rw [chainStep, hcontract] at h
    cases h

theorem map_eq_ok {α β : Type} {g : α → β} {x : Except String α} {b : β} (h : x.map g = .ok b) :
    ∃ a, x = .ok a ∧ b = g a := by
  cases x with
  | ok a => exact ⟨a, rfl, (Except.ok.inj h).symm⟩
  | error message => cases h

/-- All that an accepted transaction can do to the contract at its address. -/
inductive ContractMove (H : Hashing B D) : Option (Contract H) → Transaction B D → Contract H → Prop where
  | deployRegistry (cfg : CredentialRegistryV1.Sealed B) :
      ContractMove H none (.deployRegistry cfg) (.registry cfg (CredentialRegistryV1.initialState H))
  | deployReferendum (cfg : ReferendumV2.Sealed B D) {s : ReferendumV2.Ledger H}
      (initial : ReferendumV2.initialState H cfg = .ok s) :
      ContractMove H none (.deployReferendum cfg) (.referendum cfg s)
  | callRegistry {cfg : CredentialRegistryV1.Sealed B} {s s' : CredentialRegistryV1.Ledger B D}
      {call : CredentialRegistryV1.Call B D} (ok : CredentialRegistryV1.step H cfg s call = .ok s') :
      ContractMove H (some (.registry cfg s)) (.callRegistry call) (.registry cfg s')
  | callReferendum {cfg : ReferendumV2.Sealed B D} {s s' : ReferendumV2.Ledger H} {tx : ReferendumV2.Tx B D}
      (ok : ReferendumV2.step H cfg s tx = .ok s') :
      ContractMove H (some (.referendum cfg s)) (.callReferendum tx) (.referendum cfg s')

theorem contractMove_of_step {before : Option (Contract H)} {t : Transaction B D} {after : Contract H}
    (h : contractStep H before t = .ok after) : ContractMove H before t after := by
  unfold contractStep at h
  split at h
  · cases h
    exact .deployRegistry _
  · obtain ⟨s, hinitial, rfl⟩ := map_eq_ok h
    exact .deployReferendum _ hinitial
  · obtain ⟨s, hok, rfl⟩ := map_eq_ok h
    exact .callRegistry hok
  · obtain ⟨s, hok, rfl⟩ := map_eq_ok h
    exact .callReferendum hok
  · cases h

/-! ## What the chain records -/

/-- The claims that the issuer commits to when it adds a credential. -/
def issuedClaims (cfg : CredentialRegistryV1.Sealed B) (w : CredentialRegistryV1.LeafWitness B) :
    CredentialClaims B where
  holderBinding := w.holderBinding
  country := w.credentialCountry
  ageClass := w.credentialAgeClass
  assurance := w.credentialAssurance
  epoch := cfg.credentialEpoch
  validUntil := w.credentialValidUntil
  blind := w.credentialBlind

/-- The issuer of a registry has added a leaf in one of the transactions. -/
def Issued (H : Hashing B D) (transactions : List (B × Transaction B D)) (registry : B)
    (cfg : CredentialRegistryV1.Sealed B) (leaf : B) : Prop :=
  ∃ secret w, (registry, .callRegistry (.addCredential secret w)) ∈ transactions ∧
    CredentialRegistryV1.IsIssuer H cfg secret ∧ CredentialRegistryV1.credentialLeaf H cfg w = leaf

/-- The root of a tree all of whose leaves are issued. -/
def IssuedRoot (H : Hashing B D) (transactions : List (B × Transaction B D)) (registry : B)
    (cfg : CredentialRegistryV1.Sealed B) (root : D) : Prop :=
  ∃ leaves, Merkle.root H.tree 16 leaves = root ∧ ∀ leaf ∈ leaves, Issued H transactions registry cfg leaf

/-- The root that a transaction attests. -/
def Transaction.attested : Transaction B D → Option D
  | .callRegistry (.attestCurrentRoot root) => some root
  | _ => none

omit [DecidableEq B] [DecidableEq D] in
theorem eq_attestation {t : Transaction B D} {root : D} (h : t.attested = some root) :
    t = .callRegistry (.attestCurrentRoot root) := by
  unfold Transaction.attested at h
  split at h
  · rw [Option.some.inj h]
  · cases h

/-- The registry at an address has attested a root. -/
def Attested (c : Chain H) (registry : B) (root : D) : Prop :=
  (registry, .callRegistry (.attestCurrentRoot root)) ∈ c.transactions

instance (c : Chain H) (registry : B) (root : D) : Decidable (Attested c registry root) :=
  decidable_of_iff ((registry, some root) ∈ c.transactions.map fun t ↦ (t.1, t.2.attested)) <| by
    rw [List.mem_map]
    constructor
    · rintro ⟨⟨address, t⟩, hmem, hattested⟩
      obtain ⟨rfl, hroot⟩ := Prod.mk.inj hattested
      obtain rfl : t = .callRegistry (.attestCurrentRoot root) := eq_attestation hroot
      exact hmem
    · exact fun hmem ↦ ⟨_, hmem, rfl⟩

/-- The registry and the root that a transaction asks a referendum to accept. -/
def admission (c : Chain H) : B × Transaction B D → Option (B × D)
  | (_, .deployReferendum cfg) => some (cfg.registryContract, cfg.initialCredentialRoot)
  | (address, .callReferendum ⟨_, .publishCredentialRoot root _⟩) =>
    match c.contracts address with
    | some (.referendum cfg _) => some (cfg.registryContract, root)
    | _ => none
  | _ => none

/-- A root is attested by the registry of the referendum before the referendum is asked to accept it. -/
def AuditedStep (c : Chain H) (t : B × Transaction B D) : Prop := ∀ a ∈ admission c t, Attested c a.1 a.2

instance (c : Chain H) (t : B × Transaction B D) : Decidable (AuditedStep c t) :=
  inferInstanceAs (Decidable (∀ a ∈ admission c t, Attested c a.1 a.2))

/-- What the chain shows about a vote that is accepted: the credential that the vote proves was added by the issuer of
the registry that the referendum names, and the registry has attested the root of the vote after that. -/
def CastByEnrolled (H : Hashing B D) (c : Chain H) (address : B) (w : ReferendumV2.CastVoteWitness B D) : Prop :=
  ∃ cfg s reg registry, c.contracts address = some (.referendum cfg s) ∧
    c.contracts cfg.registryContract = some (.registry reg registry) ∧
    ∃ before after secret leaf,
      c.transactions = before ++
        (cfg.registryContract, .callRegistry (.attestCurrentRoot (pathRoot H.tree w.voterPath))) :: after ∧
      (cfg.registryContract, .callRegistry (.addCredential secret leaf)) ∈ before ∧
      CredentialRegistryV1.IsIssuer H reg secret ∧ reg.issuerId = cfg.issuerId ∧ issuedClaims reg leaf = w.leafClaims ∧
      (ReferendumV2.ClaimAnswersAgree cfg w → ReferendumV2.MeetsPolicy cfg (issuedClaims reg leaf))

/-- What the contracts of a chain owe to its transactions. -/
structure Audited (c : Chain H) : Prop where
  leaves : ∀ address cfg s, c.contracts address = some (.registry cfg s) → ∀ leaf ∈ s.credentials.leaves,
    Issued H c.transactions address cfg leaf
  attested : ∀ before after address root,
    c.transactions = before ++ (address, .callRegistry (.attestCurrentRoot root)) :: after →
      ∃ cfg s, c.contracts address = some (.registry cfg s) ∧ IssuedRoot H before address cfg root
  accepted : ∀ address cfg s, c.contracts address = some (.referendum cfg s) →
    ∀ root ∈ s.acceptedCredentialRoots, Attested c cfg.registryContract root

omit [DecidableEq B] [DecidableEq D] in
theorem Issued.mono {transactions later : List (B × Transaction B D)} {registry leaf : B}
    {cfg : CredentialRegistryV1.Sealed B} (h : Issued H transactions registry cfg leaf)
    (hsub : transactions ⊆ later) : Issued H later registry cfg leaf := by
  obtain ⟨secret, w, hadd, hissuer, hleaf⟩ := h
  exact ⟨secret, w, hsub hadd, hissuer, hleaf⟩

omit [DecidableEq B] [DecidableEq D] in
theorem empty_audited : Audited (Chain.empty H) where
  leaves := fun _ _ _ h ↦ by cases h
  attested := fun before after _ _ h ↦ absurd h (by simp [Chain.empty])
  accepted := fun _ _ _ h ↦ by cases h

/-- A leaf of the registry after a call was there before, or the call adds it. -/
theorem issued_of_call {transactions : List (B × Transaction B D)} {address : B}
    {cfg : CredentialRegistryV1.Sealed B} {s s' : CredentialRegistryV1.Ledger B D}
    {call : CredentialRegistryV1.Call B D} (hok : CredentialRegistryV1.step H cfg s call = .ok s')
    (hleaves : ∀ leaf ∈ s.credentials.leaves, Issued H transactions address cfg leaf) {leaf : B}
    (hleaf : leaf ∈ s'.credentials.leaves) :
    Issued H (transactions ++ [(address, .callRegistry call)]) address cfg leaf := by
  have hkept : leaf ∈ s.credentials.leaves → Issued H (transactions ++ [(address, .callRegistry call)]) address cfg leaf :=
    fun h ↦ (hleaves leaf h).mono (List.subset_append_left _ _)
  cases call with
  | addCredential secret w =>
    obtain ⟨hissuer, _, hgrown, _⟩ := CredentialRegistryV1.addCredential_ok hok
    rw [hgrown, List.mem_append, List.mem_singleton] at hleaf
    cases hleaf with
    | inl hold => exact hkept hold
    | inr hnew => exact ⟨secret, w, List.mem_append_right _ List.mem_cons_self, hissuer, hnew.symm⟩
  | attestCurrentRoot root =>
    rw [(CredentialRegistryV1.attestCurrentRoot_ok.mp hok).2] at hleaf
    exact hkept hleaf
  | freeze secret root =>
    rw [(CredentialRegistryV1.freeze_ok hok).2.2.2] at hleaf
    exact hkept hleaf

/-- A contract keeps its sealed fields. -/
theorem registry_kept {c c' : Chain H} {t : B × Transaction B D} (h : chainStep H c t = .ok c') {address : B}
    {cfg : CredentialRegistryV1.Sealed B} {s : CredentialRegistryV1.Ledger B D}
    (hregistry : c.contracts address = some (.registry cfg s)) :
    ∃ s', c'.contracts address = some (.registry cfg s') := by
  obtain ⟨contract, hok, _, hcontracts⟩ := chainStep_ok h
  obtain ⟨target, t⟩ := t
  rw [hcontracts]
  by_cases haddress : address = target
  · subst haddress
    rw [Function.update_self]
    rw [hregistry] at hok
    cases contractMove_of_step hok with
    | callRegistry _ => exact ⟨_, rfl⟩
  · rw [Function.update_of_ne haddress]
    exact ⟨s, hregistry⟩

omit [DecidableEq B] [DecidableEq D] in
theorem Attested.concat {c c' : Chain H} {t : B × Transaction B D} (htransactions : c'.transactions = c.transactions ++ [t])
    {registry : B} {root : D} (h : Attested c registry root) : Attested c' registry root := by
  rw [Attested, htransactions]
  exact List.mem_append_left _ h

theorem Audited.leaves_step {c c' : Chain H} {t : B × Transaction B D} (hc : Audited c) (h : chainStep H c t = .ok c') :
    ∀ address cfg s, c'.contracts address = some (.registry cfg s) → ∀ leaf ∈ s.credentials.leaves,
      Issued H c'.transactions address cfg leaf := by
  obtain ⟨contract, hok, htransactions, hcontracts⟩ := chainStep_ok h
  obtain ⟨target, t⟩ := t
  intro address cfg s hregistry leaf hleaf
  rw [htransactions]
  by_cases haddress : address = target
  · subst haddress
    rw [hcontracts, Function.update_self, Option.some.injEq] at hregistry
    subst hregistry
    generalize hbefore : c.contracts address = before at hok
    cases contractMove_of_step hok with
    | deployRegistry _ => cases hleaf
    | callRegistry hcall => exact issued_of_call hcall (hc.leaves address cfg _ hbefore) hleaf
  · rw [hcontracts, Function.update_of_ne haddress] at hregistry
    exact (hc.leaves address cfg s hregistry leaf hleaf).mono (List.subset_append_left _ _)

theorem Audited.attested_step {c c' : Chain H} {t : B × Transaction B D} (hc : Audited c) (h : chainStep H c t = .ok c') :
    ∀ before after address root,
      c'.transactions = before ++ (address, .callRegistry (.attestCurrentRoot root)) :: after →
        ∃ cfg s, c'.contracts address = some (.registry cfg s) ∧ IssuedRoot H before address cfg root := by
  intro before after address root hsplit
  obtain ⟨contract, hok, htransactions, hcontracts⟩ := chainStep_ok h
  rw [htransactions] at hsplit
  -- The attestation is the last transaction or an earlier one.
  cases after using List.reverseRecOn with
  | nil =>
    obtain ⟨hbefore, hlast⟩ := List.append_inj' hsplit rfl
    obtain rfl := List.head_eq_of_cons_eq hlast
    subst hbefore
    generalize hcontract : c.contracts address = contract at hok
    cases contractMove_of_step hok with
    | callRegistry hcall =>
      obtain ⟨hroot, _⟩ := CredentialRegistryV1.attestCurrentRoot_ok.mp hcall
      refine ⟨_, _, by rw [hcontracts, Function.update_self], _, hroot, ?_⟩
      exact hc.leaves address _ _ hcontract
  | append_singleton after last _ =>
    rw [← List.cons_append, ← List.append_assoc] at hsplit
    have hearlier := (List.append_inj' hsplit rfl).1
    obtain ⟨cfg, s, hregistry, hissued⟩ := hc.attested before after address root hearlier
    obtain ⟨s', hkept⟩ := registry_kept h hregistry
    exact ⟨cfg, s', hkept, hissued⟩

/-- An accepted root of the referendum after a transaction was accepted before, or the transaction publishes it. -/
theorem accepted_of_call {cfg : ReferendumV2.Sealed B D} {s s' : ReferendumV2.Ledger H} {tx : ReferendumV2.Tx B D}
    (hok : ReferendumV2.step H cfg s tx = .ok s') {root : D} (hroot : root ∈ s'.acceptedCredentialRoots) :
    root ∈ s.acceptedCredentialRoots ∨ ∃ secret, tx.call = .publishCredentialRoot root secret := by
  cases ReferendumV2.rootMove_of_step hok with
  | stay haccepted _ => exact Or.inl (haccepted ▸ hroot)
  | publish new secret hcall _ haccepted _ =>
    rw [haccepted, Finset.mem_insert] at hroot
    cases hroot with
    | inl hnew => exact Or.inr ⟨secret, hnew ▸ hcall⟩
    | inr hold => exact Or.inl hold
  | revoke _ _ _ _ haccepted _ =>
    rw [haccepted] at hroot
    exact Or.inl (Finset.mem_of_mem_erase hroot)

theorem Audited.accepted_step {c c' : Chain H} {t : B × Transaction B D} (hc : Audited c) (haudit : AuditedStep c t)
    (h : chainStep H c t = .ok c') :
    ∀ address cfg s, c'.contracts address = some (.referendum cfg s) → ∀ root ∈ s.acceptedCredentialRoots,
      Attested c' cfg.registryContract root := by
  obtain ⟨contract, hok, htransactions, hcontracts⟩ := chainStep_ok h
  obtain ⟨target, t⟩ := t
  intro address cfg s hreferendum root hroot
  apply Attested.concat htransactions
  by_cases haddress : address = target
  · subst haddress
    rw [hcontracts, Function.update_self, Option.some.injEq] at hreferendum
    subst hreferendum
    generalize hbefore : c.contracts address = before at hok
    cases contractMove_of_step hok with
    | deployReferendum _ hinitial =>
      rw [(ReferendumV2.initialState_ok.mp hinitial).2] at hroot
      rw [Finset.mem_singleton.mp hroot]
      exact haudit _ rfl
    | @callReferendum cfg s₀ _ tx hcall =>
      cases accepted_of_call hcall hroot with
      | inl hold => exact hc.accepted address cfg s₀ hbefore root hold
      | inr hpublished =>
        obtain ⟨secret, hpublished⟩ := hpublished
        obtain ⟨now, call⟩ := tx
        obtain rfl : call = .publishCredentialRoot root secret := hpublished
        exact haudit (cfg.registryContract, root) (by rw [Option.mem_def, admission, hbefore])
  · rw [hcontracts, Function.update_of_ne haddress] at hreferendum
    exact hc.accepted address cfg s hreferendum root hroot

theorem Audited.step {c c' : Chain H} {t : B × Transaction B D} (hc : Audited c) (haudit : AuditedStep c t)
    (h : chainStep H c t = .ok c') : Audited c' :=
  ⟨hc.leaves_step h, hc.attested_step h, hc.accepted_step haudit h⟩

/-- A vote that an audited chain accepts. -/
theorem Audited.castByEnrolled (hH : H.CollisionFree) {c c' : Chain H} (hc : Audited c) {address : B} {now : UInt64}
    {w : ReferendumV2.CastVoteWitness B D} (h : chainStep H c (address, .callReferendum ⟨now, .castVote w⟩) = .ok c') :
    CastByEnrolled H c address w := by
  obtain ⟨contract, hok, _, _⟩ := chainStep_ok h
  generalize hreferendum : c.contracts address = before at hok
  cases contractMove_of_step hok with
  | @callReferendum cfg s _ _ hcall =>
    have hguards := (ReferendumV2.castVote_ok.mp hcall).1
    have hattested := hc.accepted address cfg s hreferendum _ hguards.root
    obtain ⟨before, after, hsplit⟩ := List.append_of_mem hattested
    obtain ⟨reg, registry, hregistry, leaves, hroot, hissued⟩ := hc.attested before after _ _ hsplit
    have hleaf := mem_of_foldPath_eq_root hH.tree_sound w.voterPath.length_path hroot.symm
    obtain ⟨secret, leaf, hadded, hissuer, hopened⟩ := hissued _ hleaf
    -- The leaf of the vote is the commitment to the issuer's claims, so it opens to these claims only.
    have hcommitment : credentialCommitment H reg.issuerId (issuedClaims reg leaf) =
        credentialCommitment H cfg.issuerId w.leafClaims := hopened.trans hguards.witness.leaf
    obtain ⟨hissuerId, hclaims⟩ := credentialCommitment_injective hH hcommitment
    refine ⟨cfg, s, reg, registry, hreferendum, hregistry, before, after, secret, leaf, hsplit, hadded, hissuer,
      hissuerId, hclaims, fun hagree ↦ ?_⟩
    rw [hclaims]
    exact ReferendumV2.meetsPolicy_leafClaims hguards.witness hagree

/-- In a run in which every root is attested before it is accepted, every vote is cast with an issued credential. -/
theorem votes_by_issued_credentials (hH : H.CollisionFree) (transactions : List (B × Transaction B D))
    (haudit : ∀ e ∈ accepted (chainStep H) (Chain.empty H) transactions, AuditedStep e.1 e.2) :
    ∀ e ∈ accepted (chainStep H) (Chain.empty H) transactions, ∀ address now w,
      e.2 = (address, .callReferendum ⟨now, .castVote w⟩) → CastByEnrolled H e.1 address w := by
  intro e he address now w hvote
  obtain ⟨pre, post, c', hsplit, hstate, hok⟩ := mem_accepted he
  have haudited : Audited (run (chainStep H) (Chain.empty H) pre) := by
    apply run_history (I := fun _ ↦ Audited) (P := fun e ↦ AuditedStep e.1 e.2)
    · exact fun _ _ _ _ hc haudit h ↦ hc.step haudit h
    · exact empty_audited
    · intro e' he'
      apply haudit e'
      rw [hsplit, accepted_append]
      exact List.mem_append_left _ he'
  rw [hvote] at hok
  rw [← hstate] at haudited
  exact haudited.castByEnrolled hH hok

/-! ## A concrete chain -/

open ReferendumV2 (sampleEnroll sampleRoot sampleVote sampleWitness)

/-- Two voters are enrolled when the referendum is deployed, and a third one is enrolled and admitted later. -/
def sampleTransactions : List (Term × Transaction Term Digest) :=
  [(.uint 9, .deployRegistry CredentialRegistryV1.sampleSealed), (.uint 9, .callRegistry (sampleEnroll 0)),
    (.uint 9, .callRegistry (sampleEnroll 1)), (.uint 9, .callRegistry (.attestCurrentRoot (sampleRoot 2))),
    (.uint 20, .deployReferendum ReferendumV2.sampleSealed), (.uint 20, .callReferendum (sampleVote 110 0 2 .yes 50)),
    (.uint 9, .callRegistry (sampleEnroll 2)), (.uint 9, .callRegistry (.attestCurrentRoot (sampleRoot 3))),
    (.uint 20, .callReferendum ⟨120, .publishCredentialRoot (sampleRoot 3) (.uint 2)⟩)]

theorem votes_by_issued_credentials_sample :
    CastByEnrolled symbolic (run (chainStep symbolic) (Chain.empty symbolic) sampleTransactions) (.uint 20)
      (sampleWitness 2 3 .no 51) :=
  votes_by_issued_credentials symbolic_collisionFree
    (sampleTransactions ++ [(.uint 20, .callReferendum (sampleVote 130 2 3 .no 51))]) (by decide +kernel) _
    (mem_accepted_concat sampleTransactions (by decide +kernel)) _ _ _ rfl

/-- Without a registry the referendum accepts the same vote, and its root is not attested. -/
example :
    (chainStep symbolic (run (chainStep symbolic) (Chain.empty symbolic)
        [(.uint 20, .deployReferendum ReferendumV2.sampleSealed)])
      (.uint 20, .callReferendum (sampleVote 110 0 2 .yes 50))).isOk = true ∧
    ¬AuditedStep (Chain.empty symbolic) (.uint 20, .deployReferendum ReferendumV2.sampleSealed) := by
  decide +kernel

end MidnightReferendum.RootAudit
