import MidnightReferendum.Cico.Issuer

/-!
# What the issuer's stores say

A transaction is sent only for a request whose authorization is claimed and that has no issuance record,
and an issuance record belongs to an accepted transaction. These facts survive every failure and every
crash, and they hold for requests of any kind `Q` as long as all calls are of this kind.
-/

namespace MidnightReferendum.CredentialIssuerService

open Js Cico MidnightReferendum.Compact Execution
open Relayer (CanonicalReceipt not_prototype_of_isDigest)

variable {D : Type} (o : CredentialIssuerServiceOptions D) (Q : IssuanceRequest → Prop)

/-! ## The durable part -/

/-- The authorization of a request is claimed for its enrollment and its material. -/
def Claimed (w : World) (request : IssuanceRequest) : Prop :=
  ∃ call, claimCall? request = some call ∧ w.evidence.Remembers o.sha256 call

/-- The enrollment of a request has no issuance record. -/
def Fresh (w : World) (request : IssuanceRequest) : Prop :=
  w.records.get? (enrollmentKey o request) = none

/-- The private state of a request with some blind. -/
def Encodes (request : IssuanceRequest) (privateState : RegistryPrivateState) : Prop :=
  ∃ blind, privateStateFor o.dateParse request o.issuerSecret blind = some privateState

/-- What holds of a transaction that was sent. -/
structure Sent (w : World) (t : Transaction) : Prop where
  number : t.number < w.sent
  request : Q t.request
  claimed : Claimed o w t.request
  encodes : Encodes o t.request t.privateState
  witness : (leafWitness t.privateState).isSome = true

/-- The result belongs to an accepted transaction of the request. -/
def Issued (w : World) (request : IssuanceRequest) (result : IssuanceResult) : Prop :=
  ∃ t ∈ w.leaves, t.request = request ∧
    ∃ receipt, issuedResult o request t.privateState receipt = some result

/-- What holds of the stores and of the transactions. -/
structure Stored (w : World) : Prop where
  evidence : w.evidence.Valid
  pool : ∀ t ∈ w.pool, Sent o Q w t
  leaves : ∀ t ∈ w.leaves, Sent o Q w t
  apart : ∀ t ∈ w.pool, ∀ l ∈ w.leaves, t.number ≠ l.number
  records : ∀ k record, w.records.get? k = some record →
    ∃ request result, record = recordOf o request result ∧ Issued o w request result

/-- What is durable stays when the world goes on. -/
structure Grows (w w' : World) : Prop where
  claimed : ∀ request, Claimed o w request → Claimed o w' request
  records : ∀ k record, w.records.get? k = some record → w'.records.get? k = some record
  leaves : ∀ t ∈ w.leaves, t ∈ w'.leaves
  sent : w.sent ≤ w'.sent

variable {o Q} {w w' w'' : World} {request : IssuanceRequest}

theorem Grows.refl (w : World) : Grows o w w where
  claimed _ h := h
  records _ _ h := h
  leaves _ h := h
  sent := le_refl _

theorem Sent.grows {t : Transaction} (h : Sent o Q w t) (hgrows : Grows o w w') : Sent o Q w' t where
  number := h.number.trans_le hgrows.sent
  request := h.request
  claimed := hgrows.claimed _ h.claimed
  encodes := h.encodes
  witness := h.witness

theorem Issued.grows {result : IssuanceResult} (h : Issued o w request result)
    (hgrows : Grows o w w') : Issued o w' request result := by
  obtain ⟨t, ht, hrequest, hresult⟩ := h
  exact ⟨t, hgrows.leaves t ht, hrequest, hresult⟩

/-! ## The stores -/

theorem not_prototype_enrollmentKey : enrollmentKey o request ∉ prototypeNames :=
  not_prototype_of_isDigest (isDigest_digest _ _ _)

/-- The record of a new enrollment is written. -/
theorem putIssuance_of_fresh (h : Fresh o w request) (result : IssuanceResult) :
    putIssuance w.records (recordOf o request result) =
      some (w.records.assign (recordOf o request result)) := by
  have hkey : (recordOf o request result).enrollmentKey = enrollmentKey o request := rfl
  rw [putIssuance, PlainObject.property, hkey, h, if_neg not_prototype_enrollmentKey]

theorem get?_assign_recordOf (result : IssuanceResult) (k : JsString) :
    (w.records.assign (recordOf o request result)).get? k =
      if enrollmentKey o request = k then some (recordOf o request result) else w.records.get? k :=
  w.records.get?_assign (a := recordOf o request result) not_prototype_enrollmentKey k

/-- The claim of a request is kept in the file. -/
theorem claimed_of_claim {call : ClaimCall} (hvalid : w.evidence.Valid)
    (hcall : claimCall? request = some call) (haccepted : (w.evidence.claim o.sha256 call).1 = true) :
    Claimed o { w with evidence := (w.evidence.claim o.sha256 call).2 } request :=
  ⟨call, hcall, claim_remembers hvalid haccepted⟩

theorem grows_claim (call : ClaimCall) (hvalid : w.evidence.Valid) :
    Grows o w { w with evidence := (w.evidence.claim o.sha256 call).2 } where
  claimed _ h := by
    obtain ⟨other, hother, hremembers⟩ := h
    exact ⟨other, hother, claim_keeps hvalid hremembers⟩
  records _ _ h := h
  leaves _ h := h
  sent := le_refl _

theorem grows_put (result : IssuanceResult) (hfresh : Fresh o w request) :
    Grows o w { w with records := w.records.assign (recordOf o request result) } where
  claimed _ h := h
  records k record h := by
    have hne : enrollmentKey o request ≠ k := by
      intro heq
      rw [Fresh, heq, h] at hfresh
      cases hfresh
    dsimp only
    rw [get?_assign_recordOf, if_neg hne, h]
  leaves _ h := h
  sent := le_refl _

/-- The durable part stays right when the stores grow and the transactions stay. -/
theorem Stored.grows (h : Stored o Q w) (hgrows : Grows o w w') (hvalid : w'.evidence.Valid)
    (hpool : w'.pool = w.pool) (hleaves : w'.leaves = w.leaves)
    (hrecords : ∀ k record, w'.records.get? k = some record → w.records.get? k = some record ∨
      ∃ request result, record = recordOf o request result ∧ Issued o w request result) :
    Stored o Q w' where
  evidence := hvalid
  pool t ht := (h.pool t (hpool ▸ ht)).grows hgrows
  leaves t ht := (h.leaves t (hleaves ▸ ht)).grows hgrows
  apart t ht l hl := h.apart t (hpool ▸ ht) l (hleaves ▸ hl)
  records k record hget := by
    have hissued : ∃ request result, record = recordOf o request result ∧ Issued o w request result := by
      cases hrecords k record hget with
      | inl hold => exact h.records k record hold
      | inr hnew => exact hnew
    obtain ⟨request, result, hrecord, hresult⟩ := hissued
    exact ⟨request, result, hrecord, hresult.grows hgrows⟩

theorem Grows.memory (m : Memory) : Grows o w { w with memory := m } where
  claimed _ h := h
  records _ _ h := h
  leaves _ h := h
  sent := le_refl _

theorem Stored.memory (h : Stored o Q w) (m : Memory) : Stored o Q { w with memory := m } :=
  h.grows (.memory m) h.evidence rfl rfl fun _ _ hget ↦ Or.inl hget

/-! ## The operation that runs -/

variable (o Q) in
/-- What an operation has made sure of when it waits. -/
def Waits (w : World) (request : IssuanceRequest) : Frame → Prop
  | .get => True
  | .validate => Fresh o w request
  | .registry privateState => Fresh o w request ∧ Encodes o request privateState
  | .claim privateState => Fresh o w request ∧ Encodes o request privateState
  | .join privateState => Fresh o w request ∧ Claimed o w request ∧ Encodes o request privateState
  | .addCredential privateState number =>
    Fresh o w request ∧ Claimed o w request ∧ number < w.sent ∧
      ∀ t, t ∈ w.pool ∨ t ∈ w.leaves → t.number = number →
        t.request = request ∧ t.privateState = privateState
  | .put result => Fresh o w request ∧ Claimed o w request ∧ Issued o w request result

variable (o Q) in
/-- What holds in every state. -/
structure Sound (w : World) : Prop where
  stored : Stored o Q w
  queue : ∀ request ∈ w.memory.queue, Q request
  running : ∀ request frame, w.memory.running = some (request, frame) →
    Q request ∧ Waits o w request frame
  /-- A result in the map is that of the issuance record. -/
  issuances : ∀ enrollmentId issuance result,
    w.memory.issuances enrollmentId = some issuance → issuance.result = some result →
      ∃ record, w.records.get? (digest o.sha256 "enrollment" enrollmentId) = some record ∧
        record.result = result ∧ record.fingerprintHash = digest o.sha256 "issuance" issuance.fingerprint
  /-- An entry is that of a call. -/
  entries : ∀ enrollmentId issuance, w.memory.issuances enrollmentId = some issuance →
    ∃ request, Q request ∧ request.enrollmentId = enrollmentId ∧
      issuance.fingerprint = requestFingerprint request
  /-- A pending entry has its operation. -/
  pending : ∀ enrollmentId issuance,
    w.memory.issuances enrollmentId = some issuance → issuance.result = none →
      (∃ request ∈ w.memory.queue, request.enrollmentId = enrollmentId) ∨
        ∃ request frame, w.memory.running = some (request, frame) ∧ request.enrollmentId = enrollmentId

variable {frame frame' : Frame}

/-- The operation goes on. -/
theorem Sound.goesOn (h : Sound o Q w) (hrunning : w.memory.running = some (request, frame))
    (hwaits : Waits o w request frame') : Sound o Q (w.goesOn request frame') where
  stored := h.stored.memory _
  queue := h.queue
  running request' frame'' heq := by
    cases heq
    refine ⟨(h.running _ _ hrunning).1, ?_⟩
    cases frame' <;> exact hwaits
  issuances := h.issuances
  entries := h.entries
  pending enrollmentId issuance hissuance hnone := by
    refine (h.pending enrollmentId issuance hissuance hnone).imp_right fun hold ↦ ?_
    obtain ⟨request', frame'', hsame, hid⟩ := hold
    cases hrunning.symm.trans hsame
    exact ⟨request, frame', rfl, hid⟩

/-- The operation ends, and the map has a new entry for its enrollment or none. -/
theorem Sound.ends (h : Sound o Q w) (hrunning : w.memory.running = some (request, frame))
    (hstored : Stored o Q w') (hgrows : Grows o w w') (entry : Option Issuance)
    (hmemory : w'.memory =
      ⟨Function.update w.memory.issuances request.enrollmentId entry, w.memory.queue, none⟩)
    (hentry : ∀ issuance, entry = some issuance → ∃ record,
      w'.records.get? (enrollmentKey o request) = some record ∧
        issuance.result = some record.result ∧
        record.fingerprintHash = fingerprintHash o request ∧
        issuance.fingerprint = requestFingerprint request) : Sound o Q w' where
  stored := hstored
  queue := by
    rw [hmemory]
    exact h.queue
  running request' frame' hsome := by
    rw [hmemory] at hsome
    cases hsome
  issuances enrollmentId issuance result hissuance hresult := by
    simp only [hmemory] at hissuance
    by_cases hid : enrollmentId = request.enrollmentId
    · subst hid
      rw [Function.update_self] at hissuance
      obtain ⟨record, hget, hsame, hhash, hfingerprint⟩ := hentry issuance hissuance
      exact ⟨record, hget, Option.some.inj (hsame.symm.trans hresult), by rw [hhash, hfingerprint]; rfl⟩
    · rw [Function.update_of_ne hid] at hissuance
      obtain ⟨record, hget, hrest⟩ := h.issuances enrollmentId issuance result hissuance hresult
      exact ⟨record, hgrows.records _ _ hget, hrest⟩
  entries enrollmentId issuance hissuance := by
    simp only [hmemory] at hissuance
    by_cases hid : enrollmentId = request.enrollmentId
    · subst hid
      rw [Function.update_self] at hissuance
      obtain ⟨_, _, _, _, hfingerprint⟩ := hentry issuance hissuance
      exact ⟨request, (h.running _ _ hrunning).1, rfl, hfingerprint⟩
    · rw [Function.update_of_ne hid] at hissuance
      exact h.entries enrollmentId issuance hissuance
  pending enrollmentId issuance hissuance hnone := by
    simp only [hmemory] at hissuance ⊢
    by_cases hid : enrollmentId = request.enrollmentId
    · subst hid
      rw [Function.update_self] at hissuance
      obtain ⟨record, _, hsome, _, _⟩ := hentry issuance hissuance
      rw [hnone] at hsome
      cases hsome
    · rw [Function.update_of_ne hid] at hissuance
      refine (h.pending enrollmentId issuance hissuance hnone).imp_right fun hold ↦ ?_
      obtain ⟨request', frame', hsame, hother⟩ := hold
      cases hrunning.symm.trans hsame
      exact absurd hother.symm hid

/-! ## The steps -/

/-- What the update of a store can do while an operation waits for it. -/
theorem written_effect (h : Sound o Q w) :
    Stored o Q (w.written o) ∧ Grows o w (w.written o) ∧ (w.written o).memory = w.memory := by
  unfold World.written
  split
  · split
    · next call _ =>
      have hgrows := grows_claim (o := o) call h.stored.evidence
      refine ⟨?_, hgrows, rfl⟩
      apply h.stored.grows hgrows (claim_valid h.stored.evidence) rfl rfl
      exact fun _ _ hget ↦ Or.inl hget
    · exact ⟨h.stored, .refl w, rfl⟩
  · next request result hrunning =>
    obtain ⟨hfresh, _, hissued⟩ := (h.running _ _ hrunning).2
    rw [putIssuance_of_fresh hfresh]
    have hgrows := grows_put result hfresh
    refine ⟨?_, hgrows, rfl⟩
    apply h.stored.grows hgrows h.stored.evidence rfl rfl
    intro k record hget
    dsimp only at hget
    rw [get?_assign_recordOf] at hget
    split at hget
    · exact Or.inr ⟨request, result, (Option.some.inj hget).symm, hissued⟩
    · exact Or.inl hget
  · exact ⟨h.stored, .refl w, rfl⟩

theorem Sound.rejects (h : Sound o Q w) (hrunning : w.memory.running = some (request, frame)) :
    Sound o Q (w.rejects request) :=
  h.ends hrunning (h.stored.memory _) (.memory _) none rfl fun _ hnone ↦ by cases hnone

theorem Sound.rejects_written (h : Sound o Q w)
    (hrunning : w.memory.running = some (request, frame)) :
    Sound o Q ((w.written o).rejects request) := by
  obtain ⟨hstored, hgrows, hmemory⟩ := written_effect h
  refine h.ends hrunning (hstored.memory _) ?_ none ?_ fun _ hnone ↦ by cases hnone
  · exact ⟨hgrows.claimed, hgrows.records, hgrows.leaves, hgrows.sent⟩
  · rw [World.rejects, hmemory]

theorem Sound.got (h : Sound o Q w) (hrunning : w.memory.running = some (request, .get)) :
    Sound o Q (w.got o request) := by
  unfold World.got
  split
  · exact h.rejects hrunning
  · split
    · next hproperty =>
      apply h.goesOn hrunning
      rw [Waits, Fresh]
      rw [PlainObject.property] at hproperty
      split at hproperty
      · cases hproperty
      · assumption
    · exact h.rejects hrunning
    · next record hproperty =>
      split
      · next hhash =>
        refine h.ends hrunning (h.stored.memory _) (.memory _) _ rfl fun issuance heq ↦ ?_
        obtain rfl := Option.some.inj heq
        refine ⟨record, ?_, rfl, hhash, rfl⟩
        rw [PlainObject.property] at hproperty
        split at hproperty
        · next record' hget =>
          cases hproperty
          exact hget
        · split at hproperty <;> cases hproperty
      · exact h.rejects hrunning

theorem Sound.validated (h : Sound o Q w) (hrunning : w.memory.running = some (request, .validate))
    (authorized : Bool) (blind : Bytes32) : Sound o Q (w.validated o request authorized blind) := by
  have hfresh : Fresh o w request := (h.running _ _ hrunning).2
  unfold World.validated
  split
  · next privateState hencodes =>
    apply h.goesOn hrunning
    cases o.epochMutations <;> exact ⟨hfresh, blind, hencodes⟩
  · exact h.rejects hrunning

theorem Sound.claimed (h : Sound o Q w) {privateState : RegistryPrivateState}
    (hrunning : w.memory.running = some (request, .claim privateState)) :
    Sound o Q (w.claimed o request privateState) := by
  obtain ⟨hfresh, hencodes⟩ := (h.running _ _ hrunning).2
  unfold World.claimed
  split
  · next call hcall =>
    split
    · next haccepted =>
      have hwritten : w.written o = { w with evidence := (w.evidence.claim o.sha256 call).2 } := by
        simp only [World.written, hrunning, hcall]
      have hclaimed := claimed_of_claim h.stored.evidence hcall haccepted
      obtain ⟨hstored, hgrows, hmemory⟩ := written_effect h
      rw [hwritten] at hstored hgrows ⊢
      have hw : Sound o Q { w with evidence := (w.evidence.claim o.sha256 call).2 } := by
        constructor
        · exact hstored
        · exact h.queue
        · intro request' frame' hsame
          cases hrunning.symm.trans hsame
          exact ⟨(h.running _ _ hrunning).1, hfresh, hencodes⟩
        · exact h.issuances
        · exact h.entries
        · exact h.pending
      exact hw.goesOn hrunning ⟨hfresh, hclaimed, hencodes⟩
    · exact h.rejects_written hrunning
  · exact h.rejects hrunning

theorem Sound.joined (h : Sound o Q w) {privateState : RegistryPrivateState}
    (hrunning : w.memory.running = some (request, .join privateState)) :
    Sound o Q (w.joined request privateState) := by
  obtain ⟨hrequest, hfresh, hclaimed, hencodes⟩ := h.running _ _ hrunning
  unfold World.joined
  split
  · next witness hwitness =>
    have hgrows : Grows o w { w with
        pool := w.pool ++ [⟨w.sent, request, privateState⟩], sent := w.sent + 1 } :=
      ⟨fun _ h ↦ h, fun _ _ h ↦ h, fun _ h ↦ h, Nat.le_succ _⟩
    have hw : Sound o Q { w with
        pool := w.pool ++ [⟨w.sent, request, privateState⟩], sent := w.sent + 1 } := by
      constructor
      · constructor
        · exact h.stored.evidence
        · intro t ht
          rcases List.mem_append.mp ht with ht | ht
          · exact (h.stored.pool t ht).grows hgrows
          · obtain rfl := List.mem_singleton.mp ht
            exact ⟨Nat.lt_succ_self _, hrequest, hclaimed, hencodes, by rw [hwitness]; rfl⟩
        · exact fun t ht ↦ (h.stored.leaves t ht).grows hgrows
        · intro t ht l hl
          rcases List.mem_append.mp ht with ht | ht
          · exact h.stored.apart t ht l hl
          · obtain rfl := List.mem_singleton.mp ht
            exact (h.stored.leaves l hl).number.ne'
        · exact h.stored.records
      · exact h.queue
      · intro request' frame' hsame
        cases hrunning.symm.trans hsame
        exact ⟨hrequest, hfresh, hclaimed, hencodes⟩
      · exact h.issuances
      · exact h.entries
      · exact h.pending
    refine hw.goesOn hrunning ⟨hfresh, hclaimed, Nat.lt_succ_self _, fun t ht hnumber ↦ ?_⟩
    have hold : ∀ t, Sent o Q w t → t.number ≠ w.sent := fun t ht ↦ ht.number.ne
    rcases ht with ht | ht
    · rcases List.mem_append.mp ht with ht | ht
      · exact absurd hnumber (hold t (h.stored.pool t ht))
      · obtain rfl := List.mem_singleton.mp ht
        exact ⟨rfl, rfl⟩
    · exact absurd hnumber (hold t (h.stored.leaves t ht))
  · exact h.rejects hrunning

theorem Sound.receipt (h : Sound o Q w) {privateState : RegistryPrivateState} {number : ℕ}
    (hrunning : w.memory.running = some (request, .addCredential privateState number))
    (haccepted : w.accepts number = true) (receipt : CanonicalReceipt) :
    Sound o Q (w.receipt o request privateState receipt) := by
  obtain ⟨hfresh, hclaimed, _, hcurrent⟩ := (h.running _ _ hrunning).2
  unfold World.receipt
  split
  · next result hresult =>
    split
    · obtain ⟨t, ht, hnumber⟩ := List.any_eq_true.mp haccepted
      obtain ⟨hrequest, hstate⟩ := hcurrent t (Or.inr ht) (beq_iff_eq.mp hnumber)
      refine h.goesOn hrunning ⟨hfresh, hclaimed, t, ht, hrequest, receipt, ?_⟩
      rw [hstate, hresult]
    · exact h.rejects hrunning
  · exact h.rejects hrunning

theorem written_put {result : IssuanceResult} (hfresh : Fresh o w request)
    (hrunning : w.memory.running = some (request, .put result)) :
    w.written o = { w with records := w.records.assign (recordOf o request result) } := by
  simp only [World.written, hrunning, putIssuance_of_fresh hfresh]

theorem Sound.stored_put (h : Sound o Q w) {result : IssuanceResult}
    (hrunning : w.memory.running = some (request, .put result)) :
    Sound o Q (w.stored o request result) := by
  obtain ⟨hfresh, _, _⟩ := (h.running _ _ hrunning).2
  obtain ⟨hstored, hgrows, hmemory⟩ := written_effect h
  rw [World.stored, putIssuance_of_fresh hfresh]
  refine h.ends hrunning (hstored.memory _) ?_ (some ⟨requestFingerprint request, some result⟩) ?_ ?_
  · exact ⟨hgrows.claimed, hgrows.records, hgrows.leaves, hgrows.sent⟩
  · rw [World.resolves, hmemory]
  · intro issuance heq
    obtain rfl := Option.some.inj heq
    refine ⟨recordOf o request result, ?_, rfl, rfl, rfl⟩
    rw [World.resolves, written_put hfresh hrunning]
    dsimp only
    rw [get?_assign_recordOf, if_pos rfl]

theorem Sound.accept (h : Sound o Q w) {t : Transaction} (ht : t ∈ w.pool) :
    Sound o Q { w with
      pool := w.pool.filter fun t' ↦ t'.number != t.number, leaves := w.leaves ++ [t] } := by
  have hgrows : Grows o w { w with
      pool := w.pool.filter fun t' ↦ t'.number != t.number, leaves := w.leaves ++ [t] } :=
    ⟨fun _ h ↦ h, fun _ _ h ↦ h, fun _ h ↦ List.mem_append_left _ h, le_refl _⟩
  have hsplit : ∀ t', t' ∈ w.leaves ++ [t] → t' ∈ w.leaves ∨ t' = t :=
    fun t' ht' ↦ (List.mem_append.mp ht').imp_right List.mem_singleton.mp
  constructor
  · constructor
    · exact h.stored.evidence
    · exact fun t' ht' ↦ (h.stored.pool t' (List.mem_filter.mp ht').1).grows hgrows
    · intro t' ht'
      rcases hsplit t' ht' with hold | rfl
      · exact (h.stored.leaves t' hold).grows hgrows
      · exact (h.stored.pool t' ht).grows hgrows
    · intro t' ht' l hl
      obtain ⟨hpool, hne⟩ := List.mem_filter.mp ht'
      rcases hsplit l hl with hold | rfl
      · exact h.stored.apart t' hpool l hold
      · exact bne_iff_ne.mp hne
    · intro k record hget
      obtain ⟨request, result, hrecord, hissued⟩ := h.stored.records k record hget
      exact ⟨request, result, hrecord, hissued.grows hgrows⟩
  · exact h.queue
  · intro request frame hrunning
    obtain ⟨hrequest, hwaits⟩ := h.running request frame hrunning
    refine ⟨hrequest, ?_⟩
    cases frame with
    | addCredential privateState number =>
      obtain ⟨hfresh, hclaimed, hsent, hcurrent⟩ := hwaits
      refine ⟨hfresh, hclaimed, hsent, fun t' ht' ↦ hcurrent t' ?_⟩
      rcases ht' with hpool | hleaf
      · exact Or.inl (List.mem_filter.mp hpool).1
      · rcases hsplit t' hleaf with hold | rfl
        · exact Or.inr hold
        · exact Or.inl ht
    | put result => exact ⟨hwaits.1, hwaits.2.1, hwaits.2.2.grows hgrows⟩
    | get => exact hwaits
    | validate => exact hwaits
    | registry privateState => exact hwaits
    | claim privateState => exact hwaits
    | join privateState => exact hwaits
  · exact h.issuances
  · exact h.entries
  · exact h.pending

theorem Sound.issueCredential (h : Sound o Q w) (hrequest : Q request) :
    Sound o Q { w with memory := w.memory.issueCredential request } := by
  unfold Memory.issueCredential
  split
  · exact h
  · constructor
    · exact h.stored.memory _
    · intro request' hqueue
      rcases List.mem_append.mp hqueue with hold | hnew
      · exact h.queue request' hold
      · obtain rfl := List.mem_singleton.mp hnew
        exact hrequest
    · intro request' frame hrunning
      obtain ⟨hold, hwaits⟩ := h.running request' frame hrunning
      refine ⟨hold, ?_⟩
      cases frame <;> exact hwaits
    · intro enrollmentId issuance result hissuance hresult
      dsimp only at hissuance
      by_cases hid : enrollmentId = request.enrollmentId
      · subst hid
        rw [Function.update_self] at hissuance
        obtain rfl := Option.some.inj hissuance
        cases hresult
      · rw [Function.update_of_ne hid] at hissuance
        exact h.issuances enrollmentId issuance result hissuance hresult
    · intro enrollmentId issuance hissuance
      dsimp only at hissuance
      by_cases hid : enrollmentId = request.enrollmentId
      · subst hid
        rw [Function.update_self] at hissuance
        obtain rfl := Option.some.inj hissuance
        exact ⟨request, hrequest, rfl, rfl⟩
      · rw [Function.update_of_ne hid] at hissuance
        exact h.entries enrollmentId issuance hissuance
    · intro enrollmentId issuance hissuance hnone
      dsimp only at hissuance
      by_cases hid : enrollmentId = request.enrollmentId
      · exact Or.inl ⟨request, List.mem_append_right _ (List.mem_singleton.mpr rfl), hid.symm⟩
      · rw [Function.update_of_ne hid] at hissuance
        refine (h.pending enrollmentId issuance hissuance hnone).imp_left fun hold ↦ ?_
        obtain ⟨request', hqueue, hsame⟩ := hold
        exact ⟨request', List.mem_append_left _ hqueue, hsame⟩

theorem Sound.begin (h : Sound o Q w) {queue : List IssuanceRequest}
    (hrunning : w.memory.running = none) (hqueue : w.memory.queue = request :: queue) :
    Sound o Q { w with memory := { w.memory with queue, running := some (request, .get) } } := by
  constructor
  · exact h.stored.memory _
  · exact fun request' hmem ↦ h.queue request' (hqueue ▸ List.mem_cons_of_mem _ hmem)
  · intro request' frame heq
    cases heq
    exact ⟨h.queue request (hqueue ▸ List.mem_cons_self), trivial⟩
  · exact h.issuances
  · exact h.entries
  · intro enrollmentId issuance hissuance hnone
    rcases h.pending enrollmentId issuance hissuance hnone with hold | ⟨request', frame, hsome, _⟩
    · obtain ⟨request', hmem, hid⟩ := hold
      rw [hqueue] at hmem
      rcases List.mem_cons.mp hmem with rfl | hmem
      · exact Or.inr ⟨request', .get, rfl, hid⟩
      · exact Or.inl ⟨request', hmem, hid⟩
    · rw [hrunning] at hsome
      cases hsome

theorem Sound.crash (h : Stored o Q w) : Sound o Q { w with memory := {} } where
  stored := h.memory _
  queue _ hmem := by cases hmem
  running _ _ hsome := by cases hsome
  issuances _ _ _ hsome := by cases hsome
  entries _ _ hsome := by cases hsome
  pending _ _ hsome := by cases hsome

theorem sound_step (s : World) (e : Event) (s' : World) (h : Sound o Q s)
    (hcall : ∀ request, e = .issueCredential request → Q request) (hok : step o s e = .ok s') :
    Sound o Q s' := by
  cases effect_of_step hok with
  | issueCredential request => exact h.issueCredential (hcall request rfl)
  | begin hrunning hqueue => exact h.begin hrunning hqueue
  | got hrunning => exact h.got hrunning
  | validated authorized blind hrunning => exact h.validated hrunning authorized blind
  | registryRead frozen hrunning =>
    split
    · exact h.rejects hrunning
    · exact h.goesOn hrunning (h.running _ _ hrunning).2
  | claimed hrunning => exact h.claimed hrunning
  | joined hrunning => exact h.joined hrunning
  | receipt receipt hrunning haccepted => exact h.receipt hrunning haccepted receipt
  | stored hrunning => exact h.stored_put hrunning
  | fails written hrunning =>
    cases written with
    | true => exact h.rejects_written hrunning
    | false => exact h.rejects hrunning
  | accept t ht => exact h.accept ht
  | crash written =>
    cases written with
    | true => exact .crash (written_effect h).1
    | false => exact .crash h.stored

/-- What is durable stays. -/
theorem grows_step {e : Event} (h : Sound o Q w) (heffect : Effect o w e w') : Grows o w w' := by
  obtain ⟨_, hwritten, _⟩ := written_effect h
  cases heffect with
  | issueCredential request => exact .memory _
  | begin hrunning hqueue => exact .memory _
  | got hrunning =>
    unfold World.got
    split
    · exact .memory _
    · split
      · exact .memory _
      · exact .memory _
      · split <;> exact .memory _
  | validated authorized blind hrunning =>
    unfold World.validated
    split <;> exact .memory _
  | registryRead frozen hrunning => split <;> exact .memory _
  | claimed hrunning =>
    unfold World.claimed
    split
    · split <;> exact ⟨hwritten.claimed, hwritten.records, hwritten.leaves, hwritten.sent⟩
    · exact .memory _
  | joined hrunning =>
    unfold World.joined
    split
    · exact ⟨fun _ h ↦ h, fun _ _ h ↦ h, fun _ h ↦ h, Nat.le_succ _⟩
    · exact .memory _
  | receipt receipt hrunning haccepted =>
    unfold World.receipt
    split
    · split <;> exact .memory _
    · exact .memory _
  | stored hrunning =>
    unfold World.stored
    split
    · exact ⟨hwritten.claimed, hwritten.records, hwritten.leaves, hwritten.sent⟩
    · exact .memory _
  | fails written hrunning =>
    cases written with
    | true => exact ⟨hwritten.claimed, hwritten.records, hwritten.leaves, hwritten.sent⟩
    | false => exact .memory _
  | accept t ht =>
    exact ⟨fun _ h ↦ h, fun _ _ h ↦ h, fun _ h ↦ List.mem_append_left _ h, le_refl _⟩
  | crash written =>
    cases written with
    | true => exact ⟨hwritten.claimed, hwritten.records, hwritten.leaves, hwritten.sent⟩
    | false => exact .memory _

theorem written_leaves (w : World) : (w.written o).leaves = w.leaves := by
  unfold World.written
  split
  · split <;> rfl
  · split <;> rfl
  · rfl

/-- Only the registry adds leaves. -/
theorem leaves_step {e : Event} (heffect : Effect o w e w') (hne : ∀ number, e ≠ .accept number) :
    w'.leaves = w.leaves := by
  cases heffect with
  | issueCredential request => rfl
  | begin hrunning hqueue => rfl
  | got hrunning =>
    unfold World.got
    split
    · rfl
    · split
      · rfl
      · rfl
      · split <;> rfl
  | validated authorized blind hrunning =>
    unfold World.validated
    split <;> rfl
  | registryRead frozen hrunning => split <;> rfl
  | claimed hrunning =>
    unfold World.claimed
    split
    · split <;> exact written_leaves w
    · rfl
  | joined hrunning =>
    unfold World.joined
    split <;> rfl
  | receipt receipt hrunning haccepted =>
    unfold World.receipt
    split
    · split <;> rfl
    · rfl
  | stored hrunning =>
    unfold World.stored
    split
    · exact written_leaves w
    · rfl
  | fails written hrunning =>
    cases written with
    | true => exact written_leaves w
    | false => rfl
  | accept t ht => exact absurd rfl (hne t.number)
  | crash written =>
    cases written with
    | true => exact written_leaves w
    | false => rfl

theorem stored_start : Stored o Q {} where
  evidence := emptyEvidenceState_valid
  pool _ hmem := by cases hmem
  leaves _ hmem := by cases hmem
  apart _ hmem := by cases hmem
  records k record hget := by
    rw [PlainObject.get?_empty] at hget
    cases hget

theorem sound_start : Sound o Q {} := .crash stored_start

end MidnightReferendum.CredentialIssuerService
