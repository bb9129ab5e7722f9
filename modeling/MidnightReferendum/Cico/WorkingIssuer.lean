import MidnightReferendum.Cico.IssuerInvariant

/-!
# A call of an issuer that works

What becomes of a call when the service has answered all calls before it and none of its awaited calls
fails. An enrollment that has an issuance record gets its issuance if the request is the recorded one. An
enrollment without one gets a leaf if the authorization can be claimed for the request.
-/

namespace MidnightReferendum.CredentialIssuerService

open Js Cico MidnightReferendum.Compact Execution
open Relayer (CanonicalReceipt)

variable {D : Type} (o : CredentialIssuerServiceOptions D)

/-! ## The events -/

/-- The call and its answers up to the claim. -/
def claimEvents (request : IssuanceRequest) (blind : Bytes32) : List Event :=
  [.issueCredential request, .begin, .got, .validated true blind, .registryRead false, .claimed]

/-- The answers after the claim, with the transaction of a number. -/
def leafEvents (number : ℕ) (receipt : CanonicalReceipt) : List Event :=
  [.joined, .accept number, .receipt receipt, .stored]

/-- The world after a call of which nothing fails. -/
def served (w : World) (request : IssuanceRequest) (blind : Bytes32) (receipt : CanonicalReceipt) : World :=
  run (step o) w (claimEvents request blind ++ leafEvents w.sent receipt)

/-- All calls are answered. -/
structure Idle (w : World) : Prop where
  running : w.memory.running = none
  queue : w.memory.queue = []

/-- A receipt that the service and its store accept. -/
structure Canonical (receipt : CanonicalReceipt) : Prop where
  action : receipt.action = .credential
  circuit : receipt.circuit = js "addCredential"
  contractAddress : receipt.contractAddress = o.registryContractAddress
  network : receipt.network = js "preview"
  serializable : isSerializable receipt = true

variable {o} {Q : IssuanceRequest → Prop} {w w' : World} {request : IssuanceRequest} {blind : Bytes32}
  {receipt : CanonicalReceipt}

theorem run_of_ok {e : Event} {v : World} (h : step o w e = .ok v) (es : List Event) :
    run (step o) w (e :: es) = run (step o) v es := by
  rw [run_cons, apply_of_ok h]

theorem run_of_error {e : Event} (h : step o w e = .error ()) (es : List Event) :
    run (step o) w (e :: es) = run (step o) w es := by
  rw [run_cons, apply_of_error h]

/-! ## Nothing is awaited -/

/-- An answer, or a transaction that is not on the way. -/
def Event.IsVain (w : World) : Event → Prop
  | .issueCredential _ => False
  | .crash _ => False
  | .accept number => ∀ t ∈ w.pool, t.number ≠ number
  | _ => True

theorem step_idle (h : Idle w) {e : Event} (he : e.IsVain w) : step o w e = .error () := by
  cases e with
  | issueCredential request => exact he.elim
  | crash written => exact he.elim
  | accept number =>
    have hnone : w.pool.find? (fun t ↦ t.number == number) = none :=
      List.find?_eq_none.mpr fun t ht hsame ↦ he t ht (beq_iff_eq.mp hsame)
    simp only [step, hnone]
  | begin => simp only [step, h.running, h.queue]
  | _ => simp only [step, h.running]

theorem run_idle (h : Idle w) {es : List Event} (hes : ∀ e ∈ es, e.IsVain w) :
    run (step o) w es = w := by
  induction es with
  | nil => rfl
  | cons e es ih =>
    rw [run_of_error (step_idle h (hes e List.mem_cons_self))]
    exact ih fun e' he' ↦ hes e' (List.mem_cons_of_mem e he')

/-- The answers after the claim are in vain for a number that is not on the way. -/
theorem vain_leafEvents {number : ℕ} (hpool : ∀ t ∈ w.pool, t.number ≠ number) :
    ∀ e ∈ leafEvents number receipt, e.IsVain w := by
  simp only [leafEvents, List.forall_mem_cons, List.not_mem_nil, false_imp_iff, implies_true, and_true]
  exact ⟨trivial, hpool, trivial, trivial⟩

/-! ## The operation begins -/

/-- The operation of a call runs, and no other call waits. -/
def World.started (w : World) (request : IssuanceRequest) (frame : Frame) : World :=
  { w with memory := ⟨Function.update w.memory.issuances request.enrollmentId
    (some ⟨requestFingerprint request, none⟩), [], some (request, frame)⟩ }

theorem run_begins (h : Idle w) (hentry : w.memory.issuances request.enrollmentId = none)
    (es : List Event) :
    run (step o) w (.issueCredential request :: .begin :: es) = run (step o) (w.started request .get) es := by
  have hcall : w.memory.issueCredential request =
      ⟨Function.update w.memory.issuances request.enrollmentId (some ⟨requestFingerprint request, none⟩),
        [request], none⟩ := by
    simp only [Memory.issueCredential, hentry, h.queue, h.running, List.nil_append]
  rw [run_of_ok (v := { w with memory := w.memory.issueCredential request }) rfl, hcall]
  rw [run_of_ok (v := w.started request .get) rfl]

theorem not_sent (h : Sound o Q w) : ∀ t ∈ w.pool, t.number ≠ w.sent :=
  fun t ht ↦ (h.stored.pool t ht).number.ne

/-- Nothing comes of the answers after an operation that has ended. -/
theorem run_ended (hsound : Sound o Q w) (h : Idle w') (hpool : w'.pool = w.pool) {es : List Event}
    (hes : ∀ e ∈ es, e.IsVain w') :
    run (step o) w' (es ++ leafEvents w.sent receipt) = w' := by
  apply run_idle h
  intro e he
  rcases List.mem_append.mp he with hearly | hlate
  · exact hes e hearly
  · exact vain_leafEvents (hpool ▸ not_sent hsound) e hlate

/-- An entry of an idle issuer is not pending. -/
theorem result_of_entry (hsound : Sound o Q w) (hidle : Idle w) {enrollmentId : JsString}
    {issuance : Issuance} (hentry : w.memory.issuances enrollmentId = some issuance) :
    ∃ result, issuance.result = some result := by
  cases hresult : issuance.result with
  | some result => exact ⟨result, rfl⟩
  | none =>
    rcases hsound.pending _ _ hentry hresult with ⟨request, hmem, _⟩ | ⟨request, frame, hsome, _⟩
    · rw [hidle.queue] at hmem
      cases hmem
    · rw [hidle.running] at hsome
      cases hsome

/-! ## The enrollment has a record -/

/-- An enrollment that has a record gets its result or a conflict, and no new leaf. -/
theorem served_recorded (hsound : Sound o Q w) (hidle : Idle w) {record : CredentialIssuanceRecord}
    (hrecord : w.records.get? (enrollmentKey o request) = some record)
    (hfingerprint : ∀ issuance, w.memory.issuances request.enrollmentId = some issuance →
      digest o.sha256 "issuance" issuance.fingerprint = fingerprintHash o request →
        issuance.fingerprint = requestFingerprint request)
    (hid : request.enrollmentId ≠ []) :
    (served o w request blind receipt).leaves = w.leaves ∧
      (served o w request blind receipt).memory.answer request =
        if record.fingerprintHash = fingerprintHash o request then some record.result else none := by
  unfold served
  cases hentry : w.memory.issuances request.enrollmentId with
  | some issuance =>
    have hcall : w.memory.issueCredential request = w.memory := by
      simp only [Memory.issueCredential, hentry]
    have hserved : run (step o) w (claimEvents request blind ++ leafEvents w.sent receipt) = w := by
      rw [claimEvents, List.cons_append, run_of_ok (v := w) (by simp only [step, hcall])]
      refine run_ended hsound hidle rfl ?_
      simp [Event.IsVain]
    rw [hserved, Memory.answer, hentry]
    refine ⟨rfl, ?_⟩
    obtain ⟨result, hresult⟩ := result_of_entry hsound hidle hentry
    obtain ⟨record', hget, hsame, hhash⟩ := hsound.issuances _ _ _ hentry hresult
    obtain rfl := Option.some.inj (hrecord.symm.trans hget)
    by_cases heq : issuance.fingerprint = requestFingerprint request
    · have hhash' : record.fingerprintHash = fingerprintHash o request := by
        rw [hhash, heq]
        rfl
      simp only [if_pos heq, if_pos hhash', hsame, hresult]
    · have hhash' : record.fingerprintHash ≠ fingerprintHash o request :=
        fun hsame' ↦ heq (hfingerprint issuance hentry (hhash ▸ hsame'))
      simp only [if_neg heq, if_neg hhash']
  | none =>
    have hproperty : (w.started request .get).records.property (enrollmentKey o request) = .own record := by
      simp only [World.started, PlainObject.property, hrecord]
    rw [claimEvents, List.cons_append, List.cons_append, run_begins hidle hentry, List.cons_append,
      run_of_ok (v := (w.started request .get).got o request) rfl]
    simp only [World.got, if_neg hid, hproperty]
    split
    · have hidle' : Idle ((w.started request .get).resolves request record.result) := ⟨rfl, rfl⟩
      rw [run_ended hsound hidle' rfl (by simp [Event.IsVain])]
      simp [World.started, World.resolves, Memory.answer]
    · have hidle' : Idle ((w.started request .get).rejects request) := ⟨rfl, rfl⟩
      rw [run_ended hsound hidle' rfl (by simp [Event.IsVain])]
      simp [World.started, World.rejects, Memory.answer]

/-! ## The enrollment has no record -/

/-- The operation of a new enrollment gets past its validation. -/
theorem run_validates (hidle : Idle w) (hentry : w.memory.issuances request.enrollmentId = none)
    (hfresh : Fresh o w request) (hid : request.enrollmentId ≠ []) (es : List Event) :
    run (step o) w (claimEvents request blind ++ es) =
      run (step o) ((w.started request .validate).validated o request true blind)
        ([.registryRead false, .claimed] ++ es) := by
  have hproperty : (w.started request .get).records.property (enrollmentKey o request) = .undefined := by
    simp only [World.started, PlainObject.property, show w.records.get? _ = none from hfresh,
      if_neg not_prototype_enrollmentKey]
  have hgot : (w.started request .get).got o request = w.started request .validate := by
    simp only [World.got, if_neg hid, hproperty]
    rfl
  rw [claimEvents, List.cons_append, List.cons_append, run_begins hidle hentry, List.cons_append,
    run_of_ok rfl, hgot, List.cons_append, run_of_ok rfl]

/-- The operation of a new enrollment gets to its claim. -/
theorem run_claims (hidle : Idle w) (hentry : w.memory.issuances request.enrollmentId = none)
    (hfresh : Fresh o w request) (hid : request.enrollmentId ≠ []) {privateState : RegistryPrivateState}
    (hencodes : privateStateFor o.dateParse request o.issuerSecret blind = some privateState)
    (es : List Event) :
    run (step o) w (claimEvents request blind ++ es) =
      run (step o) ((w.started request (.claim privateState)).claimed o request privateState) es := by
  rw [run_validates hidle hentry hfresh hid]
  simp only [World.validated, hencodes]
  cases hmutations : o.epochMutations with
  | true =>
    rw [if_pos rfl, List.cons_append, run_of_ok (v := w.started request (.claim privateState)) rfl,
      List.cons_append, run_of_ok rfl]
    rfl
  | false =>
    rw [if_neg Bool.false_ne_true, List.cons_append, run_of_error rfl, List.cons_append, run_of_ok rfl]
    rfl

/-- Claims that cannot be encoded end the operation. -/
theorem served_not_encoded (hsound : Sound o Q w) (hidle : Idle w)
    (hentry : w.memory.issuances request.enrollmentId = none) (hfresh : Fresh o w request)
    (hid : request.enrollmentId ≠ [])
    (hnone : privateStateFor o.dateParse request o.issuerSecret blind = none) :
    (served o w request blind receipt).memory.answer request = none := by
  have hrejects : (w.started request .validate).validated o request true blind =
      (w.started request .validate).rejects request := by
    simp only [World.validated, hnone]
  have hidle' : Idle ((w.started request .validate).rejects request) := ⟨rfl, rfl⟩
  rw [served, run_validates hidle hentry hfresh hid, hrejects,
    run_ended hsound hidle' rfl (by simp [Event.IsVain])]
  simp [World.started, World.rejects, Memory.answer]

section Fresh

variable (hsound : Sound o Q w) (hidle : Idle w)
  (hentry : w.memory.issuances request.enrollmentId = none) (hfresh : Fresh o w request)
  (hid : request.enrollmentId ≠ []) {call : ClaimCall} (hcall : claimCall? request = some call)
  {privateState : RegistryPrivateState}
  (hencodes : privateStateFor o.dateParse request o.issuerSecret blind = some privateState)

include hsound hidle hentry hfresh hid hcall hencodes

/-- A claim that is refused ends the operation. -/
theorem served_refused (hrefused : (w.evidence.claim o.sha256 call).1 = false) :
    (served o w request blind receipt).memory.answer request = none := by
  let w₁ : World := (World.started { w with evidence := (w.evidence.claim o.sha256 call).2 } request
    (.claim privateState)).rejects request
  have hclaimed : (w.started request (.claim privateState)).claimed o request privateState = w₁ := by
    simp only [World.claimed, World.started, World.written, hcall, hrefused, Bool.false_eq_true, if_false]
    rfl
  have hidle₁ : Idle w₁ := ⟨rfl, rfl⟩
  have hpool : ∀ t ∈ w₁.pool, t.number ≠ w.sent := fun t ht ↦ not_sent hsound t ht
  rw [served, run_claims hidle hentry hfresh hid hencodes, hclaimed,
    run_idle hidle₁ (vain_leafEvents hpool)]
  simp [w₁, World.started, World.rejects, Memory.answer]

/-- A claim that is accepted is followed by a new leaf. -/
theorem served_issued (haccepted : (w.evidence.claim o.sha256 call).1 = true)
    (hwitness : (leafWitness privateState).isSome = true) {result : IssuanceResult}
    (hresult : issuedResult o request privateState receipt = some result)
    (hserializable : isSerializable receipt = true) :
    (served o w request blind receipt).leaves = w.leaves ++ [⟨w.sent, request, privateState⟩] ∧
      (served o w request blind receipt).memory.answer request = some result := by
  let t : Transaction := ⟨w.sent, request, privateState⟩
  let w₁ : World := { w with evidence := (w.evidence.claim o.sha256 call).2 }
  let w₂ : World := { w₁ with pool := w.pool ++ [t], sent := w.sent + 1 }
  let w₃ : World := { w₂ with
    pool := (w.pool ++ [t]).filter fun t' ↦ t'.number != w.sent, leaves := w.leaves ++ [t] }
  have hclaimed : (w.started request (.claim privateState)).claimed o request privateState =
      w₁.started request (.join privateState) := by
    simp only [World.claimed, World.started, World.written, hcall, haccepted, if_true]
    rfl
  have hjoined : (w₁.started request (.join privateState)).joined request privateState =
      w₂.started request (.addCredential privateState w.sent) := by
    obtain ⟨witness, hsome⟩ := Option.isSome_iff_exists.mp hwitness
    simp only [World.joined, hsome]
    rfl
  have hfind : (w.pool ++ [t]).find? (fun t' ↦ t'.number == w.sent) = some t := by
    have hnone : w.pool.find? (fun t' ↦ t'.number == w.sent) = none :=
      List.find?_eq_none.mpr fun t' ht' hsame ↦ not_sent hsound t' ht' (beq_iff_eq.mp hsame)
    rw [List.find?_append, hnone, Option.none_or]
    simp [t]
  have haccept : step o (w₂.started request (.addCredential privateState w.sent)) (.accept w.sent) =
      .ok (w₃.started request (.addCredential privateState w.sent)) := by
    have hpool : (w₂.started request (.addCredential privateState w.sent)).pool = w.pool ++ [t] := rfl
    simp only [step, hpool, hfind]
    rfl
  have hreceipt : step o (w₃.started request (.addCredential privateState w.sent)) (.receipt receipt) =
      .ok (w₃.started request (.put result)) := by
    have hleaf : (w₃.started request (.addCredential privateState w.sent)).accepts w.sent = true := by
      rw [World.accepts]
      exact List.any_eq_true.mpr ⟨t, List.mem_append_right _ List.mem_cons_self, beq_self_eq_true _⟩
    have hgoes : (w₃.started request (.addCredential privateState w.sent)).receipt o request
        privateState receipt = w₃.started request (.put result) := by
      simp only [World.receipt, hresult, hserializable, if_true]
      rfl
    rw [← hgoes]
    exact if_pos hleaf
  have hstored : (w₃.started request (.put result)).stored o request result =
      (World.started { w₃ with records := w.records.assign (recordOf o request result) } request
        (.put result)).resolves request result := by
    have hput := putIssuance_of_fresh hfresh result
    have hrecords : (w₃.started request (.put result)).records = w.records := rfl
    have hwritten : (w₃.started request (.put result)).written o =
        World.started { w₃ with records := w.records.assign (recordOf o request result) } request
          (.put result) := by
      rw [World.written, World.started]
      simp only [w₃, w₂, w₁, hput]
      rfl
    rw [World.stored, hrecords, hput]
    simp only [hwritten]
  rw [served, run_claims hidle hentry hfresh hid hencodes, hclaimed, leafEvents, run_of_ok rfl, hjoined,
    run_of_ok haccept, run_of_ok hreceipt, run_of_ok rfl, hstored, run_nil]
  refine ⟨rfl, ?_⟩
  simp [World.started, World.resolves, Memory.answer]

end Fresh

end MidnightReferendum.CredentialIssuerService
