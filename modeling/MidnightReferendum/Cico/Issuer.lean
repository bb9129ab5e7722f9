import MidnightReferendum.Cico.EvidenceClaims
import MidnightReferendum.Cico.Issuance
import MidnightReferendum.Registry.Contract

/-!
# The credential issuer

`CredentialIssuerService` beside its two durable stores and the registry. The calls of
`issueCredential` queue up and run one after the other. Every awaited call of `issueOnce` may fail, the
process may end at any point and is started again with an empty memory, and the registry may accept a
transaction at any time after it was sent, whatever has become of the call that sent it.
-/

namespace MidnightReferendum.CredentialIssuerService

open Js Cico MidnightReferendum.Compact Execution
open Relayer (CanonicalReceipt)

/-! ## The service -/

/-- The options of the service and what it is built on: SHA-256, `Date.parse` and the hash functions of the
runtime. Both stores are configured. -/
structure CredentialIssuerServiceOptions (D : Type) where
  sha256 : List UInt8 → Bytes32
  dateParse : JsString → Option ℤ
  hashing : Hashing Bytes32 D
  registryContractAddress : JsString
  issuerSecret : Bytes32
  /-- The boundary to the epoch coordinator is configured. -/
  epochMutations : Bool

/-- `CivicCredentialIssuanceResult` -/
structure IssuanceResult where
  issuanceId : JsString
  credentialBlind : Bytes32
  credentialLeaf : Bytes32
  receipt : CanonicalReceipt
  deriving DecidableEq

/-- An issuance record, under the digest of its enrollment. -/
structure CredentialIssuanceRecord where
  enrollmentKey : JsString
  fingerprintHash : JsString
  result : IssuanceResult

/-- The issuances of the file. -/
abbrev IssuanceState := PlainObject CredentialIssuanceRecord.enrollmentKey

/-- What an operation waits for. -/
inductive Frame where
  | get
  | validate
  | registry (privateState : RegistryPrivateState)
  | claim (privateState : RegistryPrivateState)
  | join (privateState : RegistryPrivateState)
  | addCredential (privateState : RegistryPrivateState) (number : ℕ)
  | put (result : IssuanceResult)

/-- An entry of the `issuances` map, whose operation has no result while it is pending. -/
structure Issuance where
  fingerprint : JsString
  result : Option IssuanceResult

/-- The memory of the process. -/
structure Memory where
  issuances : JsString → Option Issuance := fun _ ↦ none
  queue : List IssuanceRequest := []
  running : Option (IssuanceRequest × Frame) := none

/-- An `addCredential` that was sent, under its number. -/
structure Transaction where
  number : ℕ
  request : IssuanceRequest
  privateState : RegistryPrivateState
  deriving DecidableEq

/-- The process, its stores and the transactions that it has sent: those on the way and those that the
registry has accepted, in order. -/
structure World where
  evidence : EvidenceState := emptyEvidenceState
  records : IssuanceState := .empty _
  pool : List Transaction := []
  leaves : List Transaction := []
  sent : ℕ := 0
  memory : Memory := {}

/-- The registry has accepted the transaction of a number. -/
def World.accepts (w : World) (number : ℕ) : Bool := w.leaves.any fun t ↦ t.number == number

/-! ## The material -/

section Material

variable {D : Type} (o : CredentialIssuerServiceOptions D)

/-- `deriveCredentialLeaf`, which throws if the claims cannot be encoded. -/
def deriveCredentialLeaf (holderBinding : Bytes32) (claims : CivicCredentialClaims)
    (credentialBlind : Bytes32) : Option Bytes32 := do
  let issuerId ← padBytes32 claims.issuerId
  let country ← padBytes32 claims.country
  let validUntil ← isoTimestampSeconds o.dateParse claims.validUntil
  if claims.credentialEpoch < 0 then none
  else
    return o.hashing.persistentCommit
      [o.hashing.pad "cico:credential:v1", holderBinding, issuerId, country,
        o.hashing.asBytes32 (ageClassCode claims.ageClass),
        o.hashing.asBytes32 (assuranceCode claims.assurance),
        o.hashing.asBytes32 claims.credentialEpoch.toNat, o.hashing.asBytes32 validUntil.toNat]
      credentialBlind

/-- The witnesses that `addCredential` asks the private state for, if they fit their Compact types. -/
def leafWitness (privateState : RegistryPrivateState) :
    Option (CredentialRegistryV1.LeafWitness Bytes32) :=
  if privateState.credentialAgeClass < 2 ^ 8 ∧ privateState.credentialAssurance < 2 ^ 8 ∧
      privateState.credentialValidUntil.toNat < 2 ^ 64 then
    some {
      holderBinding := privateState.holderBinding
      credentialCountry := privateState.credentialCountry
      credentialAgeClass := .ofNat privateState.credentialAgeClass
      credentialAssurance := .ofNat privateState.credentialAssurance
      credentialValidUntil := .ofNat privateState.credentialValidUntil.toNat
      credentialBlind := privateState.credentialBlind }
  else none

/-- The result of an operation, if the receipt is a canonical one. -/
def issuedResult (request : IssuanceRequest) (privateState : RegistryPrivateState)
    (receipt : CanonicalReceipt) : Option IssuanceResult :=
  if receipt.action ≠ .credential ∨ receipt.circuit ≠ js "addCredential" ∨
      receipt.contractAddress ≠ o.registryContractAddress ∨ receipt.network ≠ js "preview" then none
  else
    (deriveCredentialLeaf o request.holderBinding request.claims privateState.credentialBlind).map
      fun credentialLeaf ↦ {
        issuanceId := js "credential:" ++ receipt.transactionId
        credentialBlind := privateState.credentialBlind
        credentialLeaf
        receipt }

/-- `serializeIssuanceResult` lets the receipt of the result pass. -/
def isSerializable (receipt : CanonicalReceipt) : Bool :=
  receipt.network == js "preview" && receipt.transactionId != [] && receipt.transactionHash != [] &&
    receipt.contractAddress != [] && receipt.circuit != [] && receipt.blockHash != [] &&
    receipt.blockTimestamp != [] && 0 ≤ receipt.blockHeight && receipt.blockHeight ≤ maxSafeInteger

/-! ## The stores -/

/-- The call of `claim` for a request, which throws for an empty text. -/
def claimCall? (request : IssuanceRequest) : Option ClaimCall :=
  if h : request.evidenceAuthorization ≠ [] ∧ request.enrollmentId ≠ [] then
    some {
      evidenceAuthorization := request.evidenceAuthorization
      enrollmentId := request.enrollmentId
      issuanceMaterial := some (requestFingerprint request)
      authorization_ne := h.1
      enrollment_ne := h.2
      material_ne := by simp [requestFingerprint, objectText, js, utf16] }
  else none

/-- A claim is made with the texts of its request. -/
theorem claimCall?_eq {request : IssuanceRequest} {call : ClaimCall} (h : claimCall? request = some call) :
    call.evidenceAuthorization = request.evidenceAuthorization ∧
      call.enrollmentId = request.enrollmentId ∧
      call.issuanceMaterial = some (requestFingerprint request) := by
  unfold claimCall? at h
  split at h
  · obtain rfl := Option.some.inj h
    exact ⟨rfl, rfl, rfl⟩
  · cases h

/-- The digest under which an issuance is stored. -/
def enrollmentKey (request : IssuanceRequest) : JsString := digest o.sha256 "enrollment" request.enrollmentId

def fingerprintHash (request : IssuanceRequest) : JsString :=
  digest o.sha256 "issuance" (requestFingerprint request)

/-- The operation of `put`, which throws if another record is in place. -/
def putIssuance (records : IssuanceState) (record : CredentialIssuanceRecord) : Option IssuanceState :=
  match records.property record.enrollmentKey with
  | .undefined => some (records.assign record)
  | .inherited => none
  | .own existing =>
    if existing.fingerprintHash = record.fingerprintHash ∧ existing.result = record.result then
      some records
    else none

/-- The record of an operation. -/
def recordOf (request : IssuanceRequest) (result : IssuanceResult) : CredentialIssuanceRecord where
  enrollmentKey := enrollmentKey o request
  fingerprintHash := fingerprintHash o request
  result := result

/-- The stores after the update for which the operation waits. -/
def World.written (w : World) : World :=
  match w.memory.running with
  | some (request, .claim _) =>
    match claimCall? request with
    | some call => { w with evidence := (w.evidence.claim o.sha256 call).2 }
    | none => w
  | some (request, .put result) =>
    match putIssuance w.records (recordOf o request result) with
    | some records => { w with records }
    | none => w
  | _ => w

end Material

/-! ## The operations -/

/-- `issueCredential`. A call for an enrollment of the map shares its operation, or is a conflict. -/
def Memory.issueCredential (m : Memory) (request : IssuanceRequest) : Memory :=
  match m.issuances request.enrollmentId with
  | some _ => m
  | none =>
    { m with
      issuances := Function.update m.issuances request.enrollmentId
        (some ⟨requestFingerprint request, none⟩)
      queue := m.queue ++ [request] }

/-- What a call finds in the map when its operation has ended. -/
def Memory.answer (m : Memory) (request : IssuanceRequest) : Option IssuanceResult :=
  match m.issuances request.enrollmentId with
  | some issuance =>
    if issuance.fingerprint = requestFingerprint request then issuance.result else none
  | none => none

/-- The operation goes on to its next awaited call. -/
def World.goesOn (w : World) (request : IssuanceRequest) (frame : Frame) : World :=
  { w with memory := { w.memory with running := some (request, frame) } }

/-- The operation has a result. -/
def World.resolves (w : World) (request : IssuanceRequest) (result : IssuanceResult) : World :=
  { w with memory := { w.memory with
      issuances := Function.update w.memory.issuances request.enrollmentId
        (some ⟨requestFingerprint request, some result⟩)
      running := none } }

/-- The operation has failed and leaves the map. -/
def World.rejects (w : World) (request : IssuanceRequest) : World :=
  { w with memory := { w.memory with
      issuances := Function.update w.memory.issuances request.enrollmentId none
      running := none } }

/-- The answers of the awaited calls, failures, and what happens beside the service. -/
inductive Event where
  | issueCredential (request : IssuanceRequest)
  | begin
  | got
  | validated (authorized : Bool) (credentialBlind : Bytes32)
  | registryRead (frozen : Bool)
  | claimed
  | joined
  | receipt (receipt : CanonicalReceipt)
  | stored
  /-- The awaited call throws, before or after its store has written. -/
  | fails (written : Bool)
  /-- The registry accepts a transaction. -/
  | accept (number : ℕ)
  /-- The process ends, before or after its store has written, and is started again. -/
  | crash (written : Bool)

section Step

variable {D : Type} (o : CredentialIssuerServiceOptions D)

/-- A persisted issuance is returned or is a conflict. -/
def World.got (w : World) (request : IssuanceRequest) : World :=
  if request.enrollmentId = [] then w.rejects request
  else
    match w.records.property (enrollmentKey o request) with
    | .undefined => w.goesOn request .validate
    | .inherited => w.rejects request
    | .own persisted =>
      if persisted.fingerprintHash = fingerprintHash o request then w.resolves request persisted.result
      else w.rejects request

/-- The evidence was checked, and the credential gets its blind. -/
def World.validated (w : World) (request : IssuanceRequest) (authorized : Bool)
    (credentialBlind : Bytes32) : World :=
  match authorized, privateStateFor o.dateParse request o.issuerSecret credentialBlind with
  | true, some privateState =>
    w.goesOn request (if o.epochMutations then .registry privateState else .claim privateState)
  | _, _ => w.rejects request

/-- The authorization is claimed for the enrollment. -/
def World.claimed (w : World) (request : IssuanceRequest) (privateState : RegistryPrivateState) : World :=
  match claimCall? request with
  | some call =>
    if (w.evidence.claim o.sha256 call).1 then (w.written o).goesOn request (.join privateState)
    else (w.written o).rejects request
  | none => w.rejects request

/-- The contract was joined, and the transaction is sent. -/
def World.joined (w : World) (request : IssuanceRequest) (privateState : RegistryPrivateState) : World :=
  match leafWitness privateState with
  | some _ =>
    World.goesOn { w with pool := w.pool ++ [⟨w.sent, request, privateState⟩], sent := w.sent + 1 }
      request (.addCredential privateState w.sent)
  | none => w.rejects request

/-- The executor returned a receipt. -/
def World.receipt (w : World) (request : IssuanceRequest) (privateState : RegistryPrivateState)
    (receipt : CanonicalReceipt) : World :=
  match issuedResult o request privateState receipt with
  | some result => if isSerializable receipt then w.goesOn request (.put result) else w.rejects request
  | none => w.rejects request

/-- The issuance is stored. -/
def World.stored (w : World) (request : IssuanceRequest) (result : IssuanceResult) : World :=
  match putIssuance w.records (recordOf o request result) with
  | some _ => (w.written o).resolves request result
  | none => w.rejects request

/-- One step. The executor returns a receipt only for a transaction that the registry has accepted. -/
def step (w : World) : Event → Except Unit World
  | .issueCredential request => .ok { w with memory := w.memory.issueCredential request }
  | .begin =>
    match w.memory.running, w.memory.queue with
    | none, request :: queue =>
      .ok { w with memory := { w.memory with queue, running := some (request, .get) } }
    | _, _ => .error ()
  | .got =>
    match w.memory.running with
    | some (request, .get) => .ok (w.got o request)
    | _ => .error ()
  | .validated authorized credentialBlind =>
    match w.memory.running with
    | some (request, .validate) => .ok (w.validated o request authorized credentialBlind)
    | _ => .error ()
  | .registryRead frozen =>
    match w.memory.running with
    | some (request, .registry privateState) =>
      .ok (if frozen then w.rejects request else w.goesOn request (.claim privateState))
    | _ => .error ()
  | .claimed =>
    match w.memory.running with
    | some (request, .claim privateState) => .ok (w.claimed o request privateState)
    | _ => .error ()
  | .joined =>
    match w.memory.running with
    | some (request, .join privateState) => .ok (w.joined request privateState)
    | _ => .error ()
  | .receipt receipt =>
    match w.memory.running with
    | some (request, .addCredential privateState number) =>
      if w.accepts number then .ok (w.receipt o request privateState receipt) else .error ()
    | _ => .error ()
  | .stored =>
    match w.memory.running with
    | some (request, .put result) => .ok (w.stored o request result)
    | _ => .error ()
  | .fails written =>
    match w.memory.running with
    | some (request, _) => .ok ((if written then w.written o else w).rejects request)
    | none => .error ()
  | .accept number =>
    match w.pool.find? fun t ↦ t.number == number with
    | some t =>
      .ok { w with pool := w.pool.filter fun t ↦ t.number != number, leaves := w.leaves ++ [t] }
    | none => .error ()
  | .crash written => .ok { (if written then w.written o else w) with memory := {} }

/-! ## What a step can do -/

/-- One constructor for each event, with the frame in which it is accepted. -/
inductive Effect (w : World) : Event → World → Prop where
  | issueCredential (request : IssuanceRequest) :
    Effect w (.issueCredential request) { w with memory := w.memory.issueCredential request }
  | begin {request : IssuanceRequest} {queue : List IssuanceRequest}
      (running : w.memory.running = none) (head : w.memory.queue = request :: queue) :
    Effect w .begin { w with memory := { w.memory with queue, running := some (request, .get) } }
  | got {request : IssuanceRequest} (running : w.memory.running = some (request, .get)) :
    Effect w .got (w.got o request)
  | validated {request : IssuanceRequest} (authorized : Bool) (blind : Bytes32)
      (running : w.memory.running = some (request, .validate)) :
    Effect w (.validated authorized blind) (w.validated o request authorized blind)
  | registryRead {request : IssuanceRequest} {privateState : RegistryPrivateState} (frozen : Bool)
      (running : w.memory.running = some (request, .registry privateState)) :
    Effect w (.registryRead frozen)
      (if frozen then w.rejects request else w.goesOn request (.claim privateState))
  | claimed {request : IssuanceRequest} {privateState : RegistryPrivateState}
      (running : w.memory.running = some (request, .claim privateState)) :
    Effect w .claimed (w.claimed o request privateState)
  | joined {request : IssuanceRequest} {privateState : RegistryPrivateState}
      (running : w.memory.running = some (request, .join privateState)) :
    Effect w .joined (w.joined request privateState)
  | receipt {request : IssuanceRequest} {privateState : RegistryPrivateState} {number : ℕ}
      (receipt : CanonicalReceipt)
      (running : w.memory.running = some (request, .addCredential privateState number))
      (accepted : w.accepts number = true) :
    Effect w (.receipt receipt) (w.receipt o request privateState receipt)
  | stored {request : IssuanceRequest} {result : IssuanceResult}
      (running : w.memory.running = some (request, .put result)) :
    Effect w .stored (w.stored o request result)
  | fails {request : IssuanceRequest} {frame : Frame} (written : Bool)
      (running : w.memory.running = some (request, frame)) :
    Effect w (.fails written) ((if written then w.written o else w).rejects request)
  | accept (t : Transaction) (mem : t ∈ w.pool) :
    Effect w (.accept t.number) { w with
      pool := w.pool.filter fun t' ↦ t'.number != t.number, leaves := w.leaves ++ [t] }
  | crash (written : Bool) :
    Effect w (.crash written) { (if written then w.written o else w) with memory := {} }

variable {o} {w w' : World} {e : Event}

theorem effect_of_step (h : step o w e = .ok w') : Effect o w e w' := by
  cases e with
  | issueCredential request =>
    obtain rfl := Except.ok.inj h
    exact .issueCredential request
  | crash written =>
    obtain rfl := Except.ok.inj h
    exact .crash written
  | accept number =>
    simp only [step] at h
    split at h
    · next t hfind =>
      obtain rfl := Except.ok.inj h
      obtain rfl : t.number = number := by simpa using List.find?_some hfind
      exact .accept t (List.mem_of_find?_eq_some hfind)
    · cases h
  | begin =>
    simp only [step] at h
    split at h
    · next hrunning hqueue =>
      obtain rfl := Except.ok.inj h
      exact .begin hrunning hqueue
    · cases h
  | receipt receipt =>
    simp only [step] at h
    split at h
    · next hrunning =>
      split at h
      · next haccepted =>
        obtain rfl := Except.ok.inj h
        exact .receipt receipt hrunning haccepted
      · cases h
    · cases h
  | got =>
    simp only [step] at h
    split at h
    · next hrunning => exact Except.ok.inj h ▸ .got hrunning
    · cases h
  | validated authorized blind =>
    simp only [step] at h
    split at h
    · next hrunning => exact Except.ok.inj h ▸ .validated authorized blind hrunning
    · cases h
  | registryRead frozen =>
    simp only [step] at h
    split at h
    · next hrunning => exact Except.ok.inj h ▸ .registryRead frozen hrunning
    · cases h
  | claimed =>
    simp only [step] at h
    split at h
    · next hrunning => exact Except.ok.inj h ▸ .claimed hrunning
    · cases h
  | joined =>
    simp only [step] at h
    split at h
    · next hrunning => exact Except.ok.inj h ▸ .joined hrunning
    · cases h
  | stored =>
    simp only [step] at h
    split at h
    · next hrunning => exact Except.ok.inj h ▸ .stored hrunning
    · cases h
  | fails written =>
    simp only [step] at h
    split at h
    · next hrunning => exact Except.ok.inj h ▸ .fails written hrunning
    · cases h

end Step

end MidnightReferendum.CredentialIssuerService
