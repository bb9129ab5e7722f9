import MidnightReferendum.Cico.Issuance
import MidnightReferendum.Js.Utf8
import MidnightReferendum.Relayer.Persistence
import MidnightReferendum.Relayer.Tokens
import MidnightReferendum.Systems.LockRecords

/-!
# Claims of evidence authorizations

`FileEvidenceAuthorizationStore` on the `AtomicJsonStore` of the issuer. A file holds for every claimed
authorization the digests of the enrollment and of the issuance material, and any number of processes
claim authorizations under a lock file.
-/

namespace MidnightReferendum.Cico

open Js LockFile
open Relayer (record defined integer digestField field?_defined record?_record not_prototype_of_isDigest)

/-! ## Digests -/

/-- The bytes that are hashed for a value of a domain. -/
def digestBytes (domain : String) (value : JsString) : List UInt8 :=
  encodeUtf8 (js "cico:" ++ js domain ++ js ":v1:") ++ encodeUtf8 value

/-- `digest`, where `sha256` is SHA-256 of bytes. -/
def digest (sha256 : List UInt8 → Bytes32) (domain : String) (value : JsString) : JsString :=
  bytesToHex (sha256 (digestBytes domain value)).toList

theorem isDigest_bytesToHex (bytes : Bytes32) : isDigest (bytesToHex bytes.toList) = true := by
  have hhex : ∀ n < 16, (0x30 ≤ hexUnit n && hexUnit n ≤ 0x39) || (0x61 ≤ hexUnit n && hexUnit n ≤ 0x66) := by
    decide
  rw [isDigest, Bool.and_eq_true, beq_iff_eq, List.all_eq_true]
  constructor
  · simp [bytesToHex, hexByte, List.length_flatMap]
  · intro u hu
    obtain ⟨b, _, hb⟩ := List.mem_flatMap.mp hu
    have hlt := b.toNat_lt
    simp only [hexByte, List.mem_cons, List.not_mem_nil, or_false] at hb
    obtain rfl | rfl := hb
    · exact hhex _ (by omega)
    · exact hhex _ (by omega)

theorem isDigest_digest (sha256 : List UInt8 → Bytes32) (domain : String) (value : JsString) :
    isDigest (digest sha256 domain value) = true :=
  isDigest_bytesToHex _

/-- Digests are equal exactly if the hashes are. -/
theorem digest_eq_iff {sha256 : List UInt8 → Bytes32} {domain : String} {value value' : JsString} :
    digest sha256 domain value = digest sha256 domain value' ↔
      sha256 (digestBytes domain value) = sha256 (digestBytes domain value') := by
  constructor
  · intro h
    exact Vector.toList_inj.mp (bytesToHex_injective h)
  · intro h
    rw [digest, digest, h]

/-! ## The state -/

/-- A claimed authorization, under the digest of the authorization. -/
structure EvidenceAuthorizationRecord where
  authorizationKey : JsString
  enrollmentKey : JsString
  materialKey : Option JsString

/-- The version of the state is the constant 1. -/
structure EvidenceState where
  authorizations : PlainObject EvidenceAuthorizationRecord.authorizationKey

def emptyEvidenceState : EvidenceState := ⟨.empty _⟩

def EvidenceAuthorizationRecord.fields (r : EvidenceAuthorizationRecord) :
    List (JsString × Option Json) := [
  (js "enrollmentKey", some (.string r.enrollmentKey)),
  (js "materialKey", r.materialKey.map .string)]

def EvidenceState.fields (state : EvidenceState) : List (JsString × Option Json) := [
  (js "version", some (integer 1)),
  (js "authorizations", some (.object (state.authorizations.entries.map fun r ↦
    (r.authorizationKey, record r.fields))))]

/-- The value that `JSON.stringify` writes for a state. -/
def EvidenceState.serialize (state : EvidenceState) : Json := record state.fields

def corruptEvidence : String := "Evidence authorization state is corrupt or unsupported"

/-- The digest of the material or nothing. -/
def materialField (item : List (JsString × Json)) : Option (Option JsString) :=
  match field? item (js "materialKey") with
  | none => some none
  | some value => (value.string?.filter isDigest).map some

/-- An entry of the authorizations, if it is well formed. -/
def parseAuthorization (field : JsString × Json) : Option EvidenceAuthorizationRecord := do
  let item ← field.2.record?
  let enrollmentKey ← digestField item "enrollmentKey"
  let materialKey ← materialField item
  if isDigest field.1 then some ⟨field.1, enrollmentKey, present materialKey⟩ else none

/-- One turn of the loop over the entries. -/
def loadAuthorization (state : PlainObject EvidenceAuthorizationRecord.authorizationKey)
    (field : JsString × Json) :
    Except String (PlainObject EvidenceAuthorizationRecord.authorizationKey) :=
  match parseAuthorization field with
  | none => .error corruptEvidence
  | some r => .ok (state.assign r)

def parseEvidenceState (value : Json) : Except String EvidenceState :=
  match value.record? with
  | none => .error corruptEvidence
  | some fields =>
    match (field? fields (js "authorizations")).bind Json.record? with
    | none => .error corruptEvidence
    | some authorizations =>
      if (field? fields (js "version")).bind Json.safeInteger? ≠ some 1 then .error corruptEvidence
      else do
        let authorizations ← (propertyOrder Prod.fst authorizations).foldlM loadAuthorization (.empty _)
        return ⟨authorizations⟩

/-- A missing file is read as the empty state. -/
def readEvidence (file : Option Json) : Except String EvidenceState :=
  file.elim (.ok emptyEvidenceState) parseEvidenceState

/-! ## Claims -/

/-- The arguments of `claim`, which are not empty. -/
structure ClaimCall where
  evidenceAuthorization : JsString
  enrollmentId : JsString
  issuanceMaterial : Option JsString
  authorization_ne : evidenceAuthorization ≠ []
  enrollment_ne : enrollmentId ≠ []
  material_ne : issuanceMaterial ≠ some []
  deriving DecidableEq

section Claims

variable (sha256 : List UInt8 → Bytes32)

/-- The operation of `claim`. A name that is not an own property of the authorizations may be one of
`Object.prototype`, whose value has no `enrollmentKey`. -/
def EvidenceState.claim (state : EvidenceState) (call : ClaimCall) : Bool × EvidenceState :=
  let authorizationKey := digest sha256 "evidence" call.evidenceAuthorization
  let enrollmentKey := digest sha256 "enrollment" call.enrollmentId
  let materialKey := call.issuanceMaterial.map (digest sha256 "material")
  match state.authorizations.property authorizationKey with
  | .undefined =>
    (true, ⟨state.authorizations.assign ⟨authorizationKey, enrollmentKey, present materialKey⟩⟩)
  | .inherited => (false, state)
  | .own existing =>
    if existing.enrollmentKey ≠ enrollmentKey then (false, state)
    else
      match present existing.materialKey, present materialKey with
      | some known, some new => (decide (known = new), state)
      | none, some new => (true, ⟨state.authorizations.assign { existing with materialKey := some new }⟩)
      | _, none => (true, state)

/-- A claim reads the file and writes it back. -/
def ClaimCall.apply (call : ClaimCall) (file : Option Json) : Except String (Bool × Json) :=
  match readEvidence file with
  | .error e => .error e
  | .ok state => .ok ((state.claim sha256 call).1, (state.claim sha256 call).2.serialize)

/-- The part of `recoverDeadLock` that asks for the owner. A lock of the own process is spared. -/
def sparesOwner (self : ℕ) (isProcessAlive : ℕ → Bool) : Option ℕ → Bool
  | none => false
  | some ownerPid => ownerPid == self || isProcessAlive ownerPid

/-- The options of a store. -/
structure DurableFileStoreOptions where
  lockTimeoutMs : ℕ := 10000
  staleLockMs : ℕ := 30000

def claimProtocol (options : DurableFileStoreOptions) : Protocol ClaimCall Bool Json String where
  lockTimeoutMs := options.lockTimeoutMs
  staleLockMs := options.staleLockMs
  spares := sparesOwner
  contends := true
  restricts := true
  sweeps := true
  apply := ClaimCall.apply sha256

end Claims

/-! ## What is written is read back -/

/-- A record whose keys are digests. -/
structure EvidenceAuthorizationRecord.Valid (r : EvidenceAuthorizationRecord) : Prop where
  authorizationKey : isDigest r.authorizationKey = true
  enrollmentKey : isDigest r.enrollmentKey = true
  materialKey : ∀ m ∈ r.materialKey, isDigest m = true

def EvidenceState.Valid (state : EvidenceState) : Prop := ∀ r ∈ state.authorizations.entries, r.Valid

theorem present_of_isDigest {text : JsString} (h : isDigest text = true) : present (some text) = some text := by
  apply present_of_ne
  intro heq
  obtain rfl := Option.some.inj heq
  cases h

theorem present_of_digests {text : Option JsString} (h : ∀ m ∈ text, isDigest m = true) :
    present text = text := by
  cases text with
  | none => rfl
  | some m => exact present_of_isDigest (h m rfl)

theorem EvidenceAuthorizationRecord.fields_nodup (r : EvidenceAuthorizationRecord) :
    (r.fields.map Prod.fst).Nodup := by
  simp only [fields, List.map_cons, List.map_nil]
  decide +kernel

theorem EvidenceState.fields_nodup (state : EvidenceState) : (state.fields.map Prod.fst).Nodup := by
  simp only [fields, List.map_cons, List.map_nil]
  decide +kernel

theorem parseAuthorization_record {r : EvidenceAuthorizationRecord} (h : r.Valid) :
    parseAuthorization (r.authorizationKey, record r.fields) = some r := by
  have hread : ∀ field ∈ r.fields, field? (defined r.fields) field.1 = field.2 :=
    fun _ hmem ↦ field?_defined r.fields_nodup hmem
  simp only [parseAuthorization, record?_record]
  generalize defined r.fields = fields at hread ⊢
  simp only [EvidenceAuthorizationRecord.fields, List.forall_mem_cons, List.not_mem_nil, false_imp_iff,
    implies_true, and_true] at hread
  have hmaterial : materialField fields = some r.materialKey := by
    simp only [materialField, hread]
    cases hm : r.materialKey with
    | none => rfl
    | some m => simp only [Option.map_some, Json.string?_string, Option.filter_some, h.materialKey m hm, if_true]
  simp only [digestField, Relayer.textField, hread, hmaterial, Option.bind_some, Json.string?_string,
    Option.filter_some, h.enrollmentKey, h.authorizationKey, if_true, Option.bind_eq_bind,
    present_of_digests h.materialKey]

theorem parseAuthorization_valid {field : JsString × Json} {r : EvidenceAuthorizationRecord}
    (h : parseAuthorization field = some r) : r.Valid := by
  simp only [parseAuthorization, Option.bind_eq_bind, Option.bind_eq_some_iff] at h
  obtain ⟨item, _, enrollmentKey, henrollment, materialKey, hmaterial, hkey⟩ := h
  split at hkey
  · next hkeyed =>
    obtain rfl := Option.some.inj hkey
    refine ⟨hkeyed, ?_, fun m hm ↦ ?_⟩
    · exact (Option.filter_eq_some_iff.mp henrollment).2
    · have hsome : materialKey = some m := by
        change present materialKey = some m at hm
        unfold present at hm
        split at hm
        · exact hm
        · cases hm
      rw [materialField] at hmaterial
      split at hmaterial
      · rw [← Option.some.inj hmaterial] at hsome
        cases hsome
      · obtain ⟨text, htext, rfl⟩ := Option.map_eq_some_iff.mp hmaterial
        obtain rfl := Option.some.inj hsome
        exact (Option.filter_eq_some_iff.mp htext).2
  · cases hkey

/-- An assignment under a digest. -/
theorem mem_assign {o : PlainObject EvidenceAuthorizationRecord.authorizationKey}
    {a r : EvidenceAuthorizationRecord} (h : r ∈ (o.assign a).entries) : r = a ∨ r ∈ o.entries := by
  rw [PlainObject.assign] at h
  split at h
  · exact Or.inr h
  · rw [PlainObject.entries_ofKeyed, mem_propertyOrder, KeyedList.mem_set] at h
    exact h.imp_right And.left

theorem EvidenceState.Valid.assign {state : EvidenceState} (h : state.Valid)
    {a : EvidenceAuthorizationRecord} (ha : a.Valid) :
    EvidenceState.Valid ⟨state.authorizations.assign a⟩ := by
  intro r hr
  cases mem_assign hr with
  | inl heq => exact heq ▸ ha
  | inr hold => exact h r hold

theorem valid_of_loop {fields : List (JsString × Json)}
    {o o' : PlainObject EvidenceAuthorizationRecord.authorizationKey}
    (hloop : fields.foldlM loadAuthorization o = .ok o') (h : EvidenceState.Valid ⟨o⟩) :
    EvidenceState.Valid ⟨o'⟩ := by
  induction fields generalizing o with
  | nil =>
    obtain rfl := Except.ok.inj hloop
    exact h
  | cons field fields ih =>
    rw [List.foldlM_cons, loadAuthorization] at hloop
    cases hparse : parseAuthorization field with
    | none =>
      rw [hparse] at hloop
      cases hloop
    | some r =>
      rw [hparse] at hloop
      exact ih hloop (h.assign (parseAuthorization_valid hparse))

theorem emptyEvidenceState_valid : emptyEvidenceState.Valid := fun _ hr ↦ by cases hr

theorem readEvidence_valid {file : Option Json} {state : EvidenceState}
    (h : readEvidence file = .ok state) : state.Valid := by
  cases file with
  | none =>
    obtain rfl := Except.ok.inj h
    exact emptyEvidenceState_valid
  | some value =>
    change parseEvidenceState value = .ok state at h
    rw [parseEvidenceState] at h
    split at h
    · cases h
    · split at h
      · cases h
      · next fields _ authorizations _ =>
        split at h
        · cases h
        · cases hloop : (propertyOrder Prod.fst authorizations).foldlM loadAuthorization (.empty _) with
          | error e =>
            rw [hloop] at h
            cases h
          | ok o =>
            rw [hloop] at h
            obtain rfl := Except.ok.inj h
            exact valid_of_loop hloop emptyEvidenceState_valid

theorem readEvidence_serialize {state : EvidenceState} (h : state.Valid) :
    readEvidence (some state.serialize) = .ok state := by
  have horder : propertyOrder Prod.fst (state.authorizations.entries.map fun r ↦
      (r.authorizationKey, record r.fields)) =
        state.authorizations.entries.map fun r ↦ (r.authorizationKey, record r.fields) := by
    rw [propertyOrder_map EvidenceAuthorizationRecord.authorizationKey
      (f := fun r ↦ (r.authorizationKey, record r.fields)) (fun _ ↦ rfl),
      propertyOrder_eq_self _ state.authorizations.ordered]
  have hloop : (state.authorizations.entries.map fun r ↦
      (r.authorizationKey, record r.fields)).foldlM loadAuthorization (.empty _) =
        .ok state.authorizations := by
    refine PlainObject.foldlM_assign (fun r hr acc ↦ ?_) fun r hr ↦
      not_prototype_of_isDigest (h r hr).authorizationKey
    rw [loadAuthorization, parseAuthorization_record (h r hr)]
  have hread : ∀ field ∈ state.fields, field? (defined state.fields) field.1 = field.2 :=
    fun _ hmem ↦ field?_defined state.fields_nodup hmem
  change parseEvidenceState state.serialize = .ok state
  simp only [parseEvidenceState, EvidenceState.serialize, record?_record]
  generalize defined state.fields = fields at hread ⊢
  simp only [EvidenceState.fields, List.forall_mem_cons, List.not_mem_nil, false_imp_iff, implies_true,
    and_true] at hread
  simp only [hread, Option.bind_some, Json.record?_object,
    Relayer.safeInteger?_integer (n := 1) (by decide), ne_eq, not_true_eq_false, if_false, horder, hloop]
  rfl

/-! ## What a claim records -/

section Records

variable {sha256 : List UInt8 → Bytes32} {state : EvidenceState} {call other : ClaimCall}

/-- The state records the enrollment and the material of a claim. -/
def EvidenceState.Remembers (sha256 : List UInt8 → Bytes32) (state : EvidenceState)
    (call : ClaimCall) : Prop :=
  ∃ r, state.authorizations.get? (digest sha256 "evidence" call.evidenceAuthorization) = some r ∧
    r.enrollmentKey = digest sha256 "enrollment" call.enrollmentId ∧
    ∀ m ∈ call.issuanceMaterial, r.materialKey = some (digest sha256 "material" m)

theorem get?_assign {s : EvidenceState} {a : EvidenceAuthorizationRecord}
    (h : isDigest a.authorizationKey = true) (k : JsString) : (s.authorizations.assign a).get? k =
      if a.authorizationKey = k then some a else s.authorizations.get? k :=
  s.authorizations.get?_assign (not_prototype_of_isDigest h) k

/-- What a claim can do to the state. -/
inductive ClaimEffect (sha256 : List UInt8 → Bytes32) (state : EvidenceState) (call : ClaimCall) :
    Bool × EvidenceState → Prop where
  | rejected : ClaimEffect sha256 state call (false, state)
  | first (free : state.authorizations.get? (digest sha256 "evidence" call.evidenceAuthorization) = none) :
      ClaimEffect sha256 state call (true, ⟨state.authorizations.assign
        ⟨digest sha256 "evidence" call.evidenceAuthorization, digest sha256 "enrollment" call.enrollmentId,
          call.issuanceMaterial.map (digest sha256 "material")⟩⟩)
  | strengthened (r : EvidenceAuthorizationRecord) (m : JsString)
      (known : state.authorizations.get? (digest sha256 "evidence" call.evidenceAuthorization) = some r)
      (enrollment : r.enrollmentKey = digest sha256 "enrollment" call.enrollmentId)
      (weak : r.materialKey = none) (material : call.issuanceMaterial = some m) :
      ClaimEffect sha256 state call (true, ⟨state.authorizations.assign
        { r with materialKey := some (digest sha256 "material" m) }⟩)
  | repeated (r : EvidenceAuthorizationRecord)
      (known : state.authorizations.get? (digest sha256 "evidence" call.evidenceAuthorization) = some r)
      (enrollment : r.enrollmentKey = digest sha256 "enrollment" call.enrollmentId)
      (material : ∀ m ∈ call.issuanceMaterial, r.materialKey = some (digest sha256 "material" m)) :
      ClaimEffect sha256 state call (true, state)

theorem claim_effect (h : state.Valid) : ClaimEffect sha256 state call (state.claim sha256 call) := by
  have hmaterial : present (call.issuanceMaterial.map (digest sha256 "material")) =
      call.issuanceMaterial.map (digest sha256 "material") := by
    refine present_of_digests fun m hm ↦ ?_
    obtain ⟨text, _, rfl⟩ := Option.map_eq_some_iff.mp hm
    exact isDigest_digest sha256 "material" text
  rw [EvidenceState.claim]
  simp only [hmaterial, PlainObject.property]
  cases hget : state.authorizations.get? (digest sha256 "evidence" call.evidenceAuthorization) with
  | none =>
    have hname : digest sha256 "evidence" call.evidenceAuthorization ∉ prototypeNames :=
      not_prototype_of_isDigest (isDigest_digest sha256 "evidence" _)
    simp only [if_neg hname]
    exact .first hget
  | some r =>
    have hr : r.Valid := h r (KeyedList.mem_of_get? hget)
    simp only [present_of_digests hr.materialKey]
    by_cases henrollment : r.enrollmentKey = digest sha256 "enrollment" call.enrollmentId
    · rw [if_neg (not_not.mpr henrollment)]
      cases hknown : r.materialKey with
      | none =>
        cases hnew : call.issuanceMaterial with
        | none =>
          refine .repeated r hget henrollment fun m hm ↦ ?_
          rw [hnew] at hm
          cases hm
        | some m => exact .strengthened r m hget henrollment hknown hnew
      | some known =>
        cases hnew : call.issuanceMaterial with
        | none =>
          refine .repeated r hget henrollment fun m hm ↦ ?_
          rw [hnew] at hm
          cases hm
        | some m =>
          simp only [Option.map_some]
          by_cases hsame : known = digest sha256 "material" m
          · rw [decide_eq_true hsame]
            refine .repeated r hget henrollment fun m' hm' ↦ ?_
            rw [hnew] at hm'
            obtain rfl := Option.some.inj hm'
            rw [hknown, hsame]
          · rw [decide_eq_false hsame]
            exact .rejected
    · rw [if_pos henrollment]
      exact .rejected

theorem claim_valid (h : state.Valid) : (state.claim sha256 call).2.Valid := by
  have heffect : ClaimEffect sha256 state call (state.claim sha256 call) := claim_effect h
  generalize state.claim sha256 call = result at heffect
  cases heffect with
  | rejected => exact h
  | first hfree =>
    refine h.assign ⟨isDigest_digest sha256 "evidence" _, isDigest_digest sha256 "enrollment" _, fun m hm ↦ ?_⟩
    obtain ⟨text, _, rfl⟩ := Option.map_eq_some_iff.mp hm
    exact isDigest_digest sha256 "material" text
  | strengthened r m hknown henrollment hweak hmaterial =>
    have hr : r.Valid := h r (KeyedList.mem_of_get? hknown)
    refine h.assign ⟨hr.authorizationKey, hr.enrollmentKey, fun m' hm' ↦ ?_⟩
    obtain rfl := Option.some.inj hm'
    exact isDigest_digest sha256 "material" m
  | repeated r hknown henrollment hmaterial => exact h

/-- A claim that is accepted is recorded. -/
theorem claim_remembers (h : state.Valid) (haccepted : (state.claim sha256 call).1 = true) :
    (state.claim sha256 call).2.Remembers sha256 call := by
  have heffect : ClaimEffect sha256 state call (state.claim sha256 call) := claim_effect h
  generalize state.claim sha256 call = result at heffect haccepted
  cases heffect with
  | rejected => cases haccepted
  | first hfree =>
    have hassign := get?_assign (s := state) (a := ⟨digest sha256 "evidence" call.evidenceAuthorization,
      digest sha256 "enrollment" call.enrollmentId, call.issuanceMaterial.map (digest sha256 "material")⟩)
      (isDigest_digest sha256 "evidence" _) (digest sha256 "evidence" call.evidenceAuthorization)
    rw [if_pos rfl] at hassign
    refine ⟨_, hassign, rfl, fun m hm ↦ ?_⟩
    rw [Option.mem_def.mp hm]
    rfl
  | strengthened r m hknown henrollment hweak hmaterial =>
    have hassign := get?_assign (s := state) (a := { r with materialKey := some (digest sha256 "material" m) })
      (h r (KeyedList.mem_of_get? hknown)).authorizationKey
      (digest sha256 "evidence" call.evidenceAuthorization)
    rw [if_pos (KeyedList.key_of_get? hknown)] at hassign
    refine ⟨_, hassign, henrollment, fun m' hm' ↦ ?_⟩
    rw [hmaterial] at hm'
    obtain rfl := Option.some.inj hm'
    rfl
  | repeated r hknown henrollment hmaterial => exact ⟨r, hknown, henrollment, hmaterial⟩

/-- What is recorded stays recorded under every other claim. -/
theorem claim_keeps (h : state.Valid) (hremembers : state.Remembers sha256 other) :
    (state.claim sha256 call).2.Remembers sha256 other := by
  have heffect : ClaimEffect sha256 state call (state.claim sha256 call) := claim_effect h
  generalize state.claim sha256 call = result at heffect
  obtain ⟨r', hget, henrolled, hkept⟩ := hremembers
  cases heffect with
  | rejected => exact ⟨r', hget, henrolled, hkept⟩
  | first hfree =>
    refine ⟨r', ?_, henrolled, hkept⟩
    have hne : digest sha256 "evidence" call.evidenceAuthorization ≠
        digest sha256 "evidence" other.evidenceAuthorization := by
      intro heq
      rw [heq, hget] at hfree
      cases hfree
    rw [get?_assign (isDigest_digest sha256 "evidence" _), if_neg hne, hget]
  | strengthened r m hknown henrollment hweak hmaterial =>
    have hkey : r.authorizationKey = digest sha256 "evidence" call.evidenceAuthorization :=
      KeyedList.key_of_get? hknown
    have hassign := get?_assign (s := state) (a := { r with materialKey := some (digest sha256 "material" m) })
      (h r (KeyedList.mem_of_get? hknown)).authorizationKey
      (digest sha256 "evidence" other.evidenceAuthorization)
    by_cases heq : r.authorizationKey = digest sha256 "evidence" other.evidenceAuthorization
    · have hsame : r = r' := by
        rw [← hkey, heq, hget] at hknown
        exact (Option.some.inj hknown).symm
      subst hsame
      rw [if_pos heq] at hassign
      refine ⟨_, hassign, henrolled, fun m' hm' ↦ ?_⟩
      have hstrong := hkept m' hm'
      rw [hweak] at hstrong
      cases hstrong
    · rw [if_neg heq, hget] at hassign
      exact ⟨r', hassign, henrolled, hkept⟩
  | repeated r hknown henrollment hmaterial => exact ⟨r', hget, henrolled, hkept⟩

end Records

/-! ## Runs -/

/-- The file records a claim. -/
def Remembered (sha256 : List UInt8 → Bytes32) (call : ClaimCall) (file : Option Json) : Prop :=
  ∃ state, readEvidence file = .ok state ∧ state.Remembers sha256 call

/-- One file that records two claims of an authorization records both in one entry. -/
theorem remembered_same {sha256 : List UInt8 → Bytes32} {c c' : ClaimCall} {file : Option Json}
    (h : Remembered sha256 c file) (h' : Remembered sha256 c' file)
    (hsame : c.evidenceAuthorization = c'.evidenceAuthorization) :
    ∃ r : EvidenceAuthorizationRecord, r.enrollmentKey = digest sha256 "enrollment" c.enrollmentId ∧
      r.enrollmentKey = digest sha256 "enrollment" c'.enrollmentId ∧
      (∀ m ∈ c.issuanceMaterial, r.materialKey = some (digest sha256 "material" m)) ∧
      ∀ m ∈ c'.issuanceMaterial, r.materialKey = some (digest sha256 "material" m) := by
  obtain ⟨state, hread, r, hget, henrolled, hkept⟩ := h
  obtain ⟨state', hread', r', hget', henrolled', hkept'⟩ := h'
  obtain rfl := Except.ok.inj (hread.symm.trans hread')
  rw [← hsame, hget] at hget'
  obtain rfl := Option.some.inj hget'
  exact ⟨r, henrolled, henrolled', hkept, hkept'⟩

theorem apply_eq_ok {sha256 : List UInt8 → Bytes32} {call : ClaimCall} {file : Option Json}
    {claimed : Bool} {content : Json} (h : call.apply sha256 file = .ok (claimed, content)) :
    ∃ state, readEvidence file = .ok state ∧ (state.claim sha256 call).1 = claimed ∧
      content = (state.claim sha256 call).2.serialize := by
  rw [ClaimCall.apply] at h
  cases hread : readEvidence file with
  | error e =>
    rw [hread] at h
    cases h
  | ok state =>
    rw [hread] at h
    obtain ⟨rfl, rfl⟩ := Prod.mk.inj (Except.ok.inj h)
    exact ⟨state, rfl, rfl, rfl⟩

/-- The hash has no collision among the bytes of the enrollments and of the materials of the calls. -/
structure CollisionFree (sha256 : List UInt8 → Bytes32) (calls : Set ClaimCall) : Prop where
  enrollment : Set.InjOn sha256 ((fun call ↦ digestBytes "enrollment" call.enrollmentId) '' calls)
  material : Set.InjOn sha256
    {bytes | ∃ call ∈ calls, ∃ m, call.issuanceMaterial = some m ∧ bytes = digestBytes "material" m}

/-- Calls for one authorization name the same enrollment and material wherever the bytes are the same. Only texts
with lone surrogates have bytes in common. -/
structure DistinctBytes (calls : Set ClaimCall) : Prop where
  enrollment : ∀ c ∈ calls, ∀ c' ∈ calls, c.evidenceAuthorization = c'.evidenceAuthorization →
    encodeUtf8 c.enrollmentId = encodeUtf8 c'.enrollmentId → c.enrollmentId = c'.enrollmentId
  material : ∀ c ∈ calls, ∀ c' ∈ calls, c.evidenceAuthorization = c'.evidenceAuthorization →
    ∀ m m', c.issuanceMaterial = some m → c'.issuanceMaterial = some m' → encodeUtf8 m = encodeUtf8 m' → m = m'

/-- All accepted claims of an authorization name one enrollment and at most one material, and the file records
them. -/
structure ClaimedOnce (sha256 : List UInt8 → Bytes32) (w : World ClaimCall Bool Json String) :
    Prop where
  enrollment : ∀ {c c'}, (c, true) ∈ w.results → (c', true) ∈ w.results →
    c.evidenceAuthorization = c'.evidenceAuthorization → c.enrollmentId = c'.enrollmentId
  material : ∀ {c c' m m'}, (c, true) ∈ w.results → (c', true) ∈ w.results →
    c.evidenceAuthorization = c'.evidenceAuthorization → c.issuanceMaterial = some m →
    c'.issuanceMaterial = some m' → m = m'
  remembered : ∀ {c}, (c, true) ∈ w.results → Remembered sha256 c (w.file.map Prod.snd)

section Runs

variable (sha256 : List UInt8 → Bytes32) (options : DurableFileStoreOptions) (left : Option (Option ℕ × ℕ))
  (file : Option Json)

theorem remembered_after {es : List (Event ClaimCall)}
    (hdead : ∀ e ∈ Execution.trace (step (claimProtocol sha256 options)) (start left file) es,
      RecoversDead e.1 e.2) {call : ClaimCall}
    (h : (call, true) ∈ (after (claimProtocol sha256 options) (start left file) es).results) :
    Remembered sha256 call
      ((after (claimProtocol sha256 options) (start left file) es).file.map Prod.snd) := by
  have hnew : ∀ {op c r c'}, (claimProtocol sha256 options).apply op c = .ok (r, c') →
      r = true → Remembered sha256 op (some c') := by
    intro op c r c' happly hr
    obtain ⟨state, hread, hclaimed, rfl⟩ := apply_eq_ok happly
    have hvalid := readEvidence_valid hread
    exact ⟨_, readEvidence_serialize (claim_valid hvalid),
      claim_remembers hvalid (hclaimed.trans hr)⟩
  have hkeep : ∀ {op r c op' r' c'}, (r = true → Remembered sha256 op c) →
      (claimProtocol sha256 options).apply op' c = .ok (r', c') →
      r = true → Remembered sha256 op (some c') := by
    intro op r c op' r' c' hold happly hr
    obtain ⟨state, hread, _, rfl⟩ := apply_eq_ok happly
    obtain ⟨state', hread', hremembers⟩ := hold hr
    obtain rfl := Except.ok.inj (hread.symm.trans hread')
    have hvalid := readEvidence_valid hread
    exact ⟨_, readEvidence_serialize (claim_valid hvalid),
      claim_keeps hvalid hremembers⟩
  have hrecorded := recorded_after (Q := fun op r c ↦ r = true → Remembered sha256 op c) hnew hkeep
    (owned_start left file) (recorded_start left file) hdead
  exact hrecorded.settled (mem_results.mp h) rfl

/-- **An authorization is claimed once** in every run in which no recovery takes away the lock file of a call that
still uses it, and in which the calls for an authorization are told apart by their bytes: all calls that return true
for an authorization name the same enrollment and at most one issuance material, and the file records each of them in
every later state. -/
theorem authorization_claimed_once (es : List (Event ClaimCall))
    (hfree : CollisionFree sha256 {call | ∃ p, .call p call ∈ es})
    (hdistinct : DistinctBytes {call | ∃ p, .call p call ∈ es})
    (hdead : ∀ e ∈ Execution.trace (step (claimProtocol sha256 options)) (start left file) es,
      RecoversDead e.1 e.2) :
    ClaimedOnce sha256 (after (claimProtocol sha256 options) (start left file) es) := by
  have hremembered : ∀ {c}, (c, true) ∈ (after (claimProtocol sha256 options) (start left file) es).results →
      Remembered sha256 c ((after (claimProtocol sha256 options) (start left file) es).file.map Prod.snd) :=
    fun hmem ↦ remembered_after sha256 options left file hdead hmem
  have hcalled : ∀ {c}, (c, true) ∈ (after (claimProtocol sha256 options) (start left file) es).results →
      ∃ p, .call p c ∈ es := fun hmem ↦ called_of_settled (mem_results.mp hmem)
  refine ⟨fun {c c'} hc hc' hsame ↦ ?_, fun {c c' m m'} hc hc' hsame hm hm' ↦ ?_, hremembered⟩
  · obtain ⟨r, henrolled, henrolled', _, _⟩ := remembered_same (hremembered hc) (hremembered hc') hsame
    have hbytes := hfree.enrollment (Set.mem_image_of_mem _ (hcalled hc)) (Set.mem_image_of_mem _ (hcalled hc'))
      (digest_eq_iff.mp (henrolled.symm.trans henrolled'))
    exact hdistinct.enrollment c (hcalled hc) c' (hcalled hc') hsame (List.append_cancel_left hbytes)
  · obtain ⟨r, _, _, hkept, hkept'⟩ := remembered_same (hremembered hc) (hremembered hc') hsame
    have hdigests := Option.some.inj ((hkept m hm).symm.trans (hkept' m' hm'))
    have hbytes := hfree.material ⟨c, hcalled hc, m, hm, rfl⟩ ⟨c', hcalled hc', m', hm', rfl⟩
      (digest_eq_iff.mp hdigests)
    exact hdistinct.material c (hcalled hc) c' (hcalled hc') hsame m m' hm hm' (List.append_cancel_left hbytes)

end Runs

/-! ## Sample runs -/

/-- The last bytes of a text, filled up with zeros. -/
def sampleSha256 (bytes : List UInt8) : Bytes32 :=
  ⟨((bytes.reverse ++ List.replicate 32 0).take 32).toArray, by simp⟩

/-- A claim of one authorization for the given enrollment. -/
def sampleClaim (enrollment : UInt16) : ClaimCall where
  evidenceAuthorization := js "auth"
  enrollmentId := [enrollment]
  issuanceMaterial := some (js "material")
  authorization_ne := by decide
  enrollment_ne := by simp
  material_ne := by decide

/-- A call makes its next steps. -/
def turns (p : Party) (n : ℕ) : List (Event ClaimCall) := List.replicate n (.advance p)

/-- A process crashes while it holds the lock. Another process recovers the lock and claims, and then a claim for
another enrollment comes. -/
def recoveredRun : List (Event ClaimCall) :=
  .launch 1 :: .launch 2 :: .call ⟨1, 0⟩ (sampleClaim 0x61) :: turns ⟨1, 0⟩ 4 ++
    [.crash 1, .wait 30000, .call ⟨2, 0⟩ (sampleClaim 0x61)] ++ turns ⟨2, 0⟩ 17 ++
    .call ⟨2, 1⟩ (sampleClaim 0x62) :: turns ⟨2, 1⟩ 12

theorem authorization_claimed_once_sample :
    (after (claimProtocol sampleSha256 {}) (start none none) recoveredRun).results =
        [(sampleClaim 0x61, true), (sampleClaim 0x62, false)] ∧
      ClaimedOnce sampleSha256 (after (claimProtocol sampleSha256 {}) (start none none) recoveredRun) := by
  have hresults : (after (claimProtocol sampleSha256 {}) (start none none) recoveredRun).results =
      [(sampleClaim 0x61, true), (sampleClaim 0x62, false)] := by
    decide +kernel
  have hcheck : ((Execution.trace (step (claimProtocol sampleSha256 {})) (start none none)
      recoveredRun).all fun e ↦ recovers [⟨1, 0⟩, ⟨2, 0⟩, ⟨2, 1⟩] e.1 e.2) = true := by
    decide +kernel
  have hcalls : (recoveredRun.all fun e ↦ e.calling.all fun p ↦
      p ∈ ([⟨1, 0⟩, ⟨2, 0⟩, ⟨2, 1⟩] : List Party)) = true := by
    decide +kernel
  have hcalled : ∀ p call, .call p call ∈ recoveredRun → call = sampleClaim 0x61 ∨ call = sampleClaim 0x62 := by
    have hops : recoveredRun.filterMap Event.op? = [sampleClaim 0x61, sampleClaim 0x61, sampleClaim 0x62] := by
      decide +kernel
    intro p call hmem
    have hop : call ∈ recoveredRun.filterMap Event.op? := List.mem_filterMap.mpr ⟨_, hmem, rfl⟩
    rw [hops] at hop
    simpa using hop
  have hmaterial : ∀ p call, .call p call ∈ recoveredRun → ∀ m, call.issuanceMaterial = some m → m = js "material" := by
    intro p call hmem m hm
    obtain rfl | rfl := hcalled p call hmem
    · exact (Option.some.inj hm).symm
    · exact (Option.some.inj hm).symm
  have hfree : CollisionFree sampleSha256 {call | ∃ p, .call p call ∈ recoveredRun} := by
    refine ⟨?_, ?_⟩
    · intro e he e' he' heq
      obtain ⟨c, ⟨p, hc⟩, rfl⟩ := he
      obtain ⟨c', ⟨p', hc'⟩, rfl⟩ := he'
      obtain rfl | rfl := hcalled p c hc <;> obtain rfl | rfl := hcalled p' c' hc' <;>
        first | rfl | exact absurd heq (by decide +kernel)
    · intro bytes hbytes bytes' hbytes' _
      obtain ⟨c, ⟨p, hc⟩, m, hm, rfl⟩ := hbytes
      obtain ⟨c', ⟨p', hc'⟩, m', hm', rfl⟩ := hbytes'
      rw [hmaterial p c hc m hm, hmaterial p' c' hc' m' hm']
  have hdistinct : DistinctBytes {call | ∃ p, .call p call ∈ recoveredRun} := by
    refine ⟨?_, ?_⟩
    · intro c hc c' hc' _ heq
      obtain ⟨p, hc⟩ := hc
      obtain ⟨p', hc'⟩ := hc'
      obtain rfl | rfl := hcalled p c hc <;> obtain rfl | rfl := hcalled p' c' hc' <;>
        first | rfl | exact absurd heq (by decide +kernel)
    · intro c hc c' hc' _ m m' hm hm' _
      obtain ⟨p, hc⟩ := hc
      obtain ⟨p', hc'⟩ := hc'
      rw [hmaterial p c hc m hm, hmaterial p' c' hc' m' hm']
  exact ⟨hresults, authorization_claimed_once sampleSha256 {} none none recoveredRun hfree hdistinct
    (recoversDead_of_run hcalls hcheck)⟩

/-- Two processes recover the lock of a crashed one. The slower one takes away the lock file that the faster one
has created, and both read the file before either writes it. -/
def racingRun : List (Event ClaimCall) :=
  .launch 1 :: .launch 2 :: .launch 3 :: .call ⟨1, 0⟩ (sampleClaim 0x63) :: turns ⟨1, 0⟩ 4 ++
    [.crash 1, .wait 30000, .call ⟨2, 0⟩ (sampleClaim 0x61)] ++ turns ⟨2, 0⟩ 5 ++
    .call ⟨3, 0⟩ (sampleClaim 0x62) :: turns ⟨3, 0⟩ 12 ++ turns ⟨2, 0⟩ 12 ++ turns ⟨3, 0⟩ 5

/-- Two enrollments whose names are different lone surrogates, which have the same bytes. -/
def twinRun : List (Event ClaimCall) :=
  .launch 1 :: .call ⟨1, 0⟩ (sampleClaim 0xD800) :: turns ⟨1, 0⟩ 12 ++
    .call ⟨1, 1⟩ (sampleClaim 0xD801) :: turns ⟨1, 1⟩ 12

/-- Two claims of an authorization return true for different enrollments. -/
theorem not_claimedOnce {sha256 : List UInt8 → Bytes32} {w : World ClaimCall Bool Json String} {c c' : ClaimCall}
    (hresults : w.results = [(c, true), (c', true)]) (hsame : c.evidenceAuthorization = c'.evidenceAuthorization)
    (hne : c.enrollmentId ≠ c'.enrollmentId) : ¬ClaimedOnce sha256 w := by
  intro hclaimed
  apply hne
  apply hclaimed.enrollment _ _ hsame
  · rw [hresults]
    exact List.mem_cons_self
  · rw [hresults]
    exact List.mem_cons_of_mem _ List.mem_cons_self

/-- Both claims of the authorization return true, each for its own enrollment, and the file holds only one of
them. The same happens without any race if the enrollments have the same bytes. -/
theorem racing_claims_both_accepted :
    ((after (claimProtocol sampleSha256 {}) (start none none) racingRun).results =
        [(sampleClaim 0x61, true), (sampleClaim 0x62, true)] ∧
      ¬ClaimedOnce sampleSha256 (after (claimProtocol sampleSha256 {}) (start none none) racingRun)) ∧
    (after (claimProtocol sampleSha256 {}) (start none none) twinRun).results =
        [(sampleClaim 0xD800, true), (sampleClaim 0xD801, true)] ∧
      ¬ClaimedOnce sampleSha256 (after (claimProtocol sampleSha256 {}) (start none none) twinRun) := by
  have hraced : (after (claimProtocol sampleSha256 {}) (start none none) racingRun).results =
      [(sampleClaim 0x61, true), (sampleClaim 0x62, true)] := by
    decide +kernel
  have htwins : (after (claimProtocol sampleSha256 {}) (start none none) twinRun).results =
      [(sampleClaim 0xD800, true), (sampleClaim 0xD801, true)] := by
    decide +kernel
  exact ⟨⟨hraced, not_claimedOnce hraced rfl (by decide)⟩, htwins, not_claimedOnce htwins rfl (by decide)⟩

end MidnightReferendum.Cico
