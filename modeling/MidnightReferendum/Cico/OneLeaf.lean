import MidnightReferendum.Cico.IssuerInvariant

/-!
# One leaf for each enrollment

Between the acceptance of an `addCredential` and the write of its issuance record nothing that is durable
tells the service that the enrollment has a leaf. As long as nothing ends the operation there, a leaf is
held by the operation that runs or has its record, and so no enrollment and no authorization gets a
second one.
-/

namespace MidnightReferendum.CredentialIssuerService

open Js Cico MidnightReferendum.Compact Execution
open Relayer (CanonicalReceipt not_prototype_of_isDigest)

variable {D : Type} (o : CredentialIssuerServiceOptions D)

/-! ## Undisturbed operations -/

/-- An `addCredential` is accepted while its operation waits for it, and from then on the operation goes
on until the issuance record is written: the call does not fail, the receipt is canonical, and neither a
failure nor the end of the process comes before the write. -/
def Uninterrupted (e : World × Event) : Bool :=
  match e.2, e.1.memory.running with
  | .accept number, some (_, .addCredential _ current) => current == number
  | .accept _, _ => false
  | .receipt receipt, some (request, .addCredential privateState _) =>
    (issuedResult o request privateState receipt).isSome && isSerializable receipt
  | .fails _, some (_, .addCredential _ number) => !e.1.accepts number
  | .fails written, some (_, .put _) => written
  | .crash _, some (_, .addCredential _ number) => !e.1.accepts number
  | .crash written, some (_, .put _) => written
  | _, _ => true

/-- The enrollment of a transaction has its record. -/
def Recorded (w : World) (t : Transaction) : Prop :=
  ∃ record, w.records.get? (enrollmentKey o t.request) = some record

/-- The operation that runs has sent the transaction. -/
def Held (w : World) (t : Transaction) : Prop :=
  (∃ privateState, w.memory.running = some (t.request, .addCredential privateState t.number)) ∨
    ∃ result, w.memory.running = some (t.request, .put result)

/-- The leaves are of distinct enrollments, and each is recorded or held. -/
structure Settled (w : World) : Prop where
  distinct : (w.leaves.map fun t ↦ enrollmentKey o t.request).Nodup
  settled : ∀ t ∈ w.leaves, Recorded o w t ∨ Held w t

variable {o} {Q : IssuanceRequest → Prop} {w w' : World} {e : Event}

/-! ## One step -/

/-- An operation that waits for something else holds no transaction. -/
theorem not_held {request : IssuanceRequest} {frame : Frame}
    (hrunning : w.memory.running = some (request, frame))
    (hadd : ∀ privateState number, frame ≠ .addCredential privateState number)
    (hput : ∀ result, frame ≠ .put result) (t : Transaction) : ¬Held w t := by
  intro hheld
  rcases hheld with ⟨privateState, hsame⟩ | ⟨result, hsame⟩
  · cases hrunning.symm.trans hsame
    exact hadd _ _ rfl
  · cases hrunning.symm.trans hsame
    exact hput _ rfl

theorem not_held_of_idle (hrunning : w.memory.running = none) (t : Transaction) : ¬Held w t := by
  intro hheld
  rcases hheld with ⟨privateState, hsome⟩ | ⟨result, hsome⟩
  · cases hrunning.symm.trans hsome
  · cases hrunning.symm.trans hsome

/-- A step that accepts no transaction keeps the leaves settled if none of them is let go. -/
theorem Settled.grows (h : Settled o w) (hleaves : w'.leaves = w.leaves) (hgrows : Grows o w w')
    (hheld : ∀ t ∈ w.leaves, Held w t → Recorded o w' t ∨ Held w' t) : Settled o w' where
  distinct := by
    rw [hleaves]
    exact h.distinct
  settled t ht := by
    rw [hleaves] at ht
    rcases h.settled t ht with hrecorded | hholds
    · obtain ⟨record, hget⟩ := hrecorded
      exact Or.inl ⟨record, hgrows.records _ _ hget⟩
    · exact hheld t ht hholds

theorem Settled.grows_of_not_held (h : Settled o w) (hleaves : w'.leaves = w.leaves)
    (hgrows : Grows o w w') (hheld : ∀ t, ¬Held w t) : Settled o w' :=
  h.grows hleaves hgrows fun t _ hholds ↦ absurd hholds (hheld t)

/-- The record of an operation that waits for its write. -/
theorem recorded_of_written {request : IssuanceRequest} {result : IssuanceResult} {t : Transaction}
    (h : Sound o Q w) (hrunning : w.memory.running = some (request, .put result)) (hheld : Held w t) :
    Recorded o (w.written o) t := by
  have hrequest : request = t.request := by
    rcases hheld with ⟨_, hsame⟩ | ⟨_, hsame⟩
    · cases hrunning.symm.trans hsame
    · cases hrunning.symm.trans hsame
      rfl
  have hfresh : Fresh o w request := (h.running _ _ hrunning).2.1
  refine ⟨recordOf o request result, ?_⟩
  rw [written_put hfresh hrunning]
  dsimp only
  rw [get?_assign_recordOf, if_pos (by rw [hrequest])]

/-- A held leaf whose operation ends without an interruption has its record. -/
theorem recorded_of_ends {written : Bool} {t : Transaction} (h : Sound o Q w) (ht : t ∈ w.leaves)
    (hheld : Held w t)
    (hadd : ∀ request privateState number,
      w.memory.running = some (request, .addCredential privateState number) →
        w.accepts number = false)
    (hput : ∀ request result, w.memory.running = some (request, .put result) → written = true) :
    Recorded o (if written then w.written o else w) t := by
  rcases hheld with ⟨privateState, hrunning⟩ | ⟨result, hrunning⟩
  · have haccepts : w.accepts t.number = true :=
      List.any_eq_true.mpr ⟨t, ht, beq_self_eq_true _⟩
    rw [hadd _ _ _ hrunning] at haccepts
    cases haccepts
  · obtain rfl := hput _ _ hrunning
    exact recorded_of_written h hrunning (Or.inr ⟨result, hrunning⟩)

theorem waiting_of_accept {number : ℕ} (hsafe : Uninterrupted o (w, .accept number) = true) :
    ∃ request privateState, w.memory.running = some (request, .addCredential privateState number) := by
  cases hrunning : w.memory.running with
  | none => simp [Uninterrupted, hrunning] at hsafe
  | some running =>
    obtain ⟨request, frame⟩ := running
    cases frame with
    | addCredential privateState current =>
      have hsame : current = number := by simpa [Uninterrupted, hrunning] using hsafe
      exact ⟨request, privateState, by rw [hsame]⟩
    | _ => simp [Uninterrupted, hrunning] at hsafe

theorem Settled.accept (h : Settled o w) (hsound : Sound o Q w) {t : Transaction} (ht : t ∈ w.pool)
    (hsafe : Uninterrupted o (w, .accept t.number) = true) :
    Settled o { w with
      pool := w.pool.filter fun t' ↦ t'.number != t.number, leaves := w.leaves ++ [t] } := by
  obtain ⟨request, privateState, hwaiting⟩ := waiting_of_accept hsafe
  have hrunning : w.memory.running = some (t.request, .addCredential privateState t.number) := by
    obtain ⟨_, _, _, hcurrent⟩ := (hsound.running _ _ hwaiting).2
    rw [(hcurrent t (Or.inl ht) rfl).1]
    exact hwaiting
  have hfresh : Fresh o w t.request := (hsound.running _ _ hrunning).2.1
  constructor
  · rw [List.map_append, List.map_singleton, ← List.concat_eq_append]
    refine h.distinct.concat fun hmem ↦ ?_
    obtain ⟨l, hl, hkey⟩ := List.mem_map.mp hmem
    rcases h.settled l hl with ⟨record, hget⟩ | hheld
    · rw [hkey, hfresh] at hget
      cases hget
    · rcases hheld with ⟨_, hsame⟩ | ⟨_, hsame⟩
      · rw [hrunning, Option.some.injEq, Prod.mk.injEq, Frame.addCredential.injEq] at hsame
        exact hsound.stored.apart t ht l hl hsame.2.2
      · rw [hrunning, Option.some.injEq, Prod.mk.injEq] at hsame
        cases hsame.2
  · intro l hl
    rcases List.mem_append.mp hl with hold | hnew
    · exact h.settled l hold
    · obtain rfl := List.mem_singleton.mp hnew
      exact Or.inr (Or.inl ⟨privateState, hrunning⟩)

theorem settled_step (h : Settled o w) (hsound : Sound o Q w) (hsafe : Uninterrupted o (w, e) = true)
    (heffect : Effect o w e w') : Settled o w' := by
  have hgrows := grows_step hsound heffect
  have hleaves := leaves_step heffect
  cases heffect with
  | issueCredential request =>
    refine h.grows rfl hgrows fun t _ hheld ↦ Or.inr ?_
    have hsame : (w.memory.issueCredential request).running = w.memory.running := by
      unfold Memory.issueCredential
      split <;> rfl
    simpa only [Held, hsame] using hheld
  | begin hrunning hqueue =>
    exact h.grows_of_not_held rfl hgrows (not_held_of_idle hrunning)
  | got hrunning =>
    refine h.grows_of_not_held (hleaves fun _ h ↦ by cases h) hgrows (not_held hrunning ?_ ?_)
    · exact fun _ _ h ↦ by cases h
    · exact fun _ h ↦ by cases h
  | validated authorized blind hrunning =>
    refine h.grows_of_not_held (hleaves fun _ h ↦ by cases h) hgrows (not_held hrunning ?_ ?_)
    · exact fun _ _ h ↦ by cases h
    · exact fun _ h ↦ by cases h
  | registryRead frozen hrunning =>
    refine h.grows_of_not_held (hleaves fun _ h ↦ by cases h) hgrows (not_held hrunning ?_ ?_)
    · exact fun _ _ h ↦ by cases h
    · exact fun _ h ↦ by cases h
  | claimed hrunning =>
    refine h.grows_of_not_held (hleaves fun _ h ↦ by cases h) hgrows (not_held hrunning ?_ ?_)
    · exact fun _ _ h ↦ by cases h
    · exact fun _ h ↦ by cases h
  | joined hrunning =>
    refine h.grows_of_not_held (hleaves fun _ h ↦ by cases h) hgrows (not_held hrunning ?_ ?_)
    · exact fun _ _ h ↦ by cases h
    · exact fun _ h ↦ by cases h
  | @receipt request privateState number receipt hrunning haccepted =>
    simp only [Uninterrupted, hrunning, Bool.and_eq_true] at hsafe
    obtain ⟨result, hresult⟩ := Option.isSome_iff_exists.mp hsafe.1
    refine h.grows (hleaves fun _ h ↦ by cases h) hgrows
      fun t _ hheld ↦ Or.inr (Or.inr ⟨result, ?_⟩)
    have hrequest : request = t.request := by
      rcases hheld with ⟨_, hsame⟩ | ⟨_, hsame⟩
      · rw [hrunning, Option.some.injEq, Prod.mk.injEq] at hsame
        exact hsame.1
      · rw [hrunning, Option.some.injEq, Prod.mk.injEq] at hsame
        cases hsame.2
    rw [World.receipt, hresult]
    simp only [hsafe.2, if_true, World.goesOn, hrequest]
  | @stored request result hrunning =>
    refine h.grows (hleaves fun _ h ↦ by cases h) hgrows fun t _ hheld ↦ Or.inl ?_
    have hfresh : Fresh o w request := (hsound.running _ _ hrunning).2.1
    rw [World.stored, putIssuance_of_fresh hfresh]
    exact recorded_of_written hsound hrunning hheld
  | fails written hrunning =>
    refine h.grows (hleaves fun _ h ↦ by cases h) hgrows fun t ht hheld ↦ Or.inl ?_
    apply recorded_of_ends hsound ht hheld
    · intro request privateState number hadd
      simpa [Uninterrupted, hadd] using hsafe
    · intro request result hput
      simpa [Uninterrupted, hput] using hsafe
  | accept t ht => exact h.accept hsound ht hsafe
  | crash written =>
    refine h.grows (hleaves fun _ h ↦ by cases h) hgrows fun t ht hheld ↦ Or.inl ?_
    apply recorded_of_ends hsound ht hheld
    · intro request privateState number hadd
      simpa [Uninterrupted, hadd] using hsafe
    · intro request result hput
      simpa [Uninterrupted, hput] using hsafe

/-! ## Every run -/

/-- An authorization is claimed for one enrollment. -/
theorem enrollmentKey_of_claimed {request request' : IssuanceRequest} (h : Claimed o w request)
    (h' : Claimed o w request')
    (hsame : request.evidenceAuthorization = request'.evidenceAuthorization) :
    enrollmentKey o request = enrollmentKey o request' := by
  obtain ⟨call, hcall, r, hget, henrollment, _⟩ := h
  obtain ⟨call', hcall', r', hget', henrollment', _⟩ := h'
  obtain ⟨hauthorization, hid, _⟩ := claimCall?_eq hcall
  obtain ⟨hauthorization', hid', _⟩ := claimCall?_eq hcall'
  rw [hauthorization, hsame, ← hauthorization'] at hget
  obtain rfl := Option.some.inj (hget.symm.trans hget')
  calc
    enrollmentKey o request = digest o.sha256 "enrollment" call.enrollmentId := by rw [enrollmentKey, hid]
    _ = r.enrollmentKey := henrollment.symm
    _ = digest o.sha256 "enrollment" call'.enrollmentId := henrollment'
    _ = enrollmentKey o request' := by rw [enrollmentKey, hid']

theorem settled_start : Settled o {} where
  distinct := List.nodup_nil
  settled _ hmem := by cases hmem

/-- In a run in which nothing ends an operation between the acceptance of its `addCredential` and the
write of its issuance record, the registry receives one leaf at most for each enrollment and for each
evidence authorization. -/
theorem one_leaf_per_enrollment (es : List Event)
    (hsafe : ∀ e ∈ accepted (step o) ({} : World) es, Uninterrupted o e = true) :
    ((run (step o) ({} : World) es).leaves.map fun t ↦ t.request.enrollmentId).Nodup ∧
      ((run (step o) ({} : World) es).leaves.map fun t ↦ t.request.evidenceAuthorization).Nodup := by
  have hrun : Sound o (fun _ ↦ True) (run (step o) ({} : World) es) ∧
      Settled o (run (step o) ({} : World) es) :=
    run_history (I := fun _ s ↦ Sound o (fun _ ↦ True) s ∧ Settled o s)
      (P := fun e ↦ Uninterrupted o e = true)
      (fun _ s e s' hs hP hok ↦ ⟨sound_step s e s' hs.1 (fun _ _ ↦ trivial) hok,
        settled_step hs.2 hs.1 hP (effect_of_step hok)⟩)
      ⟨sound_start, settled_start⟩ es hsafe
  obtain ⟨hsound, hsettled⟩ := hrun
  have hpairwise := List.pairwise_map.mp hsettled.distinct
  constructor
  · refine List.pairwise_map.mpr (hpairwise.imp fun hne hid ↦ hne ?_)
    rw [enrollmentKey, enrollmentKey, hid]
  · refine List.pairwise_map.mpr (hpairwise.imp_of_mem fun ha hb hne hauthorization ↦ hne ?_)
    exact enrollmentKey_of_claimed (hsound.stored.leaves _ ha).claimed
      (hsound.stored.leaves _ hb).claimed hauthorization

/-! ## Interrupted operations -/

/-- A service without an epoch coordinator. -/
def sampleOptions : CredentialIssuerServiceOptions ℕ where
  sha256 := sampleSha256
  dateParse text := if text = js "2026-01-02T00:00:00.000Z" then some 1767312000000 else none
  hashing := {
    persistentHash := fun _ ↦ emptyBytes
    persistentCommit := fun _ blind ↦ blind
    persistentCommitEnum := fun _ blind ↦ blind
    pad := fun _ ↦ emptyBytes
    asBytes32 := fun _ ↦ emptyBytes
    leafHash := fun _ ↦ 0
    transientHash := fun _ _ ↦ 0
    emptySubtree := fun _ ↦ 0
    defaultDigest := 0 }
  registryContractAddress := js "registry"
  issuerSecret := emptyBytes
  epochMutations := false

def sampleRequest : IssuanceRequest where
  enrollmentId := js "e1"
  provider := .rarimo
  evidenceAuthorization := js "a1"
  holderBinding := emptyBytes
  claims := {
    issuerId := js "cico"
    country := js "276"
    ageClass := .adult
    assurance := .documentNfc
    credentialEpoch := 1
    validFrom := js "2026-01-01T00:00:00.000Z"
    validUntil := js "2026-01-02T00:00:00.000Z" }

def sampleReceipt : CanonicalReceipt where
  action := .credential
  network := js "preview"
  transactionId := js "tx"
  transactionHash := js "hash"
  contractAddress := js "registry"
  circuit := js "addCredential"
  blockHeight := 1
  blockHash := js "block"
  blockTimestamp := js "2026-01-01T00:00:10.000Z"
  explorerUrl := none

/-- A call whose operation gets as far as the claim of its authorization. -/
def claiming (blind : UInt8) : List Event :=
  [.issueCredential sampleRequest, .begin, .got, .validated true (Vector.replicate 32 blind), .claimed]

/-- A first call fails to join the contract, and the next one ends with its record. -/
def repeatedCall : List Event :=
  claiming 1 ++ [.fails false] ++ claiming 2 ++ [.joined, .accept 0, .receipt sampleReceipt, .stored]

theorem one_leaf_per_enrollment_sample :
    (((run (step sampleOptions) ({} : World) repeatedCall).leaves.map
        fun t ↦ t.request.enrollmentId).Nodup ∧
      ((run (step sampleOptions) ({} : World) repeatedCall).leaves.map
        fun t ↦ t.request.evidenceAuthorization).Nodup) ∧
      (run (step sampleOptions) ({} : World) repeatedCall).leaves.length = 1 := by
  have hrun : (∀ e ∈ accepted (step sampleOptions) ({} : World) repeatedCall, Uninterrupted sampleOptions e = true) ∧
      (run (step sampleOptions) ({} : World) repeatedCall).leaves.length = 1 := by
    decide +kernel
  exact ⟨one_leaf_per_enrollment repeatedCall hrun.1, hrun.2⟩

/-- What can end an operation whose transaction was accepted: the process ends, the response is lost,
the receipt is not a canonical one, or the record cannot be written. -/
def interruptions : List (List Event) := [
  [.crash false],
  [.fails false],
  [.receipt { sampleReceipt with contractAddress := js "other" }],
  [.receipt sampleReceipt, .fails false]]

/-- A call that is interrupted and then repeated. -/
def interruptedCall (interruption : List Event) : List Event :=
  claiming 1 ++ [.joined, .accept 0] ++ interruption ++ claiming 2 ++ [.joined, .accept 1]

/-- After each of these the same call adds a second leaf. -/
theorem second_leaf_after_interruption : interruptions ≠ [] ∧ ∀ interruption ∈ interruptions,
    ¬((run (step sampleOptions) ({} : World) (interruptedCall interruption)).leaves.map
        fun t ↦ t.request.enrollmentId).Nodup ∧
      ¬((run (step sampleOptions) ({} : World) (interruptedCall interruption)).leaves.map
        fun t ↦ t.request.evidenceAuthorization).Nodup := by
  exact ⟨List.cons_ne_nil _ _, by decide +kernel⟩

end MidnightReferendum.CredentialIssuerService
