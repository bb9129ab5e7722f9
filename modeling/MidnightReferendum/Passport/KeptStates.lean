import MidnightReferendum.Passport.StateStorage

/-!
# Private states stay readable

A record opens under the stored key only if this key sealed it. A call that stores a created key over a stored one
makes all earlier records unreadable, so the condition on a run is that no call does this.
-/

namespace MidnightReferendum.StateStorage

open Js PrivateState Execution

/-- The value is stored and read back as it is. -/
def Storable (value : Value) : Prop := value.Valid ∧ ¬value.HasTag

theorem unsealWith_sealWith {value : Value} (h : Storable value) (key : ℕ) :
    unsealWith key (sealWith key value) = .value (some value) := by
  have hback : deserializePrivateStateFromStorage (serializePrivateStateForStorage value) = some value := by
    rw [deserializePrivateStateFromStorage, serializePrivateStateForStorage, Json.parse_stringify h.1.replaced,
      Option.bind_some]
    exact (revive_replaced_iff h.1).mpr h.2
  have hdecode : decodeUtf8 (encodeUtf8 (serializePrivateStateForStorage value)) =
      serializePrivateStateForStorage value := decodeUtf8_encodeUtf8 h.1.replaced.isWellFormed
  rw [unsealWith, EncryptedRecord.decrypt, sealWith, if_pos rfl, Option.bind_some, hdecode, hback]

/-! ## The invariant -/

/-- The record is the value, sealed with the stored key. -/
def Seals (key : Option ℕ) (record : EncryptedRecord) (value : Value) : Prop :=
  Storable value ∧ ∃ k, key = some k ∧ record = sealWith k value

/-- What is true of a call that waits. -/
def FrameOk (key : Option ℕ) : Frame → Prop
  | .readingLegacy _ owed => owed = none
  | .encryptionKey (.toSeal _ value) | .created (.toSeal _ value) _ => Storable value
  | .encryptionKey (.toUnseal record owed) => ∀ value, owed = some value → Seals key record value
  -- A record that is owed has a stored key, so that no other is created for it.
  | .created (.toUnseal _ owed) _ => owed = none
  | .writing _ value record => Seals key record value
  | .reading _ _ | .removing _ _ | .removingSigningKey _ | .clearing _ => True

structure Inv (w : World) : Prop where
  kept : ∀ slot value, w.kept slot = some value →
    ∃ record, w.records slot = some record ∧ Seals w.encryptionKey record value
  calls : ∀ c frame, w.calls c = some frame → FrameOk w.encryptionKey frame
  returned : ∀ c value answer, w.returned c = some (some value, answer) → answer = .value (some value)

theorem inv_init : Inv init where
  kept slot value h := by cases h
  calls c frame h := by cases h
  returned c value answer h := by cases h

section Rules

variable {w : World} {c : ℕ}

theorem Seals.of_none {record : EncryptedRecord} {value : Value} (h : Seals none record value) (key : Option ℕ) :
    Seals key record value := by
  obtain ⟨_, k, hkey, _⟩ := h
  cases hkey

theorem FrameOk.of_none {frame : Frame} (h : FrameOk none frame) (key : Option ℕ) : FrameOk key frame := by
  cases frame with
  | encryptionKey use =>
    cases use with
    | toSeal slot value => exact h
    | toUnseal record owed => exact fun value howed ↦ (h value howed).of_none key
  | created use created =>
    cases use with
    | toSeal slot value => exact h
    | toUnseal record owed => exact h
  | writing slot value record => exact Seals.of_none h key
  | readingLegacy key owed => exact h
  | _ => trivial

theorem Inv.wait (h : Inv w) {frame : Frame} (hframe : FrameOk w.encryptionKey frame) : Inv (w.wait c frame) where
  kept := h.kept
  calls c' frame' hcall := by
    obtain ⟨_, rfl⟩ | ⟨_, hold⟩ := Tables.update_some_eq_some hcall
    · exact hframe
    · exact h.calls c' frame' hold
  returned := h.returned

theorem Inv.answer (h : Inv w) {owed : Option Value} {answer : Answer}
    (howed : ∀ value, owed = some value → answer = .value (some value)) : Inv (w.answer c owed answer) where
  kept := h.kept
  calls c' frame hcall := h.calls c' frame (Tables.update_none_eq_some hcall).2
  returned c' value answer' hreturned := by
    obtain ⟨_, heq⟩ | ⟨_, hold⟩ := Tables.update_some_eq_some hreturned
    · cases heq
      exact howed value rfl
    · exact h.returned c' value answer' hold

/-- Nothing is owed to a call that does not read. -/
theorem Inv.done (h : Inv w) (answer : Answer) : Inv (w.answer c none answer) :=
  h.answer fun value howed ↦ by cases howed

theorem Inv.put (h : Inv w) {slot : Slot} {record : EncryptedRecord} {value : Value}
    (hrecord : Seals w.encryptionKey record value) : Inv (w.put slot record value) where
  kept slot' value' hkept := by
    obtain ⟨rfl, rfl⟩ | ⟨hne, hold⟩ := Tables.update_some_eq_some hkept
    · exact ⟨record, Function.update_self .., hrecord⟩
    · obtain ⟨record', hrecords, hseals⟩ := h.kept slot' value' hold
      exact ⟨record', (Function.update_of_ne hne ..).trans hrecords, hseals⟩
  calls := h.calls
  returned := h.returned

theorem Inv.delete (h : Inv w) (slot : Slot) : Inv (w.delete slot) where
  kept slot' value hkept := by
    obtain ⟨hne, hold⟩ := Tables.update_none_eq_some hkept
    obtain ⟨record, hrecord, hseals⟩ := h.kept slot' value hold
    exact ⟨record, (Function.update_of_ne hne ..).trans hrecord, hseals⟩
  calls := h.calls
  returned := h.returned

theorem Inv.clear (h : Inv w) (store : Store) : Inv (w.clear store) where
  kept slot value hkept := by
    have hne : slot.1 ≠ store := by
      intro heq
      simp [World.clear, heq] at hkept
    simp only [World.clear, if_neg hne] at hkept ⊢
    exact h.kept slot value hkept
  calls := h.calls
  returned := h.returned

/-- The first key is stored. -/
theorem Inv.setKey (h : Inv w) (hnone : w.encryptionKey = none) (key : ℕ) :
    Inv { w with encryptionKey := some key } where
  kept slot value hkept := by
    obtain ⟨record, hrecord, hseals⟩ := h.kept slot value hkept
    rw [hnone] at hseals
    exact ⟨record, hrecord, hseals.of_none _⟩
  calls c frame hcall := by
    have hframe := h.calls c frame hcall
    rw [hnone] at hframe
    exact hframe.of_none _
  returned := h.returned

theorem Inv.withKey (h : Inv w) {key : ℕ} (hkey : w.encryptionKey = some key) {use : Use}
    (huse : FrameOk w.encryptionKey (.encryptionKey use)) : Inv (withKey w c key use) := by
  cases use with
  | toSeal slot value => exact h.wait ⟨huse, key, hkey, rfl⟩
  | toUnseal record owed =>
    refine h.answer fun value howed ↦ ?_
    obtain ⟨hstorable, k, hk, rfl⟩ := huse value howed
    obtain rfl : key = k := Option.some.inj (hkey.symm.trans hk)
    exact unsealWith_sealWith hstorable key

end Rules

/-! ## Steps and runs -/

/-- A call stores a created key only if none is stored, and the values that are set can be stored. -/
def Calm (w : World) : Event → Prop
  | .set _ _ _ value | .setSigningKey _ _ value => Storable value
  | .step c => ∀ use key, w.calls c = some (.created use key) → w.encryptionKey = none
  | _ => True

theorem Inv.advance {w : World} (h : Inv w) {c : ℕ} {frame : Frame} (hcall : w.calls c = some frame)
    (hcalm : Calm w (.step c)) : Inv (advance w c frame) := by
  have hframe := h.calls c frame hcall
  cases frame with
  | reading slot legacy =>
    have howed : ∀ {record}, w.records slot = some record → ∀ value, w.kept slot = some value →
        Seals w.encryptionKey record value := by
      intro record hrecord value hkept
      obtain ⟨record', hrecord', hseals⟩ := h.kept slot value hkept
      rwa [Option.some.inj (hrecord'.symm.trans hrecord)] at hseals
    have hnone : w.records slot = none → w.kept slot = none := by
      intro hrecord
      refine Option.eq_none_iff_forall_ne_some.mpr fun value hkept ↦ ?_
      obtain ⟨record, hsome, _⟩ := h.kept slot value hkept
      rw [hrecord] at hsome
      cases hsome
    unfold StateStorage.advance
    dsimp only
    split
    · next record _ hrecord => exact h.wait (howed hrecord)
    · next _ hrecord => exact h.wait (hnone hrecord)
    · next hrecord =>
      rw [hnone hrecord]
      exact h.done _
  | readingLegacy key owed =>
    obtain rfl : owed = none := hframe
    rw [StateStorage.advance]
    split
    · exact h.wait fun value howed ↦ by cases howed
    · exact h.done _
  | encryptionKey use =>
    rw [StateStorage.advance]
    split
    · next key hkey => exact h.withKey hkey hframe
    · next hkey =>
      have hdrawn : Inv { w with drawn := w.drawn + 1 } := ⟨h.kept, h.calls, h.returned⟩
      refine hdrawn.wait ?_
      cases use with
      | toSeal slot value => exact hframe
      | toUnseal record owed =>
        refine Option.eq_none_iff_forall_ne_some.mpr fun value howed ↦ ?_
        obtain ⟨_, k, hk, _⟩ := hframe value howed
        rw [hkey] at hk
        cases hk
  | created use key =>
    refine (h.setKey (hcalm use key hcall) key).withKey rfl ?_
    cases use with
    | toSeal slot value => exact hframe
    | toUnseal record owed =>
      intro value howed
      rw [show owed = none from hframe] at howed
      cases howed
  | writing slot value record => exact (h.put hframe).done _
  | removing provider id => exact ((h.delete _).delete _).done _
  | removingSigningKey address => exact (h.delete _).done _
  | clearing store => exact (h.clear store).done _

theorem Inv.begin {w w' : World} (h : Inv w) {c : ℕ} {frame : Frame} (hbegin : begin w c frame = .ok w')
    (hframe : FrameOk w.encryptionKey frame) : Inv w' := by
  unfold StateStorage.begin at hbegin
  split at hbegin
  · cases hbegin
    exact h.wait hframe
  · cases hbegin

theorem Inv.step {w w' : World} {e : Event} (h : Inv w) (hcalm : Calm w e) (hstep : step w e = .ok w') : Inv w' := by
  cases e with
  | setContractAddress provider address =>
    cases hstep
    exact ⟨h.kept, h.calls, h.returned⟩
  | vault provider scope =>
    rw [StateStorage.step] at hstep
    split at hstep
    · cases hstep
    · cases hstep
      exact ⟨h.kept, h.calls, h.returned⟩
  | set c provider id state => exact h.begin hstep hcalm
  | setSigningKey c address signingKey => exact h.begin hstep hcalm
  | step c =>
    rw [StateStorage.step] at hstep
    cases hcall : w.calls c with
    | none =>
      rw [hcall] at hstep
      cases hstep
    | some frame =>
      rw [hcall] at hstep
      cases hstep
      exact h.advance hcall hcalm
  | fail c =>
    rw [StateStorage.step] at hstep
    cases hcall : w.calls c with
    | none =>
      rw [hcall] at hstep
      cases hstep
    | some frame =>
      rw [hcall] at hstep
      cases hstep
      exact h.done _
  | _ => exact h.begin hstep trivial

/-- In a run in which no call stores a created key over a stored one, each call that reads answers with the value that
its slot keeps when it is read. -/
theorem private_states_stay_readable (events : List Event) (h : ∀ e ∈ trace step init events, Calm e.1 e.2) :
    ∀ c value answer, (run step init events).returned c = some (some value, answer) →
      answer = .value (some value) := by
  have hrun : Inv (run step init events) := run_history (I := fun _ ↦ Inv) (P := fun e ↦ Calm e.1 e.2)
    (fun _ _ _ _ hinv hcalm hstep ↦ hinv.step hcalm hstep) inv_init events
    fun e he ↦ h e (mem_accepted_iff.mp he).1
  exact hrun.returned

/-- A credential is saved and loaded. -/
def sampleEvents : List Event :=
  [.vault 0 (js "preview"), .save 0 0 (.bool true), .step 0, .step 0, .step 0, .load 1 0, .step 1, .step 1]

theorem private_states_stay_readable_sample :
    (run step init sampleEvents).returned 1 = some (some (.bool true), .value (some (.bool true))) ∧
      ∀ c value answer, (run step init sampleEvents).returned c = some (some value, answer) →
        answer = .value (some value) := by
  have hstorable : Storable (.bool true) := ⟨.bool true, fun h ↦ (by cases h)⟩
  have hcalm : ∀ e ∈ trace step init sampleEvents, Calm e.1 e.2 := by
    refine List.forall_mem_cons.mpr ⟨trivial, List.forall_mem_cons.mpr ⟨hstorable, ?_⟩⟩
    refine List.forall_mem_cons.mpr ⟨fun use key h ↦ (by cases h), ?_⟩
    refine List.forall_mem_cons.mpr ⟨fun use key h ↦ rfl, ?_⟩
    refine List.forall_mem_cons.mpr ⟨fun use key h ↦ (by cases h), ?_⟩
    refine List.forall_mem_cons.mpr ⟨trivial, ?_⟩
    refine List.forall_mem_cons.mpr ⟨fun use key h ↦ (by cases h), ?_⟩
    refine List.forall_mem_cons.mpr ⟨fun use key h ↦ (by cases h), ?_⟩
    exact fun e he ↦ by cases he
  exact ⟨rfl, private_states_stay_readable sampleEvents hcalm⟩

/-- The vault and the provider of a contract both find no encryption key and create one. -/
def firstWriters : List Event :=
  [.vault 0 (js "preview"), .save 0 0 (.bool true), .set 1 1 (js "voter") (.bool false), .step 0, .step 1, .step 0,
    .step 0, .step 1, .step 1, .load 2 0, .step 2, .step 2]

/-- The credential was saved, and it can no longer be read. -/
theorem first_writers_lose_record :
    (run step init firstWriters).returned 0 = some (none, .done) ∧
      (run step init firstWriters).kept (.states, stateKey (js "preview") civicCredentialVaultId) =
        some (.bool true) ∧
        (run step init firstWriters).returned 2 = some (some (.bool true), .rejected) :=
  ⟨rfl, rfl, rfl⟩

end MidnightReferendum.StateStorage
