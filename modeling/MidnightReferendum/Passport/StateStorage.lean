import MidnightReferendum.Js.Utf8
import MidnightReferendum.Passport.StateCodec
import MidnightReferendum.Systems.Execution
import MidnightReferendum.Systems.Tables

/-!
# Encrypted private states

`browserPrivateStateProvider` and `browserCivicCredentialVault` of `private-state.ts`. Any number of providers, in
any number of tabs, share one database. A call waits in a frame between two of its transactions, so that every
interleaving of calls is a list of events.

The encryption key of the database is read by each call that seals or opens a record. A call that finds no key
creates one and stores it in a transaction of its own.
-/

namespace MidnightReferendum.StateStorage

open Js PrivateState

/-- The object stores of the database, besides the one of the encryption key. -/
inductive Store where
  | states
  | signingKeys
  deriving DecidableEq

/-- `EncryptedRecord`. Only the key that sealed it opens it. -/
structure EncryptedRecord where
  sealedBy : ℕ
  plaintext : List UInt8

/-- `crypto.subtle.decrypt` -/
def EncryptedRecord.decrypt (record : EncryptedRecord) (key : ℕ) : Option (List UInt8) :=
  if record.sealedBy = key then some record.plaintext else none

abbrev Slot := Store × JsString

/-- What a call needs the encryption key for. A call that reads carries the value that its slot was to have. -/
inductive Use where
  | toSeal (slot : Slot) (value : Value)
  | toUnseal (record : EncryptedRecord) (owed : Option Value)

/-- The transaction for which a call waits. -/
inductive Frame where
  /-- `readRecord` of a record, with the key that is read when there is none -/
  | reading (slot : Slot) (legacy : Option JsString)
  | readingLegacy (key : JsString) (owed : Option Value)
  /-- `readRecord(META_STORE, 'encryption-key')` -/
  | encryptionKey (use : Use)
  /-- `writeRecord(META_STORE, 'encryption-key', created)` -/
  | created (use : Use) (key : ℕ)
  | writing (slot : Slot) (value : Value) (record : EncryptedRecord)
  | removing (provider : ℕ) (id : JsString)
  | removingSigningKey (address : JsString)
  | clearing (store : Store)

inductive Answer where
  | done
  | value (value : Option Value)
  | rejected

/-- The database, the scopes of the providers, and the calls. A value is kept in a slot from the write of its call
until the slot is overwritten, removed or cleared. -/
structure World where
  records : Slot → Option EncryptedRecord
  encryptionKey : Option ℕ
  drawn : ℕ
  scopes : ℕ → JsString
  calls : ℕ → Option Frame
  kept : Slot → Option Value
  /-- what a call has answered, with the value that its slot was to have when it was read -/
  returned : ℕ → Option (Option Value × Answer)

def init : World where
  records _ := none
  encryptionKey := none
  drawn := 0
  scopes _ := js "unbound"
  calls _ := none
  kept _ := none
  returned _ := none

def stateKey (scope id : JsString) : JsString := js "state:" ++ scope ++ js ":" ++ id

def legacyStateKey (id : JsString) : JsString := js "state:" ++ id

def signingKeyKey (address : JsString) : JsString := js "signing-key:" ++ address

/-! ## Steps -/

namespace World

variable (w : World) (c : ℕ)

def wait (frame : Frame) : World := { w with calls := Function.update w.calls c (some frame) }

def answer (owed : Option Value) (answer : Answer) : World :=
  { w with
    calls := Function.update w.calls c none
    returned := Function.update w.returned c (some (owed, answer)) }

def put (slot : Slot) (record : EncryptedRecord) (value : Value) : World :=
  { w with
    records := Function.update w.records slot (some record)
    kept := Function.update w.kept slot (some value) }

def delete (slot : Slot) : World :=
  { w with
    records := Function.update w.records slot none
    kept := Function.update w.kept slot none }

def clear (store : Store) : World :=
  { w with
    records := fun slot ↦ if slot.1 = store then none else w.records slot
    kept := fun slot ↦ if slot.1 = store then none else w.kept slot }

end World

/-- `seal` with the key -/
def sealWith (key : ℕ) (value : Value) : EncryptedRecord :=
  ⟨key, encodeUtf8 (serializePrivateStateForStorage value)⟩

/-- `unseal` with the key -/
def unsealWith (key : ℕ) (record : EncryptedRecord) : Answer :=
  match (record.decrypt key).bind fun bytes ↦ deserializePrivateStateFromStorage (decodeUtf8 bytes) with
  | some value => .value (some value)
  | none => .rejected

/-- A call goes on with the encryption key. -/
def withKey (w : World) (c key : ℕ) : Use → World
  | .toSeal slot value => w.wait c (.writing slot value (sealWith key value))
  | .toUnseal record owed => w.answer c owed (unsealWith key record)

/-- The transaction for which a call waits takes place. -/
def advance (w : World) (c : ℕ) : Frame → World
  | .reading slot legacy =>
    match w.records slot, legacy with
    | some record, _ => w.wait c (.encryptionKey (.toUnseal record (w.kept slot)))
    | none, some key => w.wait c (.readingLegacy key (w.kept slot))
    | none, none => w.answer c (w.kept slot) (.value none)
  | .readingLegacy key owed =>
    match w.records (.states, key) with
    | some record => w.wait c (.encryptionKey (.toUnseal record owed))
    | none => w.answer c owed (.value none)
  | .encryptionKey use =>
    match w.encryptionKey with
    | some key => withKey w c key use
    | none => { w with drawn := w.drawn + 1 }.wait c (.created use w.drawn)
  | .created use key => withKey { w with encryptionKey := some key } c key use
  | .writing slot value record => (w.put slot record value).answer c none .done
  | .removing provider id =>
    ((w.delete (.states, stateKey (w.scopes provider) id)).delete (.states, legacyStateKey id)).answer c none .done
  | .removingSigningKey address => (w.delete (.signingKeys, signingKeyKey address)).answer c none .done
  | .clearing store => (w.clear store).answer c none .done

inductive Event where
  /-- `setContractAddress` of a provider -/
  | setContractAddress (provider : ℕ) (address : JsString)
  /-- `browserCivicCredentialVault(scope)` with a new provider -/
  | vault (provider : ℕ) (scope : JsString)
  | set (c provider : ℕ) (id : JsString) (state : Value)
  | get (c provider : ℕ) (id : JsString)
  | remove (c provider : ℕ) (id : JsString)
  | clear (c : ℕ)
  | setSigningKey (c : ℕ) (address : JsString) (signingKey : Value)
  | getSigningKey (c : ℕ) (address : JsString)
  | removeSigningKey (c : ℕ) (address : JsString)
  | clearSigningKeys (c : ℕ)
  /-- the transaction of a call takes place -/
  | step (c : ℕ)
  /-- a transaction fails, or the tab of a call is closed -/
  | fail (c : ℕ)

/-- The identifier under which the vault keeps its credential. -/
def civicCredentialVaultId : JsString := js "cico-civic-credential-v1"

/-- `load` of the vault with this provider. -/
def Event.load (c provider : ℕ) : Event := .get c provider civicCredentialVaultId

/-- `save` of the vault. -/
def Event.save (c provider : ℕ) (credential : Value) : Event := .set c provider civicCredentialVaultId credential

/-- A call begins. -/
def begin (w : World) (c : ℕ) (frame : Frame) : Except Unit World :=
  if w.calls c = none ∧ w.returned c = none then .ok (w.wait c frame) else .error ()

def step (w : World) : Event → Except Unit World
  | .setContractAddress provider address => .ok { w with scopes := Function.update w.scopes provider address }
  | .vault provider scope =>
    if trimmed scope = [] then .error ()
    else .ok { w with scopes := Function.update w.scopes provider (trimmed scope) }
  | .set c provider id state => begin w c (.encryptionKey (.toSeal (.states, stateKey (w.scopes provider) id) state))
  | .get c provider id => begin w c (.reading (.states, stateKey (w.scopes provider) id) (some (legacyStateKey id)))
  | .remove c provider id => begin w c (.removing provider id)
  | .clear c => begin w c (.clearing .states)
  | .setSigningKey c address signingKey =>
    begin w c (.encryptionKey (.toSeal (.signingKeys, signingKeyKey address) signingKey))
  | .getSigningKey c address => begin w c (.reading (.signingKeys, signingKeyKey address) none)
  | .removeSigningKey c address => begin w c (.removingSigningKey address)
  | .clearSigningKeys c => begin w c (.clearing .signingKeys)
  | .step c => (w.calls c).elim (.error ()) fun frame ↦ .ok (advance w c frame)
  | .fail c => (w.calls c).elim (.error ()) fun _ ↦ .ok (w.answer c none .rejected)

end MidnightReferendum.StateStorage
