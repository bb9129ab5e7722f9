import MidnightReferendum.Js.Utf8
import MidnightReferendum.Passport.StateStorage

/-!
# The receipts of a profile

`loadPassportReceipts` and `savePassportReceipt` of `receipt-store.ts`, for the calls of one session and one
profile. The receipts are one encrypted record. A save loads the whole list, keeps the next list in memory, and
writes it. A call waits in a frame between two of its transactions, each of which can fail.
-/

namespace MidnightReferendum.ReceiptStore

open Js StateStorage

inductive ReceiptStatus where
  | simulated
  | confirmed
  deriving DecidableEq

structure PassportReceiptRecord where
  id : JsString
  pollId : Option JsString
  createdAt : JsString
  status : ReceiptStatus
  network : JsString
  explorerUrl : Option JsString
  deriving DecidableEq

def ReceiptStatus.text : ReceiptStatus → JsString
  | .simulated => js "simulated"
  | .confirmed => js "confirmed"

/-- A field that is left out if it is undefined. -/
def optionalField (name : JsString) (value : Option JsString) : List (JsString × Json) :=
  value.toList.map fun text ↦ (name, .string text)

/-- The fields of the object that a receipt is. -/
def PassportReceiptRecord.fields (receipt : PassportReceiptRecord) : List (JsString × Json) :=
  [(js "id", .string receipt.id)] ++ optionalField (js "pollId") receipt.pollId ++
    [(js "createdAt", .string receipt.createdAt), (js "status", .string receipt.status.text),
      (js "network", .string receipt.network)] ++ optionalField (js "explorerUrl") receipt.explorerUrl

def PassportReceiptRecord.json (receipt : PassportReceiptRecord) : Json := .object receipt.fields

/-- `item.id` -/
def idOf (item : Json) : Option JsString :=
  (item.record?.bind fun fields ↦ field? fields (js "id")).bind Json.string?

/-- `[receipt, ...existing.filter((item) => item.id !== receipt.id)]` -/
def withReceipt (receipt : PassportReceiptRecord) (existing : List Json) : List Json :=
  receipt.json :: existing.filter fun item ↦ idOf item ≠ some receipt.id

/-- `seal` with the key -/
def sealWith (key : ℕ) (value : List Json) : EncryptedRecord := ⟨key, encodeUtf8 (Json.array value).stringify⟩

/-- `unseal` with the key, which throws for a record of another key or a text that is not JSON -/
def unsealWith (key : ℕ) (record : EncryptedRecord) : Option (List Json) :=
  ((record.decrypt key).bind fun bytes ↦ Json.parse (decodeUtf8 bytes)).map fun parsed ↦ parsed.array?.getD []

/-! ## Calls -/

/-- Which function has called `loadPassportReceipts`. A load from outside carries the number of saves that had been
started when it was called, if none of them was running. -/
inductive Caller where
  | save (receipt : PassportReceiptRecord)
  | load (since : Option ℕ)

/-- What a call waits for. -/
inductive Frame where
  /-- `readRecord` of the receipts -/
  | reading (caller : Caller)
  /-- `getEncryptionKey` of `unseal`, and the write of a key that it created -/
  | unsealing (caller : Caller) (record : EncryptedRecord)
  | unsealingNew (caller : Caller) (record : EncryptedRecord) (key : ℕ)
  /-- the receipts are loaded for a save -/
  | loaded (receipt : PassportReceiptRecord) (existing : List Json)
  /-- `getEncryptionKey` of `seal` -/
  | sealing (next : List Json)
  | sealingNew (next : List Json) (key : ℕ)
  /-- `writeRecord` of the receipts -/
  | writing (record : EncryptedRecord)

/-- The environment of a session: `profileKey`, and `canUseEncryptedStorage()`. -/
structure Session where
  profileKey : JsString
  usable : Bool

/-- The stored record and key, the list in memory, and the calls. -/
structure World where
  record : Option EncryptedRecord
  encryptionKey : Option ℕ
  drawn : ℕ
  /-- `FALLBACK_RECEIPTS.get(profileKey)` -/
  fallback : Option (List Json)
  calls : ℕ → Option Frame
  /-- the receipts of the saves in the order in which they were put into the list, newest first -/
  log : List PassportReceiptRecord
  /-- the number of saves that were started, and those that are running -/
  started : ℕ
  saving : List ℕ
  /-- the list in memory is not written, since its save goes on or has failed to write it -/
  unwritten : Bool
  /-- what a load has returned, with the saves whose receipts it was to return -/
  returned : ℕ → Option (Option (List PassportReceiptRecord) × List Json)

def init : World where
  record := none
  encryptionKey := none
  drawn := 0
  fallback := none
  calls _ := none
  log := []
  started := 0
  saving := []
  unwritten := false
  returned _ := none

namespace World

variable (w : World) (c : ℕ)

def wait (frame : Frame) : World := { w with calls := Function.update w.calls c (some frame) }

/-- The list in memory. -/
def inMemory : List Json := w.fallback.getD []

/-- A load returns. It is to return the receipts of all saves if no save was running since it was called. -/
def answer (since : Option ℕ) (receipts : List Json) : World :=
  { w with
    calls := Function.update w.calls c none
    returned := Function.update w.returned c
      (some (if since = some w.started then some w.log else none, receipts)) }

/-- `loadPassportReceipts` returns to its caller. -/
def load (caller : Caller) (receipts : List Json) : World :=
  match caller with
  | .save receipt => w.wait c (.loaded receipt receipts)
  | .load since => w.answer c since receipts

/-- A save returns. A failure to write its list is caught. -/
def finish : World := { w with calls := Function.update w.calls c none, saving := w.saving.erase c }

end World

/-- `unseal` goes on with the key. A failure is caught, and the list in memory is returned. -/
def unsealed (w : World) (c key : ℕ) (caller : Caller) (record : EncryptedRecord) : World :=
  w.load c caller ((unsealWith key record).getD w.inMemory)

/-- What a call waits for takes place. -/
def advance (session : Session) (w : World) (c : ℕ) : Frame → World
  | .reading caller =>
    match w.record with
    | some record => w.wait c (.unsealing caller record)
    | none => w.load c caller []
  | .unsealing caller record =>
    match w.encryptionKey with
    | some key => unsealed w c key caller record
    | none => { w with drawn := w.drawn + 1 }.wait c (.unsealingNew caller record w.drawn)
  | .unsealingNew caller record key => unsealed { w with encryptionKey := some key } c key caller record
  | .loaded receipt existing =>
    let next := withReceipt receipt existing
    let kept := { w with fallback := some next, log := receipt :: w.log, unwritten := true }
    if session.usable then kept.wait c (.sealing next) else kept.finish c
  | .sealing next =>
    match w.encryptionKey with
    | some key => w.wait c (.writing (sealWith key next))
    | none => { w with drawn := w.drawn + 1 }.wait c (.sealingNew next w.drawn)
  | .sealingNew next key => { w with encryptionKey := some key }.wait c (.writing (sealWith key next))
  | .writing record => { w with record := some record, unwritten := false }.finish c

/-- The transaction for which a call waits fails. -/
def fail (w : World) (c : ℕ) : Frame → Option World
  | .reading caller | .unsealing caller _ | .unsealingNew caller _ _ => some (w.load c caller w.inMemory)
  | .loaded _ _ => none
  | .sealing _ | .sealingNew _ _ | .writing _ => some (w.finish c)

inductive Event where
  /-- `savePassportReceipt` is called -/
  | save (c : ℕ) (receipt : PassportReceiptRecord)
  /-- `loadPassportReceipts` is called -/
  | load (c : ℕ)
  | step (c : ℕ)
  | fail (c : ℕ)

/-- `loadPassportReceipts` up to its first transaction. -/
def loadPassportReceipts (session : Session) (w : World) (c : ℕ) (caller : Caller) : World :=
  if session.profileKey = [] then w.load c caller []
  else if session.usable then w.wait c (.reading caller)
  else w.load c caller w.inMemory

def step (session : Session) (w : World) : Event → Except Unit World
  | .save c receipt =>
    if w.calls c = none ∧ w.returned c = none then
      if session.profileKey = [] then .ok { w with log := receipt :: w.log, started := w.started + 1 }
      else
        .ok (loadPassportReceipts session { w with started := w.started + 1, saving := c :: w.saving } c
          (.save receipt))
    else .error ()
  | .load c =>
    if w.calls c = none ∧ w.returned c = none then
      .ok (loadPassportReceipts session w c (.load (if w.saving = [] then some w.started else none)))
    else .error ()
  | .step c => (w.calls c).elim (.error ()) fun frame ↦ .ok (advance session w c frame)
  | .fail c => ((w.calls c).bind (fail w c)).elim (.error ()) .ok

end MidnightReferendum.ReceiptStore
