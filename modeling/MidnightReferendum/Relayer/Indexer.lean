import Mathlib.Data.List.DropRight
import MidnightReferendum.Js.Library
import MidnightReferendum.Relayer.Steps

/-!
# Receipts from the indexer

`MidnightIndexerReceiptResolver`, which reads an untrusted payload, and the builder of receipts. A
receipt is built only from a payload that proves it.
-/

namespace MidnightReferendum.Relayer

open Js

/-- What has become of a request to the indexer. The body is missing if it is not JSON. -/
inductive IndexerResponse where
  | failed
  | aborted
  | answered (ok : Bool) (body : Option Json)

/-- What is thrown in the resolver: `IndexerRejectedError` has a code, other errors have none. -/
abbrev Resolution := Except (Option ErrorCode)

structure IndexerTransaction where
  hash : JsString
  identifiers : List JsString
  status : JsString
  /-- the addresses of the contract actions -/
  contractActions : List JsString
  blockHeight : ℤ
  blockHash : JsString
  blockTimestamp : ℤ

/-- A value that a test has narrowed to a type. -/
def narrowed {α : Type} : Option α → Resolution α
  | some value => .ok value
  | none => .error none

/-- An error is thrown unless the condition holds. -/
def require (condition : Bool) : Resolution Unit := if condition then .ok () else .error none

def record? (value : Option Json) : Option (List (JsString × Json)) := value.bind Json.record?

def transactionFrom (value : List (JsString × Json)) : Resolution (Option IndexerTransaction) :=
  match (record? (field? value (js "data"))).bind fun data ↦
    (field? data (js "transactions")).bind Json.array? with
  | none => .ok none
  | some transactions =>
    match record? transactions.head? with
    | none => .ok none
    | some transaction => do
      let hash ← narrowed ((field? transaction (js "hash")).bind Json.string?)
      let actions ← narrowed ((field? transaction (js "contractActions")).bind Json.array?)
      let identifiers ← narrowed ((field? transaction (js "identifiers")).bind Json.array?)
      let identifiers ← narrowed (identifiers.mapM Json.string?)
      let block ← narrowed (record? (field? transaction (js "block")))
      let height ← narrowed ((field? block (js "height")).bind Json.safeInteger?)
      let blockHash ← narrowed ((field? block (js "hash")).bind Json.string?)
      let timestamp ← narrowed ((field? block (js "timestamp")).bind Json.safeInteger?)
      let result ← narrowed (record? (field? transaction (js "transactionResult")))
      let status ← narrowed ((field? result (js "status")).bind Json.string?)
      let addresses ← narrowed ((actions.filterMap Json.record?).mapM fun action ↦
        (field? action (js "address")).bind Json.string?)
      return some {
        hash, identifiers, status
        contractActions := addresses
        blockHeight := height
        blockHash
        blockTimestamp := timestamp }

/-! ## The builder of receipts -/

/-- `IndexerConfirmedTransaction`, as the resolver fills it in. Its status is the constant
`confirmed`. -/
structure IndexerConfirmedTransaction where
  transactionId : JsString
  transactionHash : JsString
  contractAddress : JsString
  blockHeight : ℤ
  blockHash : JsString
  blockTimestamp : ℤ

structure CanonicalReceiptContext where
  action : CivicActionKind
  network : JsString
  contractAddress : JsString
  circuit : JsString
  explorerBaseUrl : Option JsString

def nonEmpty (value : JsString) : Resolution JsString :=
  if isBlank value then .error none else .ok value

/-- `isoTimestamp` of a number -/
def isoTimestamp (value : ℤ) : Resolution JsString :=
  narrowed (toISOString (if value < 1000000000000 then value * 1000 else value))

def explorerFor (baseUrl : Option JsString) (transactionId : JsString) : Resolution (Option JsString) :=
  match baseUrl with
  | none => .ok none
  | some baseUrl =>
    if isBlank baseUrl then .ok none
    else do
      let encoded ← narrowed (encodeURIComponent transactionId)
      return some (baseUrl.rdropWhile (· == 0x2F) ++ js "/" ++ encoded)

def canonicalReceiptFromIndexer (observation : IndexerConfirmedTransaction)
    (context : CanonicalReceiptContext) : Resolution CanonicalReceipt := do
  require (observation.contractAddress = context.contractAddress)
  let transactionId ← nonEmpty observation.transactionId
  let transactionHash ← nonEmpty observation.transactionHash
  let contractAddress ← nonEmpty observation.contractAddress
  let circuit ← nonEmpty context.circuit
  let blockHash ← nonEmpty observation.blockHash
  require (|observation.blockHeight| ≤ maxSafeInteger ∧ 0 ≤ observation.blockHeight)
  let blockTimestamp ← isoTimestamp observation.blockTimestamp
  let explorerUrl ← explorerFor context.explorerBaseUrl transactionId
  return {
    action := context.action
    network := context.network
    transactionId, transactionHash, contractAddress, circuit
    blockHeight := observation.blockHeight
    blockHash, blockTimestamp
    explorerUrl := if truthy explorerUrl then explorerUrl else none }

/-! ## The resolver -/

/-- The receipt of a payload that has passed the tests of its form. -/
def receiptFrom (explorerBaseUrl : Option JsString) (input : ResolveQuery)
    (transaction : IndexerTransaction) : Resolution (Option CanonicalReceipt) :=
  if input.transactionId ∉ transaction.identifiers then .ok none
  else if transaction.status ≠ js "SUCCESS" then .error (some .indexerRejected)
  else if input.contractAddress ∉ transaction.contractActions then
    .error (some .indexerContractMismatch)
  else if !isNetwork input.network then .error none
  else do
    let receipt ← canonicalReceiptFromIndexer
      { transactionId := input.transactionId
        transactionHash := transaction.hash
        contractAddress := input.contractAddress
        blockHeight := transaction.blockHeight
        blockHash := transaction.blockHash
        blockTimestamp := transaction.blockTimestamp }
      { action := input.action
        network := input.network
        contractAddress := input.contractAddress
        circuit := input.circuit
        explorerBaseUrl }
    return some receipt

/-- The payload reports an error of GraphQL. -/
def hasErrors (payload : List (JsString × Json)) : Bool :=
  match (field? payload (js "errors")).bind Json.array? with
  | some errors => !errors.isEmpty
  | none => false

/-- `resolve`. A request that was aborted counts as lag. -/
def resolve (explorerBaseUrl : Option JsString) (input : ResolveQuery) :
    IndexerResponse → Resolution (Option CanonicalReceipt)
  | .failed => .error none
  | .aborted => .ok none
  | .answered false _ => .error none
  | .answered true body =>
    match record? body with
    | none => .error none
    | some payload =>
      if hasErrors payload then .error none
      else do
        match ← transactionFrom payload with
        | none => return none
        | some transaction => receiptFrom explorerBaseUrl input transaction

/-! ## What a receipt proves -/

/-- The payload shows a successful transaction with the id that has acted on the contract. -/
structure Proves (query : ResolveQuery) (transaction : List (JsString × Json)) : Prop where
  status : ∃ result, field? transaction (js "transactionResult") = some (.object result) ∧
    field? result (js "status") = some (.string (js "SUCCESS"))
  identifier : ∃ identifiers, field? transaction (js "identifiers") = some (.array identifiers) ∧
    .string query.transactionId ∈ identifiers
  contractAction : ∃ actions action, field? transaction (js "contractActions") = some (.array actions) ∧
    .object action ∈ actions ∧
    field? action (js "address") = some (.string query.contractAddress)

/-- The first transaction of a payload proves the query. -/
def IndexerResponse.Proves (query : ResolveQuery) (response : IndexerResponse) : Prop :=
  ∃ payload data transaction rest, response = .answered true (some (.object payload)) ∧
    field? payload (js "data") = some (.object data) ∧
    field? data (js "transactions") = some (.array (.object transaction :: rest)) ∧
    Relayer.Proves query transaction

/-- A receipt has the data that the query asked for. -/
structure CanonicalReceipt.Answers (receipt : CanonicalReceipt) (query : ResolveQuery) : Prop where
  transactionId : receipt.transactionId = query.transactionId
  network : receipt.network = query.network
  contractAddress : receipt.contractAddress = query.contractAddress
  circuit : receipt.circuit = query.circuit
  action : receipt.action = query.action

theorem narrowed_eq_ok {α : Type} {value : Option α} {a : α} :
    narrowed value = .ok a ↔ value = some a := by
  cases value <;> simp [narrowed]

theorem nonEmpty_eq_ok {value v : JsString} (h : nonEmpty value = .ok v) : v = value := by
  unfold nonEmpty at h
  split at h <;> cases h
  rfl

theorem record?_eq_some {value : Option Json} {fields : List (JsString × Json)} :
    record? value = some fields ↔ value = some (.object fields) := by
  rcases value with _ | value
  · simp [record?]
  · cases value <;> simp [record?, Json.record?]

theorem array?_eq_some {value : Json} {items : List Json} :
    value.array? = some items ↔ value = .array items := by
  cases value <;> simp [Json.array?]

theorem string?_eq_some {value : Json} {s : JsString} : value.string? = some s ↔ value = .string s := by
  cases value <;> simp [Json.string?]

/-- Every value that `mapM` returns is the value of an element. -/
theorem exists_of_mem_mapM {α β : Type} {f : α → Option β} {l : List α} {l' : List β}
    (h : l.mapM f = some l') {b : β} (hb : b ∈ l') : ∃ a ∈ l, f a = some b := by
  induction l generalizing l' with
  | nil =>
    simp at h
    simp [h] at hb
  | cons a l ih =>
    simp only [List.mapM_cons, Option.bind_eq_bind, Option.bind_eq_some_iff] at h
    obtain ⟨c, hc, cs, hcs, heq⟩ := h
    obtain rfl := Option.some.inj heq
    rcases List.mem_cons.mp hb with rfl | hb
    · exact ⟨a, List.mem_cons_self, hc⟩
    · obtain ⟨a', ha', hfa'⟩ := ih hcs hb
      exact ⟨a', List.mem_cons_of_mem _ ha', hfa'⟩

/-- What the fields of a transaction are read from. -/
structure IndexerTransaction.ReadFrom (t : IndexerTransaction) (transaction : List (JsString × Json)) :
    Prop where
  status : ∃ result, field? transaction (js "transactionResult") = some (.object result) ∧
    field? result (js "status") = some (.string t.status)
  identifiers : ∃ identifiers, field? transaction (js "identifiers") = some (.array identifiers) ∧
    ∀ id ∈ t.identifiers, .string id ∈ identifiers
  contractActions : ∃ actions, field? transaction (js "contractActions") = some (.array actions) ∧
    ∀ address ∈ t.contractActions, ∃ action, .object action ∈ actions ∧
      field? action (js "address") = some (.string address)

theorem field_array {fields : List (JsString × Json)} {name : JsString} {items : List Json}
    (h : (field? fields name).bind Json.array? = some items) :
    field? fields name = some (.array items) := by
  obtain ⟨value, hvalue, harray⟩ := Option.bind_eq_some_iff.mp h
  rw [hvalue, array?_eq_some.mp harray]

theorem field_string {fields : List (JsString × Json)} {name s : JsString}
    (h : (field? fields name).bind Json.string? = some s) : field? fields name = some (.string s) := by
  obtain ⟨value, hvalue, hstring⟩ := Option.bind_eq_some_iff.mp h
  rw [hvalue, string?_eq_some.mp hstring]

theorem transactionFrom_eq_ok {value : List (JsString × Json)} {t : IndexerTransaction}
    (h : transactionFrom value = .ok (some t)) : ∃ data transaction rest,
      field? value (js "data") = some (.object data) ∧
      field? data (js "transactions") = some (.array (.object transaction :: rest)) ∧
      t.ReadFrom transaction := by
  unfold transactionFrom at h
  split at h
  · cases h
  · next transactions htransactions =>
    obtain ⟨data, hdata, htransactions⟩ := Option.bind_eq_some_iff.mp htransactions
    split at h
    · cases h
    · next transaction hhead =>
      simp only [bind_eq_ok, narrowed_eq_ok] at h
      obtain ⟨hash, _, actions, hactions, identifiers, hidentifiers, ids, hids, block, _, height, _,
        blockHash, _, timestamp, _, result, hresult, status, hstatus, addresses, haddresses, heq⟩ := h
      obtain rfl := Option.some.inj (Except.ok.inj heq)
      have hcons : ∃ rest, transactions = .object transaction :: rest := by
        rw [record?_eq_some, List.head?_eq_some_iff] at hhead
        exact hhead
      obtain ⟨rest, rfl⟩ := hcons
      refine ⟨data, transaction, rest, record?_eq_some.mp hdata, field_array htransactions, ?_, ?_, ?_⟩
      · exact ⟨result, record?_eq_some.mp hresult, field_string hstatus⟩
      · refine ⟨identifiers, field_array hidentifiers, fun id hid ↦ ?_⟩
        obtain ⟨value, hvalue, hstring⟩ := exists_of_mem_mapM hids hid
        rwa [← string?_eq_some.mp hstring]
      · refine ⟨actions, field_array hactions, fun address haddress ↦ ?_⟩
        obtain ⟨action, haction, hstring⟩ := exists_of_mem_mapM haddresses haddress
        obtain ⟨value, hvalue, hrecord⟩ := List.mem_filterMap.mp haction
        refine ⟨action, ?_, field_string hstring⟩
        have hobject : value = .object action := Option.some.inj (record?_eq_some.mp hrecord)
        rwa [← hobject]

theorem canonicalReceiptFromIndexer_eq_ok {observation : IndexerConfirmedTransaction}
    {context : CanonicalReceiptContext} {receipt : CanonicalReceipt}
    (h : canonicalReceiptFromIndexer observation context = .ok receipt) :
    receipt.transactionId = observation.transactionId ∧ receipt.network = context.network ∧
      receipt.contractAddress = observation.contractAddress ∧ receipt.circuit = context.circuit ∧
      receipt.action = context.action := by
  simp only [canonicalReceiptFromIndexer, bind_eq_ok] at h
  obtain ⟨_, _, transactionId, hid, transactionHash, _, contractAddress, hcontract, circuit, hcircuit,
    blockHash, _, _, _, blockTimestamp, _, explorerUrl, _, heq⟩ := h
  obtain rfl := Except.ok.inj heq
  exact ⟨nonEmpty_eq_ok hid, rfl, nonEmpty_eq_ok hcontract, nonEmpty_eq_ok hcircuit, rfl⟩

theorem receiptFrom_eq_ok {explorerBaseUrl : Option JsString} {input : ResolveQuery}
    {t : IndexerTransaction} {receipt : CanonicalReceipt}
    (h : receiptFrom explorerBaseUrl input t = .ok (some receipt)) :
    input.transactionId ∈ t.identifiers ∧ t.status = js "SUCCESS" ∧
      input.contractAddress ∈ t.contractActions ∧ receipt.Answers input := by
  unfold receiptFrom at h
  repeat' split at h
  · cases h
  · cases h
  · cases h
  · cases h
  · next hid hstatus hcontract _ =>
    obtain ⟨receipt', hreceipt, heq⟩ := bind_eq_ok.mp h
    obtain rfl := Option.some.inj (Except.ok.inj heq)
    obtain ⟨h₁, h₂, h₃, h₄, h₅⟩ := canonicalReceiptFromIndexer_eq_ok hreceipt
    exact ⟨not_not.mp hid, not_not.mp hstatus, not_not.mp hcontract, h₁, h₂, h₃, h₄, h₅⟩

/-- The resolver returns a receipt only for a payload that proves it, and the receipt has the data of
the query. -/
theorem resolve_eq_ok {explorerBaseUrl : Option JsString} {input : ResolveQuery}
    {response : IndexerResponse} {receipt : CanonicalReceipt}
    (h : resolve explorerBaseUrl input response = .ok (some receipt)) :
    receipt.Answers input ∧ response.Proves input := by
  unfold resolve at h
  split at h
  · cases h
  · cases h
  · cases h
  · next body =>
    split at h
    · cases h
    · next payload hbody =>
      split at h
      · cases h
      · obtain ⟨found, hfound, h⟩ := bind_eq_ok.mp h
        rcases found with _ | t
        · cases h
        · obtain ⟨data, transaction, rest, hdata, htransactions, hread⟩ := transactionFrom_eq_ok hfound
          obtain ⟨hid, hstatus, hcontract, hanswers⟩ := receiptFrom_eq_ok h
          refine ⟨hanswers, payload, data, transaction, rest, ?_, hdata, htransactions, ?_, ?_, ?_⟩
          · rw [record?_eq_some.mp hbody]
          · rw [← hstatus]
            exact hread.status
          · obtain ⟨identifiers, hidentifiers, hall⟩ := hread.identifiers
            exact ⟨identifiers, hidentifiers, hall _ hid⟩
          · obtain ⟨actions, hactions, hall⟩ := hread.contractActions
            obtain ⟨action, haction, haddress⟩ := hall _ hcontract
            exact ⟨actions, action, hactions, haction, haddress⟩

/-- The answer about a transaction `tx-1` with the given status. -/
def sampleResponse (status : String) : IndexerResponse :=
  .answered true (some (.object [(js "data", .object [(js "transactions", .array [.object [
    (js "hash", .string (js "hash-1")),
    (js "identifiers", .array [.string (js "tx-1")]),
    (js "contractActions", .array [.null, .object [(js "address", .string (js "contract-1"))]]),
    (js "block", .object [(js "height", .number (.finite 7)), (js "hash", .string (js "block-7")),
      (js "timestamp", .number (.finite 1700000000))]),
    (js "transactionResult", .object [(js "status", .string (js status))])]])])]))

example : resolve (some (js "https://explorer.test/tx/"))
    ⟨js "tx-1", js "preview", js "contract-1", js "castVote", .vote⟩ (sampleResponse "SUCCESS") =
      .ok (some ⟨.vote, js "preview", js "tx-1", js "hash-1", js "contract-1", js "castVote", 7,
        js "block-7", js "2023-11-14T22:13:20.000Z", some (js "https://explorer.test/tx/tx-1")⟩) := by
  decide +kernel

end MidnightReferendum.Relayer
