import MidnightReferendum.Passport.ReceiptStore

/-!
# Saved receipts are loaded

A save replaces the whole list by the one that it has read, with its receipt. Its reading must therefore not miss
what another save writes, and must not prefer a stored list to a newer one in memory.
-/

namespace MidnightReferendum.ReceiptStore

open Js StateStorage Execution

/-! ## The last version of each receipt -/

/-- The receipts of a log without the older versions of each. -/
def latest : List PassportReceiptRecord → List PassportReceiptRecord
  | [] => []
  | receipt :: log => receipt :: (latest log).filter fun item ↦ item.id ≠ receipt.id

/-- A receipt is in the list if it is the newest of its log with this identifier. -/
theorem mem_latest {log : List PassportReceiptRecord} {receipt : PassportReceiptRecord} :
    receipt ∈ latest log ↔ log.find? (fun item ↦ item.id = receipt.id) = some receipt := by
  induction log with
  | nil => simp [latest]
  | cons item log ih =>
    rw [latest, List.mem_cons, List.mem_filter, ih, List.find?_cons]
    by_cases hid : item.id = receipt.id
    · simp [hid, eq_comm]
    · have hne : receipt ≠ item := fun heq ↦ hid (by rw [heq])
      simp [hid, hne, Ne.symm hid]

/-- Each identifier is there once. -/
theorem nodup_latest (log : List PassportReceiptRecord) :
    ((latest log).map PassportReceiptRecord.id).Nodup := by
  induction log with
  | nil => exact List.nodup_nil
  | cons receipt log ih =>
    rw [latest, List.map_cons, List.nodup_cons]
    refine ⟨?_, ih.sublist (List.filter_sublist.map _)⟩
    intro hmem
    obtain ⟨item, hitem, hid⟩ := List.mem_map.mp hmem
    exact of_decide_eq_true (List.mem_filter.mp hitem).2 hid

/-- The newest receipts come first. -/
theorem latest_sublist (log : List PassportReceiptRecord) : (latest log).Sublist log := by
  induction log with
  | nil => exact List.Sublist.refl _
  | cons receipt log ih => exact (List.filter_sublist.trans ih).cons_cons receipt

/-- The receipts are those of the log, each once in its last version, newest first. -/
def Lists (log : List PassportReceiptRecord) (receipts : List Json) : Prop :=
  ∃ list : List PassportReceiptRecord, receipts = list.map PassportReceiptRecord.json ∧
    (∀ receipt, receipt ∈ list ↔ log.find? (fun item ↦ item.id = receipt.id) = some receipt) ∧
      (list.map PassportReceiptRecord.id).Nodup ∧ list.Sublist log

theorem lists_latest (log : List PassportReceiptRecord) :
    Lists log ((latest log).map PassportReceiptRecord.json) :=
  ⟨latest log, rfl, fun _ ↦ mem_latest, nodup_latest log, latest_sublist log⟩

/-! ## Receipts as JSON -/

theorem valid_json (receipt : PassportReceiptRecord) : receipt.json.Valid := by
  have hnames : ∀ pollId explorerUrl : Bool,
      let names := [js "id"] ++ (if pollId then [js "pollId"] else []) ++ [js "createdAt", js "status", js "network"] ++
        (if explorerUrl then [js "explorerUrl"] else [])
      names.Nodup ∧ names.Pairwise fun a b ↦ propertyRank a ≤ propertyRank b := by
    decide +kernel
  have hoptional : ∀ (name : JsString) (value : Option JsString),
      (optionalField name value).map Prod.fst = if value.isSome then [name] else [] := by
    intro name value
    cases value <;> rfl
  obtain ⟨hnodup, hordered⟩ := hnames receipt.pollId.isSome receipt.explorerUrl.isSome
  have hmap : receipt.fields.map Prod.fst =
      [js "id"] ++ (if receipt.pollId.isSome then [js "pollId"] else []) ++
        [js "createdAt", js "status", js "network"] ++
        (if receipt.explorerUrl.isSome then [js "explorerUrl"] else []) := by
    rw [PassportReceiptRecord.fields, List.map_append, List.map_append, List.map_append, hoptional, hoptional]
    rfl
  rw [← hmap] at hnodup hordered
  refine .object hnodup
    ((List.pairwise_map (f := Prod.fst) (R := fun a b ↦ propertyRank a ≤ propertyRank b)).mp hordered) ?_
  intro field hfield
  have hstring : ∃ text, field.2 = Json.string text := by
    simp only [PassportReceiptRecord.fields, optionalField, List.mem_append, List.mem_cons, List.not_mem_nil, or_false, List.mem_map] at hfield
    obtain ((rfl | ⟨text, _, rfl⟩) | rfl | rfl | rfl) | ⟨text, _, rfl⟩ := hfield <;> exact ⟨_, rfl⟩
  obtain ⟨text, htext⟩ := hstring
  rw [htext]
  exact .string text

theorem idOf_json (receipt : PassportReceiptRecord) : idOf receipt.json = some receipt.id := by
  rfl

/-- The list as it is kept. -/
def jsonList (log : List PassportReceiptRecord) : List Json := (latest log).map PassportReceiptRecord.json

theorem withReceipt_jsonList (receipt : PassportReceiptRecord) (log : List PassportReceiptRecord) :
    withReceipt receipt (jsonList log) = jsonList (receipt :: log) := by
  rw [withReceipt, jsonList, jsonList, latest, List.map_cons, List.filter_map]
  refine congrArg (fun items ↦ receipt.json :: List.map PassportReceiptRecord.json items) ?_
  refine List.filter_congr fun item _ ↦ ?_
  simp only [Function.comp_apply, idOf_json, ne_eq, Option.some.injEq]

theorem unsealWith_sealWith (key : ℕ) (log : List PassportReceiptRecord) :
    unsealWith key (sealWith key (jsonList log)) = some (jsonList log) := by
  have hvalid : (Json.array (jsonList log)).Valid := by
    refine .array fun item hitem ↦ ?_
    obtain ⟨receipt, _, rfl⟩ := List.mem_map.mp hitem
    exact valid_json receipt
  rw [unsealWith, EncryptedRecord.decrypt, sealWith, if_pos rfl, Option.bind_some,
    decodeUtf8_encodeUtf8 hvalid.isWellFormed, Json.parse_stringify hvalid]
  rfl

/-! ## The invariant -/

def World.listed (w : World) : List Json := jsonList w.log

/-- The record is the list of all receipts, sealed with the stored key. -/
def Seals (w : World) (record : EncryptedRecord) : Prop :=
  ∃ key, w.encryptionKey = some key ∧ record = sealWith key w.listed

/-- No save has been running since the load was called, if no other has been started. -/
def Quiet (w : World) (since : Option ℕ) : Prop :=
  ∀ n, since = some n → n ≤ w.started ∧ (n = w.started → w.saving = [])

/-- The call is a save. -/
def IsSave : Frame → Prop
  | .reading (.save _) | .unsealing (.save _) _ | .unsealingNew (.save _) _ _ => True
  | .reading (.load _) | .unsealing (.load _) _ | .unsealingNew (.load _) _ _ => False
  | .loaded _ _ | .sealing _ | .sealingNew _ _ | .writing _ => True

/-- The call is a save that has read the list and not yet written it. -/
def InWindow : Frame → Prop
  | .unsealing (.save _) _ | .unsealingNew (.save _) _ _ => True
  | .reading _ | .unsealing (.load _) _ | .unsealingNew (.load _) _ _ => False
  | .loaded _ _ | .sealing _ | .sealingNew _ _ | .writing _ => True

/-- No other save has read the list and not yet written it. -/
def Alone (w : World) (c : ℕ) : Prop := ∀ c' frame, c' ≠ c → w.calls c' = some frame → ¬InWindow frame

def FrameOk (w : World) : Frame → Prop
  | .reading (.save _) => True
  | .reading (.load since) => Quiet w since
  | .unsealing (.save _) record => Seals w record
  | .unsealing (.load since) record =>
    Quiet w since ∧ w.encryptionKey.isSome ∧ (since = some w.started → Seals w record)
  -- A stored record has a stored key.
  | .unsealingNew _ _ _ => False
  | .loaded _ existing => existing = w.listed
  | .sealing next => next = w.listed
  | .sealingNew next _ => next = w.listed ∧ w.encryptionKey = none
  | .writing record => Seals w record

structure SharedOk (w : World) : Prop where
  keyed : w.record.isSome → w.encryptionKey.isSome
  memory : w.inMemory = w.listed
  empty : w.unwritten = false → w.record = none → w.listed = []
  stored : w.unwritten = false → ∀ record, w.record = some record → Seals w record
  returned : ∀ c log receipts, w.returned c = some (some log, receipts) → receipts = jsonList log

structure Inv (w : World) : Prop extends SharedOk w where
  frames : ∀ c frame, w.calls c = some frame → FrameOk w frame ∧ (IsSave frame → c ∈ w.saving)
  alone : ∀ c c' frame frame', w.calls c = some frame → w.calls c' = some frame' → InWindow frame →
    InWindow frame' → c = c'

theorem inv_init : Inv init where
  keyed h := by cases h
  memory := rfl
  empty _ _ := rfl
  stored _ record h := by cases h
  returned c log receipts h := by cases h
  frames c frame h := by cases h
  alone c c' frame frame' h := by cases h

section Rules

variable {w w' : World} {c : ℕ}

theorem Inv.alone_of (h : Inv w) {frame : Frame} (hcall : w.calls c = some frame) (hwindow : InWindow frame) :
    Alone w c :=
  fun c' frame' hne hcall' hwindow' ↦ hne (h.alone c' c frame' frame hcall' hcall hwindow' hwindow)

/-- A step of one call keeps the invariant if it does not disturb the others. -/
theorem Inv.change (h : Inv w) (hshared : SharedOk w') (hcalls : ∀ c', c' ≠ c → w'.calls c' = w.calls c')
    (hothers : ∀ c' frame, c' ≠ c → w.calls c' = some frame → FrameOk w frame →
      FrameOk w' frame ∧ (IsSave frame → c' ∈ w.saving → c' ∈ w'.saving))
    (hc : ∀ frame, w'.calls c = some frame →
      FrameOk w' frame ∧ (IsSave frame → c ∈ w'.saving) ∧ (InWindow frame → Alone w c)) : Inv w' where
  toSharedOk := hshared
  frames c' frame hcall := by
    by_cases hne : c' = c
    · subst hne
      obtain ⟨hok, hsave, _⟩ := hc frame hcall
      exact ⟨hok, hsave⟩
    · rw [hcalls c' hne] at hcall
      obtain ⟨hok, hsave⟩ := h.frames c' frame hcall
      obtain ⟨hok', hsaving⟩ := hothers c' frame hne hcall hok
      exact ⟨hok', fun hframe ↦ hsaving hframe (hsave hframe)⟩
  alone c₁ c₂ frame₁ frame₂ h₁ h₂ hwindow₁ hwindow₂ := by
    by_cases hne₁ : c₁ = c
    · subst hne₁
      by_contra hne
      have hcall := (hcalls c₂ (Ne.symm hne)).symm.trans h₂
      exact (hc frame₁ h₁).2.2 hwindow₁ c₂ frame₂ (Ne.symm hne) hcall hwindow₂
    · by_cases hne₂ : c₂ = c
      · subst hne₂
        have hcall := (hcalls c₁ hne₁).symm.trans h₁
        exact ((hc frame₂ h₂).2.2 hwindow₂ c₁ frame₁ hne₁ hcall hwindow₁).elim
      · exact h.alone c₁ c₂ frame₁ frame₂ ((hcalls c₁ hne₁).symm.trans h₁) ((hcalls c₂ hne₂).symm.trans h₂)
          hwindow₁ hwindow₂

theorem Quiet.of_same {since : Option ℕ} (h : Quiet w since) (hstarted : w'.started = w.started)
    (hsaving : w.saving = [] → w'.saving = []) : Quiet w' since := by
  intro n hn
  obtain ⟨hle, hquiet⟩ := h n hn
  rw [hstarted]
  exact ⟨hle, fun heq ↦ hsaving (hquiet heq)⟩

theorem FrameOk.of_same {frame : Frame} (h : FrameOk w frame) (hkey : w'.encryptionKey = w.encryptionKey)
    (hlog : w'.log = w.log) (hstarted : w'.started = w.started) (hsaving : w.saving = [] → w'.saving = []) :
    FrameOk w' frame := by
  have hlisted : w'.listed = w.listed := congrArg jsonList hlog
  have hseals : ∀ {record}, Seals w record → Seals w' record := by
    intro record hrecord
    rwa [Seals, hkey, hlisted]
  cases frame with
  | reading caller =>
    cases caller with
    | save receipt => trivial
    | load since => exact Quiet.of_same h hstarted hsaving
  | unsealing caller record =>
    cases caller with
    | save receipt => exact hseals h
    | load since =>
      obtain ⟨hquiet, hkeyed, hrecord⟩ := h
      exact ⟨hquiet.of_same hstarted hsaving, hkey ▸ hkeyed, fun hsince ↦ hseals (hrecord (hstarted ▸ hsince))⟩
  | unsealingNew caller record key => exact h.elim
  | loaded receipt existing => exact Eq.trans h hlisted.symm
  | sealing next => exact Eq.trans h hlisted.symm
  | sealingNew next key => exact ⟨h.1.trans hlisted.symm, hkey.trans h.2⟩
  | writing record => exact hseals h

theorem Inv.wait (h : Inv w) {frame : Frame} (hok : FrameOk w frame) (hsave : IsSave frame → c ∈ w.saving)
    (halone : InWindow frame → Alone w c) : Inv (w.wait c frame) := by
  refine h.change (c := c) ⟨h.keyed, h.memory, h.empty, h.stored, h.returned⟩
    (fun c' hne ↦ Function.update_of_ne hne ..) (fun c' frame' _ _ hok' ↦ ?_) fun frame' hcall ↦ ?_
  · exact ⟨hok'.of_same rfl rfl rfl id, fun _ hsaving ↦ hsaving⟩
  · obtain ⟨_, rfl⟩ | ⟨hne, _⟩ := Tables.update_some_eq_some hcall
    · exact ⟨hok.of_same rfl rfl rfl id, hsave, halone⟩
    · exact (hne rfl).elim

theorem Inv.answer (h : Inv w) {since : Option ℕ} {receipts : List Json}
    (hreceipts : since = some w.started → receipts = w.listed) : Inv (w.answer c since receipts) := by
  have hreturned : ∀ c' log receipts', (w.answer c since receipts).returned c' = some (some log, receipts') →
      receipts' = jsonList log := by
    intro c' log receipts' hreturned
    obtain ⟨_, heq⟩ | ⟨_, hold⟩ := Tables.update_some_eq_some hreturned
    · obtain ⟨hlog, rfl⟩ := Prod.mk.inj heq
      split at hlog
      · next hsince =>
        rw [Option.some.inj hlog]
        exact hreceipts hsince
      · cases hlog
    · exact h.returned c' log receipts' hold
  refine h.change (c := c) ⟨h.keyed, h.memory, h.empty, h.stored, hreturned⟩
    (fun c' hne ↦ Function.update_of_ne hne ..) (fun c' frame' _ _ hok' ↦ ?_) fun frame' hcall ↦ ?_
  · exact ⟨hok'.of_same rfl rfl rfl id, fun _ hsaving ↦ hsaving⟩
  · exact ((Tables.update_none_eq_some hcall).1 rfl).elim

theorem Inv.finish (h : Inv w) : Inv (w.finish c) := by
  refine h.change (c := c) ⟨h.keyed, h.memory, h.empty, h.stored, h.returned⟩
    (fun c' hne ↦ Function.update_of_ne hne ..) (fun c' frame' hne _ hok' ↦ ?_) fun frame' hcall ↦ ?_
  · refine ⟨hok'.of_same rfl rfl rfl fun hsaving ↦ ?_, fun _ hsaving ↦ (List.mem_erase_of_ne hne).mpr hsaving⟩
    rw [World.finish, hsaving]
    rfl
  · exact ((Tables.update_none_eq_some hcall).1 rfl).elim

/-- The list of all receipts is returned to a caller to which it is owed. -/
theorem Inv.load (h : Inv w) {caller : Caller} {receipts : List Json}
    (hsave : ∀ receipt, caller = .save receipt → receipts = w.listed ∧ c ∈ w.saving ∧ Alone w c)
    (hload : ∀ since, caller = .load since → since = some w.started → receipts = w.listed) :
    Inv (w.load c caller receipts) := by
  cases caller with
  | save receipt =>
    obtain ⟨hlisted, hsaving, halone⟩ := hsave receipt rfl
    exact h.wait hlisted (fun _ ↦ hsaving) fun _ ↦ halone
  | load since => exact h.answer (hload since rfl)

theorem Inv.unsealed (h : Inv w) {key : ℕ} {caller : Caller} {record : EncryptedRecord}
    (hkey : w.encryptionKey = some key)
    (hsave : ∀ receipt, caller = .save receipt → Seals w record ∧ c ∈ w.saving ∧ Alone w c)
    (hload : ∀ since, caller = .load since → since = some w.started → Seals w record) :
    Inv (unsealed w c key caller record) := by
  have hlist : Seals w record → (unsealWith key record).getD w.inMemory = w.listed := by
    rintro ⟨key', hkey', rfl⟩
    obtain rfl : key = key' := Option.some.inj (hkey.symm.trans hkey')
    rw [World.listed, unsealWith_sealWith, Option.getD_some]
  refine h.load (fun receipt hcaller ↦ ?_) fun since hcaller hsince ↦ hlist (hload since hcaller hsince)
  obtain ⟨hseals, hsaving, halone⟩ := hsave receipt hcaller
  exact ⟨hlist hseals, hsaving, halone⟩

theorem Inv.draw (h : Inv w) : Inv { w with drawn := w.drawn + 1 } where
  toSharedOk := ⟨h.keyed, h.memory, h.empty, h.stored, h.returned⟩
  frames c frame hcall := ⟨(h.frames c frame hcall).1.of_same rfl rfl rfl id, (h.frames c frame hcall).2⟩
  alone := h.alone

/-- A save is started, so that no load that was called before is owed a list. -/
theorem Inv.start (h : Inv w) : Inv { w with started := w.started + 1, saving := c :: w.saving } where
  toSharedOk := ⟨h.keyed, h.memory, h.empty, h.stored, h.returned⟩
  frames c' frame hcall := by
    obtain ⟨hok, hsave⟩ := h.frames c' frame hcall
    refine ⟨?_, fun hframe ↦ List.mem_cons_of_mem c (hsave hframe)⟩
    have hquiet : ∀ {since}, Quiet w since →
        Quiet { w with started := w.started + 1, saving := c :: w.saving } since := by
      intro since hquiet n hn
      have hle := (hquiet n hn).1
      exact ⟨hle.trans (Nat.le_succ _), fun heq ↦ absurd heq (show n ≠ w.started + 1 by omega)⟩
    cases frame with
    | reading caller =>
      cases caller with
      | save receipt => trivial
      | load since => exact hquiet hok
    | unsealing caller record =>
      cases caller with
      | save receipt => exact hok
      | load since =>
        obtain ⟨hsince, hkeyed, _⟩ := hok
        refine ⟨hquiet hsince, hkeyed, fun heq ↦ ?_⟩
        have hle := (hsince _ heq).1
        exact absurd hle (Nat.not_succ_le_self w.started)
    | _ => exact hok
  alone := h.alone

/-- A save puts its receipt into the list in memory. -/
theorem Inv.keep (h : Inv w) {receipt : PassportReceiptRecord} {existing : List Json}
    (hcall : w.calls c = some (.loaded receipt existing)) (hshared : SharedOk w')
    (hkey : w'.encryptionKey = w.encryptionKey) (hstarted : w'.started = w.started)
    (hsaving : ∀ c' ∈ w.saving, c' ≠ c → c' ∈ w'.saving) (hcalls : ∀ c', c' ≠ c → w'.calls c' = w.calls c')
    (hc : ∀ frame, w'.calls c = some frame → frame = .sealing w'.listed ∧ c ∈ w'.saving) : Inv w' := by
  have halone : Alone w c := h.alone_of hcall trivial
  have hmem : c ∈ w.saving := (h.frames c _ hcall).2 trivial
  have hquiet : ∀ {since}, Quiet w since → ¬since = some w.started := by
    intro since hsince heq
    have hempty := (hsince _ heq).2 rfl
    rw [hempty] at hmem
    cases hmem
  have hquiet' : ∀ {since}, Quiet w since → Quiet w' since := by
    intro since hsince n hn
    rw [hstarted]
    exact ⟨(hsince n hn).1, fun heq ↦ absurd (heq ▸ hn) (hquiet hsince)⟩
  refine h.change hshared hcalls (fun c' frame hne hcall' hok ↦ ?_) fun frame hframe ↦ ?_
  · refine ⟨?_, fun _ hmem' ↦ hsaving c' hmem' hne⟩
    have hwindow := halone c' frame hne hcall'
    cases frame with
    | reading caller =>
      cases caller with
      | save receipt => trivial
      | load since => exact hquiet' hok
    | unsealing caller record =>
      cases caller with
      | save receipt => exact (hwindow trivial).elim
      | load since =>
        obtain ⟨hsince, hkeyed, _⟩ := hok
        exact ⟨hquiet' hsince, hkey ▸ hkeyed, fun heq ↦ absurd (hstarted ▸ heq) (hquiet hsince)⟩
    | unsealingNew caller record key => exact hok.elim
    | _ => exact (hwindow trivial).elim
  · obtain ⟨rfl, hmem'⟩ := hc frame hframe
    exact ⟨rfl, fun _ ↦ hmem', fun _ ↦ halone⟩

/-- A save stores the first key. -/
theorem Inv.setKey (h : Inv w) {next : List Json} {key : ℕ} (hcall : w.calls c = some (.sealingNew next key)) :
    Inv ({ w with encryptionKey := some key }.wait c (.writing (sealWith key next))) := by
  have halone : Alone w c := h.alone_of hcall trivial
  obtain ⟨⟨hnext, hnone⟩, hsave⟩ := h.frames c _ hcall
  have hrecord : ∀ record, w.record ≠ some record := by
    intro record hsome
    have hkeyed := h.keyed (hsome ▸ rfl)
    rw [hnone] at hkeyed
    cases hkeyed
  refine h.change (c := c)
    ⟨fun _ ↦ rfl, h.memory, h.empty, fun _ record hsome ↦ absurd hsome (hrecord record), h.returned⟩
    (fun c' hne ↦ Function.update_of_ne hne ..) (fun c' frame hne hcall' hok ↦ ?_) fun frame hframe ↦ ?_
  · refine ⟨?_, fun _ hsaving ↦ hsaving⟩
    have hwindow := halone c' frame hne hcall'
    cases frame with
    | reading caller => cases caller <;> exact hok
    | unsealing caller record =>
      cases caller with
      | save receipt => exact (hwindow trivial).elim
      | load since =>
        obtain ⟨_, hkeyed, _⟩ := hok
        rw [hnone] at hkeyed
        cases hkeyed
    | unsealingNew caller record key => exact hok.elim
    | _ => exact (hwindow trivial).elim
  · obtain ⟨_, rfl⟩ | ⟨hne, _⟩ := Tables.update_some_eq_some hframe
    · exact ⟨⟨key, rfl, by rw [hnext]; rfl⟩, fun _ ↦ hsave trivial, fun _ ↦ halone⟩
    · exact (hne rfl).elim

/-- A save writes its list. -/
theorem Inv.write (h : Inv w) {record : EncryptedRecord} (hcall : w.calls c = some (.writing record)) :
    Inv ({ w with record := some record, unwritten := false }.finish c) := by
  have hseals : Seals w record := (h.frames c _ hcall).1
  have hwritten : Inv { w with record := some record, unwritten := false } := by
    refine ⟨⟨fun _ ↦ ?_, h.memory, fun _ hnone ↦ ?_, fun _ record' hsome ↦ ?_, h.returned⟩, ?_, h.alone⟩
    · obtain ⟨key, hkey, _⟩ := hseals
      exact hkey ▸ rfl
    · cases hnone
    · cases hsome
      exact hseals
    · exact fun c' frame hframe ↦ ⟨(h.frames c' frame hframe).1.of_same rfl rfl rfl id, (h.frames c' frame hframe).2⟩
  exact hwritten.finish

end Rules

/-! ## Steps and runs -/

/-- A call that is about to read the record. A save that reads is alone between its reading and its writing, and a
list is read only if it is the one in memory. -/
def Timely (w : World) (c : ℕ) : Frame → Prop
  | .reading (.save _) => Alone w c ∧ w.unwritten = false
  | .reading (.load since) => since = some w.started → w.unwritten = false
  | _ => True

def Calm (session : Session) (w : World) : Event → Prop
  | .save c _ => session.usable = false → Alone w c
  | .load _ => True
  | .step c => ∀ frame, w.calls c = some frame → Timely w c frame
  | .fail c => ∀ receipt, w.calls c = some (.reading (.save receipt)) → Alone w c

theorem Inv.advance {session : Session} {w : World} {c : ℕ} (h : Inv w) {frame : Frame}
    (hcall : w.calls c = some frame) (htimely : Timely w c frame) : Inv (advance session w c frame) := by
  obtain ⟨hok, hsave⟩ := h.frames c frame hcall
  cases frame with
  | reading caller =>
    rw [ReceiptStore.advance]
    cases hrecord : w.record with
    | none =>
      cases caller with
      | save receipt =>
        have hempty := h.empty htimely.2 hrecord
        exact h.load (fun _ _ ↦ ⟨hempty.symm, hsave trivial, htimely.1⟩) fun _ hcaller ↦ by cases hcaller
      | load since =>
        refine h.load (fun _ hcaller ↦ by cases hcaller) fun since' hcaller hsince ↦ ?_
        cases hcaller
        exact (h.empty (htimely hsince) hrecord).symm
    | some record =>
      cases caller with
      | save receipt => exact h.wait (h.stored htimely.2 record hrecord) (fun _ ↦ hsave trivial) fun _ ↦ htimely.1
      | load since =>
        have hkeyed := h.keyed (hrecord ▸ rfl)
        exact h.wait ⟨hok, hkeyed, fun hsince ↦ h.stored (htimely hsince) record hrecord⟩ False.elim False.elim
  | unsealing caller record =>
    rw [ReceiptStore.advance]
    cases hkey : w.encryptionKey with
    | none =>
      cases caller with
      | save receipt =>
        obtain ⟨key, hsome, _⟩ := hok
        rw [hkey] at hsome
        cases hsome
      | load since =>
        have hsome := hok.2.1
        rw [hkey] at hsome
        cases hsome
    | some key =>
      cases caller with
      | save receipt =>
        exact h.unsealed hkey (fun _ _ ↦ ⟨hok, hsave trivial, h.alone_of hcall trivial⟩) fun _ hcaller ↦ by cases hcaller
      | load since =>
        refine h.unsealed hkey (fun _ hcaller ↦ by cases hcaller) fun since' hcaller hsince ↦ ?_
        cases hcaller
        exact hok.2.2 hsince
  | unsealingNew caller record key => exact hok.elim
  | loaded receipt existing =>
    have hnext : withReceipt receipt existing = jsonList (receipt :: w.log) := by
      rw [show existing = w.listed from hok]
      exact withReceipt_jsonList receipt w.log
    rw [ReceiptStore.advance]
    split
    · refine h.keep hcall ⟨h.keyed, hnext, fun hwritten ↦ ?_, fun hwritten ↦ ?_, h.returned⟩ rfl rfl
        (fun c' hmem _ ↦ hmem) (fun c' hne ↦ Function.update_of_ne hne ..) fun frame hframe ↦ ?_
      · cases hwritten
      · cases hwritten
      · obtain ⟨_, rfl⟩ | ⟨hne, _⟩ := Tables.update_some_eq_some hframe
        · exact ⟨congrArg Frame.sealing hnext, hsave trivial⟩
        · exact (hne rfl).elim
    · refine h.keep hcall ⟨h.keyed, hnext, fun hwritten ↦ ?_, fun hwritten ↦ ?_, h.returned⟩ rfl rfl
        (fun c' hmem hne ↦ (List.mem_erase_of_ne hne).mpr hmem) (fun c' hne ↦ Function.update_of_ne hne ..)
        fun frame hframe ↦ ?_
      · cases hwritten
      · cases hwritten
      · exact ((Tables.update_none_eq_some hframe).1 rfl).elim
  | sealing next =>
    have halone := h.alone_of hcall trivial
    rw [ReceiptStore.advance]
    split
    · next key hkey =>
      have hseals : Seals w (sealWith key next) := ⟨key, hkey, by rw [show next = w.listed from hok]⟩
      exact h.wait hseals (fun _ ↦ hsave trivial) fun _ ↦ halone
    · next hkey =>
      have hnew : FrameOk { w with drawn := w.drawn + 1 } (.sealingNew next w.drawn) := ⟨hok, hkey⟩
      exact h.draw.wait hnew (fun _ ↦ hsave trivial) fun _ ↦ halone
  | sealingNew next key => exact h.setKey hcall
  | writing record => exact h.write hcall

theorem Inv.fail {w w' : World} {c : ℕ} (h : Inv w) {frame : Frame} (hcall : w.calls c = some frame)
    (halone : ∀ receipt, frame = .reading (.save receipt) → Alone w c) (hfail : fail w c frame = some w') : Inv w' := by
  obtain ⟨hok, hsave⟩ := h.frames c frame hcall
  -- The list in memory is that of all receipts.
  have hload : ∀ caller, (∀ receipt, caller = .save receipt → c ∈ w.saving ∧ Alone w c) →
      Inv (w.load c caller w.inMemory) := fun caller hcaller ↦
    h.load (fun receipt heq ↦ ⟨h.memory, hcaller receipt heq⟩) fun _ _ _ ↦ h.memory
  cases frame with
  | reading caller =>
    cases hfail
    refine hload caller fun receipt hcaller ↦ ?_
    subst hcaller
    exact ⟨hsave trivial, halone receipt rfl⟩
  | unsealing caller record =>
    cases hfail
    refine hload caller fun receipt hcaller ↦ ?_
    subst hcaller
    exact ⟨hsave trivial, h.alone_of hcall trivial⟩
  | unsealingNew caller record key => exact hok.elim
  | loaded receipt existing => cases hfail
  | sealing next =>
    cases hfail
    exact h.finish
  | sealingNew next key =>
    cases hfail
    exact h.finish
  | writing record =>
    cases hfail
    exact h.finish

theorem Inv.step {session : Session} (hprofile : session.profileKey ≠ []) {w w' : World} {e : Event} (h : Inv w)
    (hcalm : Calm session w e) (hstep : step session w e = .ok w') : Inv w' := by
  cases e with
  | save c receipt =>
    rw [ReceiptStore.step] at hstep
    split at hstep
    · cases hstep
      rw [loadPassportReceipts, if_neg hprofile]
      split
      · exact h.start.wait trivial (fun _ ↦ List.mem_cons_self) False.elim
      · next husable =>
        have halone : Alone w c := hcalm (Bool.eq_false_iff.mpr husable)
        refine h.start.load (fun receipt' hcaller ↦ ⟨h.memory, List.mem_cons_self, halone⟩) fun _ hcaller ↦ ?_
        cases hcaller
    · cases hstep
  | load c =>
    rw [ReceiptStore.step] at hstep
    split at hstep
    · cases hstep
      rw [loadPassportReceipts, if_neg hprofile]
      split
      · refine h.wait ?_ False.elim False.elim
        intro n hn
        split at hn
        · next hsaving => exact ⟨(Option.some.inj hn).ge, fun _ ↦ hsaving⟩
        · cases hn
      · exact h.load (fun receipt hcaller ↦ by cases hcaller) fun _ _ _ ↦ h.memory
    · cases hstep
  | step c =>
    rw [ReceiptStore.step] at hstep
    cases hcall : w.calls c with
    | none =>
      rw [hcall] at hstep
      cases hstep
    | some frame =>
      rw [hcall] at hstep
      cases hstep
      exact h.advance hcall (hcalm frame hcall)
  | fail c =>
    rw [ReceiptStore.step] at hstep
    cases hcall : w.calls c with
    | none =>
      rw [hcall] at hstep
      cases hstep
    | some frame =>
      rw [hcall, Option.bind_some] at hstep
      cases hfail : ReceiptStore.fail w c frame with
      | none =>
        rw [hfail] at hstep
        cases hstep
      | some next =>
        rw [hfail] at hstep
        cases hstep
        exact h.fail hcall (fun receipt heq ↦ hcalm receipt (heq ▸ hcall)) hfail

/-- In a run in which a save that reads the list is alone until it has written, and no list is read from storage that
is older than the one in memory, a load that no save overlaps returns the last version of each receipt. -/
theorem saved_receipts_are_loaded {session : Session} (hprofile : session.profileKey ≠ []) (events : List Event)
    (h : ∀ e ∈ trace (step session) init events, Calm session e.1 e.2) :
    ∀ c log receipts, (run (step session) init events).returned c = some (some log, receipts) →
      Lists log receipts := by
  have hrun : Inv (run (step session) init events) := run_history (I := fun _ ↦ Inv)
    (P := fun e ↦ Calm session e.1 e.2) (fun _ _ _ _ hinv hcalm hstep ↦ hinv.step hprofile hcalm hstep) inv_init events
    fun e he ↦ h e (mem_accepted_iff.mp he).1
  intro c log receipts hreturned
  rw [hrun.returned c log receipts hreturned]
  exact lists_latest log

def sampleReceipt (id : JsString) : PassportReceiptRecord :=
  ⟨id, none, js "2026-01-01T00:00:00.000Z", .confirmed, js "preview", none⟩

/-- A receipt is saved, and the receipts are loaded. -/
def sampleEvents : List Event :=
  [.save 0 (sampleReceipt (js "a")), .step 0, .step 0, .step 0, .step 0, .step 0, .load 1, .step 1, .step 1]

theorem saved_receipts_are_loaded_sample :
    (run (step ⟨js "profile", true⟩) init sampleEvents).returned 1 =
        some (some [sampleReceipt (js "a")], [(sampleReceipt (js "a")).json]) ∧
      Lists [sampleReceipt (js "a")] [(sampleReceipt (js "a")).json] := by
  have hload : ∃ memory, (run (step ⟨js "profile", true⟩) init sampleEvents).returned 1 =
      some (some [sampleReceipt (js "a")],
        (unsealWith 0 (sealWith 0 (jsonList [sampleReceipt (js "a")]))).getD memory) := ⟨_, rfl⟩
  obtain ⟨memory, hreturned⟩ := hload
  rw [unsealWith_sealWith] at hreturned
  have hprofile : js "profile" ≠ [] := by decide
  have halone : ∀ frame c' frame', c' ≠ 0 → Function.update (fun _ ↦ none) 0 (some frame) c' = some frame' →
      ¬InWindow frame' := by
    intro frame c' frame' hne hcall
    obtain ⟨heq, _⟩ | ⟨_, hcall⟩ := Tables.update_some_eq_some hcall
    · exact absurd heq hne
    · cases hcall
  refine ⟨hreturned, @saved_receipts_are_loaded ⟨js "profile", true⟩ hprofile sampleEvents ?_ 1 _ _ hreturned⟩
  refine List.forall_mem_cons.mpr ⟨fun h ↦ (by cases h), ?_⟩
  refine List.forall_mem_cons.mpr ⟨fun frame h ↦ ?_, ?_⟩
  · cases h
    exact ⟨halone _, rfl⟩
  refine List.forall_mem_cons.mpr ⟨fun frame h ↦ (by cases h; trivial), ?_⟩
  refine List.forall_mem_cons.mpr ⟨fun frame h ↦ (by cases h; trivial), ?_⟩
  refine List.forall_mem_cons.mpr ⟨fun frame h ↦ (by cases h; trivial), ?_⟩
  refine List.forall_mem_cons.mpr ⟨fun frame h ↦ (by cases h; trivial), ?_⟩
  refine List.forall_mem_cons.mpr ⟨trivial, ?_⟩
  refine List.forall_mem_cons.mpr ⟨fun frame h ↦ (by cases h; exact fun _ ↦ rfl), ?_⟩
  refine List.forall_mem_cons.mpr ⟨fun frame h ↦ (by cases h; trivial), ?_⟩
  exact fun e he ↦ by cases he

/-- Two saves read the empty list, and the second writes its list over that of the first. -/
def overlappingSaves : List Event :=
  [.save 0 (sampleReceipt (js "a")), .save 1 (sampleReceipt (js "b")), .step 0, .step 1, .step 0, .step 0, .step 0,
    .step 0, .step 1, .step 1, .step 1, .load 2, .step 2, .step 2]

/-- The list of a save is not written, and the storage is read afterwards. -/
def failedWrite : List Event :=
  [.save 0 (sampleReceipt (js "a")), .step 0, .step 0, .fail 0, .load 1, .step 1]

/-- The first receipt of two is lost, and so is one that could not be written. -/
theorem receipts_lost :
    ((run (step ⟨js "profile", true⟩) init overlappingSaves).returned 2 =
        some (some [sampleReceipt (js "b"), sampleReceipt (js "a")], [(sampleReceipt (js "b")).json]) ∧
      ¬Lists [sampleReceipt (js "b"), sampleReceipt (js "a")] [(sampleReceipt (js "b")).json]) ∧
    (run (step ⟨js "profile", true⟩) init failedWrite).returned 1 = some (some [sampleReceipt (js "a")], []) ∧
      ¬Lists [sampleReceipt (js "a")] [] := by
  have hoverlap : ∃ memory, (run (step ⟨js "profile", true⟩) init overlappingSaves).returned 2 =
      some (some [sampleReceipt (js "b"), sampleReceipt (js "a")],
        (unsealWith 0 (sealWith 0 (jsonList [sampleReceipt (js "b")]))).getD memory) := ⟨_, rfl⟩
  obtain ⟨memory, hreturned⟩ := hoverlap
  rw [unsealWith_sealWith] at hreturned
  refine ⟨⟨hreturned, ?_⟩, rfl, ?_⟩
  · rintro ⟨list, hlist, hmem, _⟩
    have ha := (hmem (sampleReceipt (js "a"))).mpr (by decide)
    have hb := (hmem (sampleReceipt (js "b"))).mpr (by decide)
    obtain ⟨receipt, rfl⟩ := List.length_eq_one_iff.mp ((List.length_map _).symm.trans (congrArg List.length hlist).symm)
    have hne : sampleReceipt (js "a") ≠ sampleReceipt (js "b") := by decide
    exact hne ((List.mem_singleton.mp ha).trans (List.mem_singleton.mp hb).symm)
  · rintro ⟨list, hlist, hmem, _⟩
    have ha := (hmem (sampleReceipt (js "a"))).mpr (by decide)
    rw [List.map_eq_nil_iff.mp hlist.symm] at ha
    cases ha

end MidnightReferendum.ReceiptStore
