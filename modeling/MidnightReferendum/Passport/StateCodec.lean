import MidnightReferendum.Js.Base64
import MidnightReferendum.Js.JsonText
import MidnightReferendum.Js.Trimming

/-!
# Private states as text

The browser stores private states, signing keys and credentials as encrypted JSON texts. A replacer writes
big integers and byte arrays as tagged objects, and a reviver reads the tags. An object of the user that looks
like a tag is read as one.
-/

namespace MidnightReferendum.PrivateState

open Js

/-- A value of a private state. -/
inductive Value where
  | null
  | bool (value : Bool)
  | number (value : JsNumber)
  | string (value : JsString)
  | bigint (value : ℤ)
  /-- `Uint8Array` -/
  | bytes (value : List UInt8)
  | array (items : List Value)
  | object (fields : List (JsString × Value))

/-! ## Writing -/

/-- `current.toString()` of a `bigint` -/
def bigintText (value : ℤ) : JsString := (if value < 0 then js "-" else []) ++ decimal value.natAbs

def bytesToBase64 (bytes : List UInt8) : JsString := btoa bytes

mutual

/-- The value after the replacer. -/
def Value.replaced : Value → Json
  | .null => .null
  | .bool value => .bool value
  | .number value => .number value
  | .string value => .string value
  | .bigint value => .object [(js "$bigint", .string (bigintText value))]
  | .bytes value => .object [(js "$bytes", .string (bytesToBase64 value))]
  | .array items => .array (replacedItems items)
  | .object fields => .object (replacedFields fields)

def replacedItems : List Value → List Json
  | [] => []
  | item :: rest => item.replaced :: replacedItems rest

def replacedFields : List (JsString × Value) → List (JsString × Json)
  | [] => []
  | (name, value) :: rest => (name, value.replaced) :: replacedFields rest

end

def serializePrivateStateForStorage (value : Value) : JsString := value.replaced.stringify

/-! ## Reading -/

/-- The digits are those of the base. -/
def areDigits (base : ℕ) (text : JsString) : Bool :=
  !text.isEmpty && text.all fun u ↦ (hexValue? u).any (· < base)

def radixNumber? (base : ℕ) (text : JsString) : Option ℤ :=
  if areDigits base text then some (text.foldl (fun n u ↦ n * base + (hexValue? u).getD 0) 0 : ℕ) else none

/-- `BigInt(text)`, which throws for a text that is not an integer -/
def bigintOf? (text : JsString) : Option ℤ :=
  match trimmed text with
  | [] => some 0
  | [u] => radixNumber? 10 [u]
  | u :: v :: rest =>
    if u == 0x30 && (v == 0x78 || v == 0x58) then radixNumber? 16 rest
    else if u == 0x30 && (v == 0x6F || v == 0x4F) then radixNumber? 8 rest
    else if u == 0x30 && (v == 0x62 || v == 0x42) then radixNumber? 2 rest
    else if u == 0x2D then (radixNumber? 10 (v :: rest)).map fun n ↦ -n
    else if u == 0x2B then radixNumber? 10 (v :: rest)
    else radixNumber? 10 (u :: v :: rest)

example : bigintOf? (js " -042 ") = some (-42) := by decide +kernel

example : bigintOf? (js "0xfF") = some 255 := by decide +kernel

def base64ToBytes (value : JsString) : Option (List UInt8) := atob value

/-- The text under a name. -/
def stringField (fields : List (JsString × Value)) (name : JsString) : Option JsString :=
  match fields.lookup name with
  | some (.string value) => some value
  | _ => none

/-- The reviver on an object whose fields are revived. -/
def reviveObject (fields : List (JsString × Value)) : Option Value :=
  match stringField fields (js "$bigint") with
  | some text => (bigintOf? text).map .bigint
  | none =>
    match stringField fields (js "$bytes") with
    | some text => (base64ToBytes text).map .bytes
    | none => some (.object fields)

mutual

/-- The value after the reviver, which throws for a tag that does not hold what it says. -/
def revive : Json → Option Value
  | .null => some .null
  | .bool value => some (.bool value)
  | .number value => some (.number value)
  | .string value => some (.string value)
  | .array items => (reviveItems items).map .array
  | .object fields => (reviveFields fields).bind reviveObject

def reviveItems : List Json → Option (List Value)
  | [] => some []
  | item :: rest => (revive item).bind fun item ↦ (reviveItems rest).map (item :: ·)

def reviveFields : List (JsString × Json) → Option (List (JsString × Value))
  | [] => some []
  | (name, value) :: rest => (revive value).bind fun value ↦ (reviveFields rest).map ((name, value) :: ·)

end

def deserializePrivateStateFromStorage (text : JsString) : Option Value := (Json.parse text).bind revive

/-! ## Round trip -/

/-- A number is a finite double, and the names of an object are distinct and in property order. -/
inductive Value.Valid : Value → Prop
  | null : Valid .null
  | bool (value : Bool) : Valid (.bool value)
  | number {value : ℚ} (h : IsDouble value) : Valid (.number (.finite value))
  | string (value : JsString) : Valid (.string value)
  | bigint (value : ℤ) : Valid (.bigint value)
  | bytes (value : List UInt8) : Valid (.bytes value)
  | array {items : List Value} (h : ∀ item ∈ items, Valid item) : Valid (.array items)
  | object {fields : List (JsString × Value)} (hnodup : (fields.map Prod.fst).Nodup)
      (hordered : fields.Pairwise (Before Prod.fst)) (h : ∀ field ∈ fields, Valid field.2) :
      Valid (.object fields)

/-- An object of the user has a text under the name of a tag. -/
def LooksTagged (fields : List (JsString × Value)) : Prop :=
  (stringField fields (js "$bigint")).isSome ∨ (stringField fields (js "$bytes")).isSome

instance (fields : List (JsString × Value)) : Decidable (LooksTagged fields) :=
  inferInstanceAs (Decidable (_ ∨ _))

/-- Such an object is somewhere in the value. -/
inductive Value.HasTag : Value → Prop
  | here {fields : List (JsString × Value)} (h : LooksTagged fields) : HasTag (.object fields)
  | item {items : List Value} {item : Value} (hmem : item ∈ items) (h : HasTag item) : HasTag (.array items)
  | field {fields : List (JsString × Value)} {field : JsString × Value} (hmem : field ∈ fields)
      (h : HasTag field.2) : HasTag (.object fields)

theorem replacedItems_eq (items : List Value) : replacedItems items = items.map Value.replaced := by
  induction items with
  | nil => rfl
  | cons item items ih => rw [replacedItems, ih, List.map_cons]

theorem replacedFields_eq (fields : List (JsString × Value)) :
    replacedFields fields = fields.map fun field ↦ (field.1, field.2.replaced) := by
  induction fields with
  | nil => rfl
  | cons field fields ih => rw [replacedFields, ih, List.map_cons]

theorem valid_tagged (name text : JsString) : (Json.object [(name, .string text)]).Valid := by
  refine .object (List.nodup_singleton name) (List.pairwise_singleton _ _) fun field hfield ↦ ?_
  rw [List.mem_singleton.mp hfield]
  exact .string text

theorem Value.Valid.replaced {v : Value} (h : v.Valid) : v.replaced.Valid := by
  induction h with
  | null => exact .null
  | bool value => exact .bool value
  | number h => exact .number h
  | string value => exact .string value
  | bigint value => exact valid_tagged _ _
  | bytes value => exact valid_tagged _ _
  | array _ ih =>
    rw [Value.replaced, replacedItems_eq]
    refine .array fun item hitem ↦ ?_
    obtain ⟨v, hv, rfl⟩ := List.mem_map.mp hitem
    exact ih v hv
  | object hnodup hordered _ ih =>
    rw [Value.replaced, replacedFields_eq]
    refine .object ?_ (List.pairwise_map.mpr hordered) fun field hfield ↦ ?_
    · rwa [List.map_map]
    · obtain ⟨v, hv, rfl⟩ := List.mem_map.mp hfield
      exact ih v hv

theorem hexValue?_of_digit {u : UInt16} (h : isDecimalDigit u) : hexValue? u = some (u.toNat - 0x30) := by
  exact if_pos h

theorem radixNumber?_of_digits {text : JsString} (h : AllDigits text) (hne : text ≠ []) :
    radixNumber? 10 text = some (numeral text : ℤ) := by
  have hfold : ∀ (text : JsString) (n : ℕ), AllDigits text →
      text.foldl (fun n u ↦ n * 10 + (hexValue? u).getD 0) n =
        text.foldl (fun n u ↦ n * 10 + (u.toNat - 0x30)) n := by
    intro text
    induction text with
    | nil => exact fun _ _ ↦ rfl
    | cons u text ih =>
      intro n h
      rw [List.foldl_cons, List.foldl_cons, hexValue?_of_digit (h u List.mem_cons_self), Option.getD_some]
      exact ih _ fun v hv ↦ h v (List.mem_cons_of_mem u hv)
  have hdigits : areDigits 10 text := by
    rw [areDigits, Bool.and_eq_true, Bool.not_eq_true', List.isEmpty_eq_false_iff, List.all_eq_true]
    refine ⟨hne, fun u hu ↦ ?_⟩
    have hdigit := h u hu
    rw [hexValue?_of_digit hdigit, Option.any_some, decide_eq_true_eq]
    rw [isDecimalDigit, Bool.and_eq_true, decide_eq_true_eq, decide_eq_true_eq] at hdigit
    have hle : u.toNat ≤ 0x39 := hdigit.2
    omega
  rw [radixNumber?, if_pos hdigits, hfold text 0 h]
  rfl

theorem isSpace_of_startsNumber {u : UInt16} (h : startsNumber u) : isSpace u = false := by
  obtain hdigit | hminus := Bool.or_eq_true_iff.mp h
  · rw [isDecimalDigit, Bool.and_eq_true, decide_eq_true_eq, decide_eq_true_eq] at hdigit
    have hlow : 0x30 ≤ u.toNat := hdigit.1
    have hhigh : u.toNat ≤ 0x39 := hdigit.2
    have hall : ∀ n : Fin 10, isSpace (0x30 + n.val).toUInt16 = false := by decide
    have hu : u = (0x30 + (u.toNat - 0x30)).toUInt16 := by
      rw [Nat.add_sub_cancel' hlow]
      exact UInt16.ofNat_toNat.symm
    rw [hu]
    exact hall ⟨u.toNat - 0x30, by omega⟩
  · rw [beq_iff_eq.mp hminus]
    rfl

theorem bigintOf?_of_digits {text : JsString} (h : AllDigits text) (hne : text ≠ []) :
    bigintOf? text = some (numeral text : ℤ) := by
  have hstart : ∀ u ∈ text, startsNumber u := fun u hu ↦ by rw [startsNumber, h u hu, Bool.true_or]
  rw [← radixNumber?_of_digits h hne, bigintOf?, trimmed_eq_self fun u hu ↦ isSpace_of_startsNumber (hstart u hu)]
  cases text with
  | nil => exact absurd rfl hne
  | cons u rest =>
    cases rest with
    | nil => rfl
    | cons v rest =>
      have hv := fun w (hw : startsNumber w = false) ↦ Bool.eq_false_iff.mpr
        (ne_of_startsNumber (hstart v (List.mem_cons_of_mem u List.mem_cons_self)) hw)
      have hu : ∀ w, isDecimalDigit w = false → ¬(u == w) = true := by
        intro w hw heq
        have hdigit := h u List.mem_cons_self
        rw [beq_iff_eq.mp heq, hw] at hdigit
        contradiction
      simp only [hv 0x78 rfl, hv 0x58 rfl, hv 0x6F rfl, hv 0x4F rfl, hv 0x62 rfl, hv 0x42 rfl, Bool.or_self,
        Bool.and_false]
      rw [if_neg Bool.false_ne_true, if_neg Bool.false_ne_true, if_neg Bool.false_ne_true, if_neg (hu 0x2D rfl),
        if_neg (hu 0x2B rfl)]

theorem bigintOf?_minus {text : JsString} (h : AllDigits text) (hne : text ≠ []) :
    bigintOf? (0x2D :: text) = some (-numeral text : ℤ) := by
  have hspace : ∀ u ∈ (0x2D :: text : JsString), isSpace u = false := by
    intro u hu
    obtain rfl | hu := List.mem_cons.mp hu
    · rfl
    · exact isSpace_of_startsNumber (by rw [startsNumber, h u hu, Bool.true_or])
  have hnumber := radixNumber?_of_digits h hne
  obtain ⟨v, rest, rfl⟩ := List.exists_cons_of_ne_nil hne
  have hzero : ∀ b : Bool, ¬((0x2D : UInt16) == 0x30 && b) = true := fun b ↦ by
    rw [show ((0x2D : UInt16) == 0x30) = false by decide, Bool.false_and]
    exact Bool.false_ne_true
  rw [bigintOf?, trimmed_eq_self hspace]
  simp only
  rw [if_neg (hzero _), if_neg (hzero _), if_neg (hzero _), if_pos (by decide), hnumber, Option.map_some]

/-- A big integer is read back. -/
theorem bigintOf?_bigintText (value : ℤ) : bigintOf? (bigintText value) = some value := by
  obtain ⟨hall, hne⟩ := allDigits_decimal value.natAbs
  have hminus : js "-" = [0x2D] := by decide
  unfold bigintText
  split
  · next hneg =>
    rw [hminus, List.singleton_append, bigintOf?_minus hall hne, numeral_decimal, Int.ofNat_natAbs_of_nonpos hneg.le,
      neg_neg]
  · next hpos =>
    rw [List.nil_append, bigintOf?_of_digits hall hne, numeral_decimal, Int.natAbs_of_nonneg (not_lt.mp hpos)]

/-! ## What is read back -/

theorem reviveItems_eq_self {items : List Value} :
    reviveItems (replacedItems items) = some items ↔ ∀ item ∈ items, revive item.replaced = some item := by
  induction items with
  | nil => exact ⟨fun _ item hitem ↦ (List.not_mem_nil hitem).elim, fun _ ↦ rfl⟩
  | cons item items ih =>
    rw [replacedItems, reviveItems, List.forall_mem_cons, ← ih]
    constructor
    · intro h
      obtain ⟨item', hitem, hrest⟩ := Option.bind_eq_some_iff.mp h
      obtain ⟨items', hitems, hcons⟩ := Option.map_eq_some_iff.mp hrest
      obtain ⟨rfl, rfl⟩ := List.cons.inj hcons
      exact ⟨hitem, hitems⟩
    · rintro ⟨hitem, hitems⟩
      rw [hitem, hitems]
      rfl

theorem reviveFields_eq_self {fields : List (JsString × Value)} :
    reviveFields (replacedFields fields) = some fields ↔
      ∀ field ∈ fields, revive field.2.replaced = some field.2 := by
  induction fields with
  | nil => exact ⟨fun _ field hfield ↦ (List.not_mem_nil hfield).elim, fun _ ↦ rfl⟩
  | cons field fields ih =>
    obtain ⟨name, value⟩ := field
    rw [replacedFields, reviveFields, List.forall_mem_cons, ← ih]
    constructor
    · intro h
      obtain ⟨value', hvalue, hrest⟩ := Option.bind_eq_some_iff.mp h
      obtain ⟨fields', hfields, hcons⟩ := Option.map_eq_some_iff.mp hrest
      obtain ⟨heq, rfl⟩ := List.cons.inj hcons
      obtain ⟨_, rfl⟩ := Prod.mk.inj heq
      exact ⟨hvalue, hfields⟩
    · rintro ⟨hvalue, hfields⟩
      rw [hvalue, hfields]
      rfl

/-- An object comes back as an object if it does not look tagged. -/
theorem reviveObject_eq_object {fields fields' : List (JsString × Value)} :
    reviveObject fields = some (.object fields') ↔ fields = fields' ∧ ¬LooksTagged fields := by
  unfold reviveObject LooksTagged
  cases stringField fields (js "$bigint") with
  | some text => simp
  | none =>
    cases stringField fields (js "$bytes") with
    | some text => simp
    | none => simp

theorem revive_bigint (value : ℤ) : revive (Value.bigint value).replaced = some (.bigint value) := by
  have hfield : stringField [(js "$bigint", .string (bigintText value))] (js "$bigint") =
      some (bigintText value) := by
    rw [stringField, List.lookup_cons_self]
  rw [Value.replaced, revive, reviveFields, revive, Option.bind_some, reviveFields, Option.map_some, Option.bind_some,
    reviveObject, hfield]
  simp only [bigintOf?_bigintText, Option.map_some]

theorem revive_bytes (value : List UInt8) : revive (Value.bytes value).replaced = some (.bytes value) := by
  have hnone : stringField [(js "$bytes", .string (bytesToBase64 value))] (js "$bigint") = none := by
    rw [stringField, List.lookup_cons, show (js "$bigint" == js "$bytes") = false by decide]
    rfl
  have hfield : stringField [(js "$bytes", .string (bytesToBase64 value))] (js "$bytes") =
      some (bytesToBase64 value) := by
    rw [stringField, List.lookup_cons_self]
  rw [Value.replaced, revive, reviveFields, revive, Option.bind_some, reviveFields, Option.map_some, Option.bind_some,
    reviveObject, hnone, hfield]
  simp only [base64ToBytes, bytesToBase64, atob_btoa, Option.map_some]

theorem revive_replaced_iff {v : Value} (h : v.Valid) : revive v.replaced = some v ↔ ¬v.HasTag := by
  induction h with
  | null => exact iff_of_true rfl fun h ↦ by cases h
  | bool value => exact iff_of_true rfl fun h ↦ by cases h
  | number h => exact iff_of_true rfl fun h ↦ by cases h
  | string value => exact iff_of_true rfl fun h ↦ by cases h
  | bigint value => exact iff_of_true (revive_bigint value) fun h ↦ by cases h
  | bytes value => exact iff_of_true (revive_bytes value) fun h ↦ by cases h
  | @array items _ ih =>
    have hitems : revive (Value.array items).replaced = some (.array items) ↔
        reviveItems (replacedItems items) = some items := by
      rw [Value.replaced, revive, Option.map_eq_some_iff]
      simp
    rw [hitems, reviveItems_eq_self]
    constructor
    · rintro hall (_ | ⟨hmem, htag⟩ | _)
      exact (ih _ hmem).mp (hall _ hmem) htag
    · intro htag item hitem
      exact (ih item hitem).mpr fun h ↦ htag (.item hitem h)
  | @object fields hnodup hordered _ ih =>
    have hfields : revive (Value.object fields).replaced = some (.object fields) ↔
        reviveFields (replacedFields fields) = some fields ∧ ¬LooksTagged fields := by
      rw [Value.replaced, revive, Option.bind_eq_some_iff]
      constructor
      · rintro ⟨fields', hrevived, hobject⟩
        obtain ⟨rfl, htag⟩ := reviveObject_eq_object.mp hobject
        exact ⟨hrevived, htag⟩
      · rintro ⟨hrevived, htag⟩
        exact ⟨fields, hrevived, reviveObject_eq_object.mpr ⟨rfl, htag⟩⟩
    rw [hfields, reviveFields_eq_self]
    constructor
    · rintro ⟨hall, hlooks⟩ htag
      cases htag with
      | here h => exact hlooks h
      | field hmem h => exact (ih _ hmem).mp (hall _ hmem) h
    · intro htag
      exact ⟨fun field hfield ↦ (ih field hfield).mpr fun h ↦ htag (.field hfield h), fun h ↦ htag (.here h)⟩

/-- A value comes back as it was if and only if no object in it looks like a tag. -/
theorem private_state_comes_back_iff (v : Value) (h : v.Valid) :
    deserializePrivateStateFromStorage (serializePrivateStateForStorage v) = some v ↔ ¬v.HasTag := by
  rw [deserializePrivateStateFromStorage, serializePrivateStateForStorage, Json.parse_stringify h.replaced,
    Option.bind_some]
  exact revive_replaced_iff h

/-- A negative big integer and some bytes in an array under a name. -/
def sampleState : Value :=
  .object [(js "path", .array [.bigint (-42), .bytes [1, 2, 255], .bool true])]

theorem private_state_comes_back_iff_sample :
    sampleState.Valid ∧ ¬sampleState.HasTag ∧
      (deserializePrivateStateFromStorage (serializePrivateStateForStorage sampleState) = some sampleState ↔
        ¬sampleState.HasTag) := by
  have hvalid : sampleState.Valid := by
    refine .object (List.nodup_singleton _) (List.pairwise_singleton _ _) fun field hfield ↦ ?_
    obtain rfl := List.mem_singleton.mp hfield
    refine .array fun item hitem ↦ ?_
    simp only [List.mem_cons, List.not_mem_nil, or_false] at hitem
    obtain rfl | rfl | rfl := hitem
    · exact .bigint (-42)
    · exact .bytes [1, 2, 255]
    · exact .bool true
  have htag : ¬sampleState.HasTag := by
    rintro (h | _ | ⟨hmem, h⟩)
    · exact absurd h (by decide)
    · obtain rfl := List.mem_singleton.mp hmem
      obtain _ | ⟨hitem, h⟩ | _ := h
      simp only [List.mem_cons, List.not_mem_nil, or_false] at hitem
      obtain rfl | rfl | rfl := hitem <;> cases h
  exact ⟨hvalid, htag, private_state_comes_back_iff sampleState hvalid⟩

/-- An object of the user with a text under a name that the reviver reads. -/
def lookalikeState : Value := .object [(js "$bigint", .string (js "5"))]

/-- The object comes back as a big integer. -/
theorem lookalike_comes_back_otherwise :
    deserializePrivateStateFromStorage (serializePrivateStateForStorage lookalikeState) = some (.bigint 5) ∧
      ¬∀ v : Value, v.Valid →
        deserializePrivateStateFromStorage (serializePrivateStateForStorage v) = some v := by
  have hvalid : lookalikeState.Valid := by
    refine .object (List.nodup_singleton _) (List.pairwise_singleton _ _) fun field hfield ↦ ?_
    obtain rfl := List.mem_singleton.mp hfield
    exact .string (js "5")
  have hrevived : deserializePrivateStateFromStorage (serializePrivateStateForStorage lookalikeState) =
      some (.bigint 5) := by
    rw [deserializePrivateStateFromStorage, serializePrivateStateForStorage, Json.parse_stringify hvalid.replaced,
      Option.bind_some]
    exact revive_bigint 5
  refine ⟨hrevived, fun h ↦ ?_⟩
  have hsame := (h lookalikeState hvalid).symm.trans hrevived
  cases hsame

end MidnightReferendum.PrivateState
