import Mathlib.Algebra.Order.Ring.Rat
import Mathlib.Data.List.Sort
import MidnightReferendum.Js.Text

/-!
# JSON values

What `JSON.parse` returns, and the text that `JSON.stringify` writes for a string. A number is a double,
so a literal that is too large is parsed as an infinity.
-/

namespace MidnightReferendum.Js

/-- A parsed number. -/
inductive JsNumber where
  | finite (value : ℚ)
  | infinite (negative : Bool)
  deriving DecidableEq

/-- A parsed value. The fields of an object have distinct names. -/
inductive Json where
  | null
  | bool (value : Bool)
  | number (value : JsNumber)
  | string (value : JsString)
  | array (items : List Json)
  | object (fields : List (JsString × Json))

/-- The fields of a record, that is of a value that is an object and neither `null` nor an array. -/
def Json.record? : Json → Option (List (JsString × Json))
  | .object fields => some fields
  | _ => none

def Json.array? : Json → Option (List Json)
  | .array items => some items
  | _ => none

def Json.string? : Json → Option JsString
  | .string value => some value
  | _ => none

@[simp]
theorem Json.record?_object (fields : List (JsString × Json)) :
    (Json.object fields).record? = some fields := rfl

@[simp]
theorem Json.array?_array (items : List Json) : (Json.array items).array? = some items := rfl

@[simp]
theorem Json.string?_string (value : JsString) : (Json.string value).string? = some value := rfl

/-- The value of a field, if it is not `undefined`. -/
def field? (fields : List (JsString × Json)) (name : JsString) : Option Json :=
  fields.lookup name

/-- `Number.MAX_SAFE_INTEGER` -/
def maxSafeInteger : ℤ := 9007199254740991

/-- The value of a number for which `Number.isSafeInteger` holds. -/
def Json.safeInteger? : Json → Option ℤ
  | .number (.finite value) =>
    if value.den = 1 ∧ |value.num| ≤ maxSafeInteger then some value.num else none
  | _ => none

/-- The value is truthy. -/
def Json.truthy : Json → Bool
  | .null => false
  | .bool value => value
  | .number (.finite value) => value ≠ 0
  | .number (.infinite _) => true
  | .string value => !value.isEmpty
  | .array _ | .object _ => true

/-! ## Text -/

def hexUnit (n : ℕ) : UInt16 := if n < 10 then (0x30 + n).toUInt16 else (0x57 + n).toUInt16

/-- `\\uXXXX` -/
def unicodeEscape (u : UInt16) : JsString :=
  js "\\u" ++ [hexUnit (u.toNat / 0x1000), hexUnit (u.toNat / 0x100 % 0x10),
    hexUnit (u.toNat / 0x10 % 0x10), hexUnit (u.toNat % 0x10)]

/-- One unit that is not half of a surrogate pair. -/
def quoteUnit (u : UInt16) : JsString :=
  if u == 0x22 then js "\\\""
  else if u == 0x5C then js "\\\\"
  else if u == 0x08 then js "\\b"
  else if u == 0x09 then js "\\t"
  else if u == 0x0A then js "\\n"
  else if u == 0x0C then js "\\f"
  else if u == 0x0D then js "\\r"
  else if u < 0x20 || (0xD800 ≤ u && u ≤ 0xDFFF) then unicodeEscape u
  else [u]

def quoteUnits : JsString → JsString
  | u :: v :: rest =>
    if 0xD800 ≤ u && u ≤ 0xDBFF && 0xDC00 ≤ v && v ≤ 0xDFFF then u :: v :: quoteUnits rest
    else quoteUnit u ++ quoteUnits (v :: rest)
  | [u] => quoteUnit u
  | [] => []

/-- `JSON.stringify` of a string -/
def quote (s : JsString) : JsString := [0x22] ++ quoteUnits s ++ [0x22]

/-- The text of an object with its keys in the order of `Object.keys(object).sort()`. -/
def stableObject (fields : List (JsString × JsString)) : JsString :=
  let sorted := fields.insertionSort fun a b ↦ a.1 ≤ b.1
  js "\x7b" ++ (js ",").intercalate (sorted.map fun field ↦ quote field.1 ++ js ":" ++ field.2) ++ js "\x7d"

/-! ## Bytes in hexadecimal -/

/-- The two hexadecimal digits of a byte. -/
def hexByte (byte : UInt8) : JsString := [hexUnit (byte.toNat / 16), hexUnit (byte.toNat % 16)]

/-- The text of the digits of bytes. -/
def bytesToHex (value : List UInt8) : JsString := value.flatMap hexByte

theorem bytesToHex_injective {a b : List UInt8} (h : bytesToHex a = bytesToHex b) : a = b := by
  have hunit : ∀ m n : Fin 16, hexUnit m.val = hexUnit n.val → m = n := by decide
  have hnibble : ∀ {m n : ℕ}, m < 16 → n < 16 → hexUnit m = hexUnit n → m = n := fun hm hn heq ↦
    congrArg Fin.val (hunit ⟨_, hm⟩ ⟨_, hn⟩ heq)
  induction a generalizing b with
  | nil =>
    cases b with
    | nil => rfl
    | cons y b => cases h
  | cons x a ih =>
    cases b with
    | nil => cases h
    | cons y b =>
      obtain ⟨hhigh, hlow⟩ := List.cons.inj h
      obtain ⟨hlow, hrest⟩ := List.cons.inj hlow
      have hx := x.toNat_lt
      have hy := y.toNat_lt
      have h₁ := hnibble (by omega) (by omega) hhigh
      have h₂ := hnibble (by omega) (by omega) hlow
      rw [ih hrest, UInt8.toNat_inj.mp (show x.toNat = y.toNat by omega)]

end MidnightReferendum.Js
