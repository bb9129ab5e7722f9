import MidnightReferendum.Js.Json

/-!
# Dates and URIs

`Date.prototype.toISOString` and `encodeURIComponent`.
-/

namespace MidnightReferendum.Js

/-! ## Dates -/

/-- The last digits of a number. -/
def digits : ℕ → ℕ → JsString
  | 0, _ => []
  | width + 1, n => digits width (n / 10) ++ [(0x30 + n % 10).toUInt16]

/-- The year, the month and the day of a number of days since 1970-01-01. The years of the calculation
begin in March, in eras of 400 years. -/
def civil (days : ℤ) : ℤ × ℕ × ℕ :=
  let z := days + 719468
  let era := z / 146097
  let dayOfEra := (z % 146097).toNat
  let yearOfEra := (dayOfEra - dayOfEra / 1460 + dayOfEra / 36524 - dayOfEra / 146096) / 365
  let dayOfYear := dayOfEra - (365 * yearOfEra + yearOfEra / 4 - yearOfEra / 100)
  let shifted := (5 * dayOfYear + 2) / 153
  let day := dayOfYear - (153 * shifted + 2) / 5 + 1
  let month := if shifted < 10 then shifted + 3 else shifted - 9
  let year := yearOfEra + era * 400
  (if month ≤ 2 then year + 1 else year, month, day)

/-- A year outside 0 to 9999 has a sign and six digits. -/
def isoYear (year : ℤ) : JsString :=
  if 0 ≤ year ∧ year ≤ 9999 then digits 4 year.toNat
  else (if year < 0 then js "-" else js "+") ++ digits 6 year.natAbs

/-- `new Date(milliseconds).toISOString()`, which throws for an invalid date. -/
def toISOString (milliseconds : ℤ) : Option JsString :=
  if 8640000000000000 < |milliseconds| then none
  else
    let (year, month, day) := civil (milliseconds / 86400000)
    let time := (milliseconds % 86400000).toNat
    some (isoYear year ++ js "-" ++ digits 2 month ++ js "-" ++ digits 2 day ++ js "T" ++
      digits 2 (time / 3600000) ++ js ":" ++ digits 2 (time / 60000 % 60) ++ js ":" ++
      digits 2 (time / 1000 % 60) ++ js "." ++ digits 3 (time % 1000) ++ js "Z")

example : toISOString 1700000000123 = some (js "2023-11-14T22:13:20.123Z") := by decide +kernel

/-! ## URIs -/

def upperHexUnit (n : ℕ) : UInt16 := if n < 10 then (0x30 + n).toUInt16 else (0x37 + n).toUInt16

/-- `%XX` -/
def percent (byte : ℕ) : JsString := js "%" ++ [upperHexUnit (byte / 0x10), upperHexUnit (byte % 0x10)]

/-- A unit that `encodeURIComponent` does not escape. -/
def isUnreserved (u : UInt16) : Bool :=
  (0x30 ≤ u && u ≤ 0x39) || (0x41 ≤ u && u ≤ 0x5A) || (0x61 ≤ u && u ≤ 0x7A) || (js "-_.!~*'()").contains u

/-- The bytes of a code point in UTF-8. -/
def utf8 (c : ℕ) : List ℕ :=
  if c < 0x80 then [c]
  else if c < 0x800 then [0xC0 + c / 0x40, 0x80 + c % 0x40]
  else if c < 0x10000 then [0xE0 + c / 0x1000, 0x80 + c / 0x40 % 0x40, 0x80 + c % 0x40]
  else [0xF0 + c / 0x40000, 0x80 + c / 0x1000 % 0x40, 0x80 + c / 0x40 % 0x40, 0x80 + c % 0x40]

/-- `encodeURIComponent`, which throws for a lone surrogate. -/
def encodeURIComponent : JsString → Option JsString
  | [] => some []
  | u :: rest =>
    if isUnreserved u then (encodeURIComponent rest).map fun text ↦ u :: text
    else if 0xD800 ≤ u && u ≤ 0xDFFF then
      match rest with
      | [] => none
      | v :: rest =>
        if u ≤ 0xDBFF && 0xDC00 ≤ v && v ≤ 0xDFFF then
          (encodeURIComponent rest).map fun text ↦
            (utf8 (0x10000 + (u.toNat - 0xD800) * 0x400 + (v.toNat - 0xDC00))).flatMap percent ++ text
        else none
    else (encodeURIComponent rest).map fun text ↦ (utf8 u.toNat).flatMap percent ++ text

example : encodeURIComponent (js "a/é😀") = some (js "a%2F%C3%A9%F0%9F%98%80") := by decide +kernel

end MidnightReferendum.Js
