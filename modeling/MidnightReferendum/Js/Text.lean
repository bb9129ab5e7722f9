import Mathlib.Data.List.Basic

/-!
# JavaScript strings

A string is a sequence of UTF-16 code units, also an ill-formed one. Its length counts units, and two
strings are equal when their units are.
-/

namespace MidnightReferendum.Js

/-- The code units of a string. -/
abbrev JsString := List UInt16

instance : LawfulBEq JsString := inferInstanceAs (LawfulBEq (List UInt16))

/-- The code units of one character. -/
def utf16 (c : Char) : List UInt16 :=
  if c.toNat < 0x10000 then [c.toNat.toUInt16]
  else [(0xD800 + (c.toNat - 0x10000) / 0x400).toUInt16, (0xDC00 + (c.toNat - 0x10000) % 0x400).toUInt16]

/-- The string of a literal. -/
def js (s : String) : JsString := s.toList.flatMap utf16

/-- The white space and the line terminators that `trim` removes. -/
def isSpace (u : UInt16) : Bool :=
  (0x09 ≤ u && u ≤ 0x0D) || u == 0x20 || u == 0xA0 || u == 0x1680 || (0x2000 ≤ u && u ≤ 0x200A) ||
    u == 0x2028 || u == 0x2029 || u == 0x202F || u == 0x205F || u == 0x3000 || u == 0xFEFF

/-- `value.trim().length === 0` -/
def isBlank (s : JsString) : Bool := s.all isSpace

/-- `value.trim()` -/
def trimmed (s : JsString) : JsString := ((s.dropWhile isSpace).reverse.dropWhile isSpace).reverse

/-- The first unit of a trimmed text is no white space. -/
theorem isSpace_of_trimmed {text rest : JsString} {u : UInt16} (h : trimmed text = u :: rest) : isSpace u = false := by
  have hprefix : u :: rest <+: text.dropWhile isSpace := by
    have hsuffix := List.dropWhile_suffix isSpace (l := (text.dropWhile isSpace).reverse)
    rw [← List.reverse_prefix, List.reverse_reverse] at hsuffix
    rwa [← h]
  obtain ⟨more, hmore⟩ := hprefix
  have hhead : (text.dropWhile isSpace).head? = some u := by rw [← hmore]; rfl
  have hnot := List.head?_dropWhile_not isSpace text
  rw [hhead] at hnot
  simpa using hnot

/-- A string is truthy unless it is empty, `undefined` is not truthy. -/
def truthy (s : Option JsString) : Bool :=
  match s with
  | none => false
  | some s => !s.isEmpty

/-- A text that is not empty. -/
def present (value : Option JsString) : Option JsString := if truthy value then value else none

theorem present_of_ne {value : Option JsString} (h : value ≠ some []) : present value = value := by
  cases value with
  | none => rfl
  | some text =>
    cases text with
    | nil => exact absurd rfl h
    | cons _ _ => rfl

/-- `/^[a-f0-9]{64}$/u` -/
def isDigest (s : JsString) : Bool :=
  s.length == 64 && s.all fun u ↦ (0x30 ≤ u && u ≤ 0x39) || (0x61 ≤ u && u ≤ 0x66)

/-- `toLowerCase` on the text of hexadecimal digits. -/
def lowerHex (s : JsString) : JsString :=
  s.map fun u ↦ if 0x41 ≤ u && u ≤ 0x5A then u + 0x20 else u

end MidnightReferendum.Js
