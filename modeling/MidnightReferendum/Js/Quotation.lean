import MidnightReferendum.Js.Json

/-!
# Reading a quoted string

`JSON.parse` on a string, which reads back what `JSON.stringify` writes for any units, also for halves of a
surrogate pair.
-/

namespace MidnightReferendum.Js

/-- The value of a hexadecimal digit of either case. -/
def hexValue? (u : UInt16) : Option ℕ :=
  if 0x30 ≤ u && u ≤ 0x39 then some (u.toNat - 0x30)
  else if 0x41 ≤ u && u ≤ 0x46 then some (u.toNat - 0x37)
  else if 0x61 ≤ u && u ≤ 0x66 then some (u.toNat - 0x57)
  else none

/-- The unit of four hexadecimal digits. -/
def hexUnit? (a b c d : UInt16) : Option UInt16 := do
  let a ← hexValue? a
  let b ← hexValue? b
  let c ← hexValue? c
  let d ← hexValue? d
  return (a * 0x1000 + b * 0x100 + c * 0x10 + d).toUInt16

/-- The unit that a backslash and another unit stand for. -/
def escaped? (u : UInt16) : Option UInt16 :=
  if u == 0x22 || u == 0x5C || u == 0x2F then some u
  else if u == 0x62 then some 0x08
  else if u == 0x66 then some 0x0C
  else if u == 0x6E then some 0x0A
  else if u == 0x72 then some 0x0D
  else if u == 0x74 then some 0x09
  else none

/-- A unit before the rest of a string. -/
def addUnit (u : UInt16) (read : Option (JsString × JsString)) : Option (JsString × JsString) :=
  read.map fun r ↦ (u :: r.1, r.2)

/-- The string up to the closing quotation mark, and the text after it. -/
def readString : JsString → Option (JsString × JsString)
  | [] => none
  | u :: rest =>
    if u == 0x22 then some ([], rest)
    else if u < 0x20 then none
    else if u == 0x5C then
      match rest with
      | [] => none
      | e :: rest =>
        if e == 0x75 then
          match rest with
          | a :: b :: c :: d :: rest => (hexUnit? a b c d).bind fun u ↦ addUnit u (readString rest)
          | _ => none
        else (escaped? e).bind fun u ↦ addUnit u (readString rest)
    else addUnit u (readString rest)

example : readString (js "a\\u00e9\\n\"]") = some (js "aé\n", js "]") := by decide +kernel

/-! ## Round trip -/

theorem hexValue?_hexUnit {n : ℕ} (h : n < 16) : hexValue? (hexUnit n) = some n := by
  have hall : ∀ n : Fin 16, hexValue? (hexUnit n) = some n.val := by decide
  exact hall ⟨n, h⟩

theorem readString_unicodeEscape (u : UInt16) (rest : JsString) :
    readString (unicodeEscape u ++ rest) = addUnit u (readString rest) := by
  have hlt : u.toNat < 0x10000 := u.toNat_lt
  have hunit : hexUnit? (hexUnit (u.toNat / 0x1000)) (hexUnit (u.toNat / 0x100 % 0x10))
      (hexUnit (u.toNat / 0x10 % 0x10)) (hexUnit (u.toNat % 0x10)) = some u := by
    rw [hexUnit?, hexValue?_hexUnit (by omega), hexValue?_hexUnit (by omega), hexValue?_hexUnit (by omega),
      hexValue?_hexUnit (by omega)]
    have hsum : u.toNat / 0x1000 * 0x1000 + u.toNat / 0x100 % 0x10 * 0x100 + u.toNat / 0x10 % 0x10 * 0x10 +
        u.toNat % 0x10 = u.toNat := by
      omega
    change some (_ + _ + _ + _ : ℕ).toUInt16 = some u
    rw [hsum]
    exact congrArg some UInt16.ofNat_toNat
  have hescape : unicodeEscape u ++ rest = 0x5C :: 0x75 :: hexUnit (u.toNat / 0x1000) ::
      hexUnit (u.toNat / 0x100 % 0x10) :: hexUnit (u.toNat / 0x10 % 0x10) :: hexUnit (u.toNat % 0x10) ::
      rest := rfl
  rw [hescape, readString]
  simp only [hunit, Option.bind_some]
  rfl

theorem readString_mark (rest : JsString) : readString (0x22 :: rest) = some ([], rest) := by
  simp [readString.eq_def]

theorem readString_escape {e u : UInt16} (h : ¬(e == 0x75) = true) (hu : escaped? e = some u)
    (rest : JsString) : readString ([0x5C, e] ++ rest) = addUnit u (readString rest) := by
  rw [List.cons_append, List.singleton_append, readString.eq_def]
  simp [h, hu]

/-- A unit is read back, whatever comes after it. -/
theorem readString_quoteUnit (u : UInt16) (rest : JsString) :
    readString (quoteUnit u ++ rest) = addUnit u (readString rest) := by
  unfold quoteUnit
  split
  · next h =>
    rw [beq_iff_eq.mp h, show js "\\\"" = [0x5C, 0x22] by decide]
    exact readString_escape (by decide) (by decide) rest
  split
  · next h =>
    rw [beq_iff_eq.mp h, show js "\\\\" = [0x5C, 0x5C] by decide]
    exact readString_escape (by decide) (by decide) rest
  split
  · next h =>
    rw [beq_iff_eq.mp h, show js "\\b" = [0x5C, 0x62] by decide]
    exact readString_escape (by decide) (by decide) rest
  split
  · next h =>
    rw [beq_iff_eq.mp h, show js "\\t" = [0x5C, 0x74] by decide]
    exact readString_escape (by decide) (by decide) rest
  split
  · next h =>
    rw [beq_iff_eq.mp h, show js "\\n" = [0x5C, 0x6E] by decide]
    exact readString_escape (by decide) (by decide) rest
  split
  · next h =>
    rw [beq_iff_eq.mp h, show js "\\f" = [0x5C, 0x66] by decide]
    exact readString_escape (by decide) (by decide) rest
  split
  · next h =>
    rw [beq_iff_eq.mp h, show js "\\r" = [0x5C, 0x72] by decide]
    exact readString_escape (by decide) (by decide) rest
  split
  · exact readString_unicodeEscape u rest
  · next hquote hslash _ _ _ _ _ hplain =>
    simp only [Bool.or_eq_true, decide_eq_true_eq, not_or] at hplain
    rw [List.singleton_append, readString.eq_def]
    simp only [if_neg hquote, if_neg hplain.1, if_neg hslash]

theorem readString_cons {u : UInt16} (h : 0x5D ≤ u) (rest : JsString) :
    readString (u :: rest) = addUnit u (readString rest) := by
  have hle : 0x5D ≤ u.toNat := h
  have hquote : ¬(u == 0x22) = true := fun heq ↦ by
    rw [beq_iff_eq.mp heq] at hle
    contradiction
  have hcontrol : ¬u < 0x20 := fun hlt ↦ by
    have : u.toNat < 0x20 := hlt
    omega
  have hslash : ¬(u == 0x5C) = true := fun heq ↦ by
    rw [beq_iff_eq.mp heq] at hle
    contradiction
  rw [readString.eq_def]
  simp only [if_neg hquote, if_neg hcontrol, if_neg hslash]

theorem readString_quoteUnits (s rest : JsString) :
    readString (quoteUnits s ++ 0x22 :: rest) = some (s, rest) := by
  induction s using quoteUnits.induct with
  | case1 u v s hpair ih =>
    simp only [Bool.and_eq_true, decide_eq_true_eq] at hpair
    obtain ⟨⟨⟨hu, _⟩, hv⟩, _⟩ := hpair
    rw [quoteUnits, if_pos (by simp_all), List.cons_append, List.cons_append,
      readString_cons (UInt16.le_trans (by decide) hu), readString_cons (UInt16.le_trans (by decide) hv), ih]
    rfl
  | case2 u v s hpair ih =>
    rw [quoteUnits, if_neg hpair, List.append_assoc, readString_quoteUnit, ih]
    rfl
  | case3 u =>
    rw [quoteUnits, readString_quoteUnit, readString_mark]
    rfl
  | case4 => exact readString_mark rest

/-- A quoted string ends at its closing quotation mark. -/
theorem quote_append_injective {a b c d : JsString} (h : quote a ++ c = quote b ++ d) : a = b ∧ c = d := by
  have hread : ∀ s rest : JsString, (quote s ++ rest).tail = quoteUnits s ++ 0x22 :: rest := by
    intro s rest
    simp [quote]
  have hstrings := congrArg (fun text : JsString ↦ readString text.tail) h
  simp only [hread, readString_quoteUnits] at hstrings
  exact Prod.mk.inj (Option.some.inj hstrings)

end MidnightReferendum.Js
