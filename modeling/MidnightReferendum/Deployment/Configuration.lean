import MidnightReferendum.Deployment.Accepted
import MidnightReferendum.Js.Trimming
import MidnightReferendum.Js.WholeNumbers

/-!
# Reading the environment of a manifest

What the parser makes of a variable and of the field of a referendum, with the value that the manifest has for it.
-/

namespace MidnightReferendum.Deployment

open Js Checks Cico RuntimeConfig

/-! ## Texts -/

theorem isSpace_of_isDecimalDigit {u : UInt16} (h : isDecimalDigit u) : isSpace u = false :=
  PrivateState.isSpace_of_startsNumber (by rw [startsNumber, h, Bool.true_or])

theorem isSpace_of_hexValue {u : UInt16} (h : (hexValue? u).isSome) : isSpace u = false := by
  by_contra hspace
  rw [Bool.not_eq_false] at hspace
  simp only [isSpace, Bool.or_eq_true, Bool.and_eq_true, decide_eq_true_eq, beq_iff_eq, UInt16.le_iff_toNat_le,
    ← UInt16.toNat_inj, UInt16.reduceToNat] at hspace
  simp only [hexValue?, Bool.and_eq_true, decide_eq_true_eq, UInt16.le_iff_toNat_le,
    UInt16.reduceToNat] at h
  split at h
  · omega
  · split at h
    · omega
    · split at h
      · omega
      · cases h

/-- A text without white space is trimmed. -/
theorem isTrimmed_of_noSpace {text : JsString} (h : ∀ u ∈ text, isSpace u = false) : IsTrimmed text :=
  Js.trimmed_eq_self h

theorem digits_of_isDecimal {text : JsString} (h : isDecimal text) : AllDigits text ∧ text ≠ [] := by
  rw [isDecimal, Bool.and_eq_true, Bool.not_eq_true', List.isEmpty_eq_false_iff, List.all_eq_true] at h
  exact ⟨h.2, h.1⟩

theorem isTrimmed_of_digits {text : JsString} (h : AllDigits text) : IsTrimmed text :=
  isTrimmed_of_noSpace fun u hu ↦ isSpace_of_isDecimalDigit (h u hu)

theorem isTrimmed_of_isHex32 {text : JsString} (h : isHex32 text) : IsTrimmed text := by
  apply isTrimmed_of_noSpace
  intro u hu
  rw [isHex32, Bool.and_eq_true, List.all_eq_true, beq_iff_eq] at h
  obtain ⟨hlength, hdigits⟩ := h
  split at hlength
  · next hlong =>
    rw [if_pos hlong] at hdigits
    match text, hlong with
    | v :: w :: rest, hlong =>
      rw [withoutHexPrefix] at hlength hdigits
      split at hlength
      · next hmarked =>
        rw [if_pos hmarked] at hdigits
        rw [List.mem_cons, List.mem_cons] at hu
        obtain rfl | rfl | hu := hu
        · rw [hmarked.1]
          rfl
        · obtain hw | hw := hmarked.2 <;> rw [hw] <;> rfl
        · exact isSpace_of_hexValue (hdigits u hu)
      · omega
  · next hshort =>
    rw [if_neg hshort] at hdigits
    exact isSpace_of_hexValue (hdigits u hu)

theorem not_isBlank_of_ne {text : JsString} (h : IsTrimmed text) (hne : text ≠ []) : isBlank text = false := by
  apply Bool.eq_false_iff.mpr
  intro hblank
  exact hne (h.symm.trans (trimmed_eq_nil.mpr hblank))

/-! ## Values -/

theorem unsignedBigInt_eq_ok {text : JsString} {bits n : ℕ} (hblank : isBlank text = false) :
    unsignedBigInt (some (.string text)) bits = .ok n ↔ PrivateState.bigintOf? text = some (n : ℤ) ∧ n < 2 ^ bits := by
  have hnumeral : isNumeral (some (.string text)) = true := by rw [isNumeral, hblank, Bool.not_false]
  rw [unsignedBigInt, if_pos hnumeral, Option.bind_some, bigint?]
  cases PrivateState.bigintOf? text with
  | none => exact ⟨fun h ↦ (by cases h), fun h ↦ (by cases h.1)⟩
  | some parsed =>
    simp only
    rw [Option.some.injEq]
    have hcast : ((2 ^ bits : ℕ) : ℤ) = 2 ^ bits := by push_cast; rfl
    split
    · next hout =>
      refine ⟨fun h ↦ (by cases h), fun ⟨hn, hlt⟩ ↦ ?_⟩
      omega
    · next hin =>
      rw [Except.ok.injEq]
      omega

theorem unsignedNumber_eq_ok {text : JsString} {bits n : ℕ} (hblank : isBlank text = false) :
    unsignedNumber (some (.string text)) bits = .ok n ↔
      PrivateState.bigintOf? text = some (n : ℤ) ∧ n < 2 ^ bits ∧ IsSafe n := by
  rw [unsignedNumber, bind_eq_ok]
  constructor
  · rintro ⟨parsed, hparsed, h⟩
    obtain ⟨hsafe, h⟩ := check_bind_eq_ok.mp h
    obtain rfl : parsed = n := Except.ok.inj h
    obtain ⟨hvalue, hlt⟩ := (unsignedBigInt_eq_ok hblank).mp hparsed
    exact ⟨hvalue, hlt, hsafe⟩
  · rintro ⟨hvalue, hlt, hsafe⟩
    exact ⟨n, (unsignedBigInt_eq_ok hblank).mpr ⟨hvalue, hlt⟩, check_bind_eq_ok.mpr ⟨hsafe, rfl⟩⟩

/-- The number of a decimal text, in the range of its type. -/
theorem unsignedBigInt_decimal {text : JsString} {bits n : ℕ} (h : isDecimal text) :
    unsignedBigInt (some (.string text)) bits = .ok n ↔ numeral text = n ∧ n < 2 ^ bits := by
  obtain ⟨hdigits, hne⟩ := digits_of_isDecimal h
  rw [unsignedBigInt_eq_ok (not_isBlank_of_ne (isTrimmed_of_digits hdigits) hne),
    PrivateState.bigintOf?_of_digits hdigits hne, Option.some.injEq, Nat.cast_inj]

theorem bytes32_eq_ok {text : JsString} {label : String} {bytes : Bytes32} :
    bytes32 (some (.string text)) label = .ok bytes ↔ isHex32 text ∧ hexBytes32 text = bytes := by
  rw [bytes32]
  split
  · next h => rw [Except.ok.injEq, and_iff_right h]
  · next h => exact ⟨fun h' ↦ (by cases h'), fun h' ↦ absurd h'.1 h⟩

theorem paddedBytes32_eq_ok {text : JsString} {bytes : Bytes32} :
    paddedBytes32 text = .ok bytes ↔ padBytes32 text = some bytes := by
  rw [paddedBytes32]
  cases padBytes32 text <;> simp

theorem nonEmptyString_eq_ok {text value : JsString} {label : String} :
    nonEmptyString (some (.string text)) label = .ok value ↔ trimmed text = value ∧ value ≠ [] := by
  rw [nonEmptyString]
  split
  · next h => exact ⟨fun h' ↦ (by cases h'), fun h' ↦ absurd (h'.1.symm.trans h) h'.2⟩
  · next h =>
    rw [Except.ok.injEq]
    exact ⟨fun h' ↦ ⟨h', h' ▸ h⟩, fun h' ↦ h'.1⟩

/-- As the padding of its text, white space at an end would be among its bytes. -/
theorem isTrimmed_of_padBytes32 {text : JsString} {bytes : Bytes32} (h : padBytes32 text = some bytes)
    (htrimmed : padBytes32 (trimmed text) = some bytes) : IsTrimmed text := by
  have hcount : ∀ {text : JsString}, padBytes32 text = some bytes → nonzeros bytes.toList = nonzeros (encodeUtf8 text) := by
    intro text h
    obtain ⟨count, hbytes⟩ := Catalog.padBytes32_eq_some.mp h
    rw [hbytes, Catalog.encodeUtf8_append_nuls, nonzeros_append, nonzeros_replicate, add_zero]
  exact trimmed_eq_self_of_nonzeros ((hcount htrimmed).symm.trans (hcount h))

/-! ## Variables -/

section Variables

variable {env : RuntimeEnv} {key : String} {value : JsString} (hvalue : env (js key) = some value)

include hvalue

/-- A variable that is there gives its text without the white space around it. -/
theorem required_eq_ok {text : JsString} : required env key = .ok text ↔ trimmed value = text ∧ text ≠ [] := by
  rw [required, hvalue, Option.map_some]
  cases trimmed value with
  | nil => exact ⟨fun h ↦ (by cases h), fun h ↦ absurd h.1.symm h.2⟩
  | cons u rest =>
    rw [Except.ok.injEq]
    exact ⟨fun h ↦ ⟨h, h ▸ List.cons_ne_nil u rest⟩, fun h ↦ h.1⟩

theorem requiredNumber_eq_ok {bits n : ℕ} : requiredNumber env key bits = .ok n ↔ trimmed value ≠ [] ∧
    PrivateState.bigintOf? (trimmed value) = some (n : ℤ) ∧ n < 2 ^ bits ∧ IsSafe n := by
  rw [requiredNumber, bind_eq_ok]
  constructor
  · rintro ⟨text, htext, h⟩
    obtain ⟨rfl, hne⟩ := (required_eq_ok hvalue).mp htext
    exact ⟨hne, (unsignedNumber_eq_ok (not_isBlank_of_ne (trimmed_trimmed value) hne)).mp h⟩
  · rintro ⟨hne, h⟩
    exact ⟨trimmed value, (required_eq_ok hvalue).mpr ⟨rfl, hne⟩,
      (unsignedNumber_eq_ok (not_isBlank_of_ne (trimmed_trimmed value) hne)).mpr h⟩

theorem requiredBytes32_eq_ok (hhex : isHex32 value) {label : String} {bytes : Bytes32} :
    requiredBytes32 env key label = .ok bytes ↔ hexBytes32 value = bytes := by
  have htrimmed := isTrimmed_of_isHex32 hhex
  have hne : value ≠ [] := by
    rintro rfl
    contradiction
  rw [requiredBytes32, (required_eq_ok hvalue).mpr ⟨htrimmed, hne⟩]
  exact bytes32_eq_ok.trans (and_iff_right hhex)

/-- The root of a frozen registry. The open one has the empty text, which is refused. -/
theorem requiredRoot_eq_ok {root : Option JsString} (hroot : value = root.getD []) (hdecimal : ∀ text ∈ root, isDecimal text)
    {n : ℕ} : requiredRoot env key = .ok n ↔ ∃ text, root = some text ∧ numeral text = n ∧ n < 2 ^ 256 := by
  cases root with
  | none =>
    have hrequired : ∀ text, required env key ≠ .ok text := fun text h ↦ by
      obtain ⟨rfl, hne⟩ := (required_eq_ok hvalue).mp h
      rw [hroot] at hne
      exact hne rfl
    rw [requiredRoot, bind_eq_ok]
    exact ⟨fun ⟨text, htext, _⟩ ↦ absurd htext (hrequired text), fun ⟨_, h, _⟩ ↦ (by cases h)⟩
  | some text =>
    obtain rfl : value = text := hroot
    obtain ⟨hdigits, hne⟩ := digits_of_isDecimal (hdecimal value rfl)
    rw [requiredRoot, (required_eq_ok hvalue).mpr ⟨isTrimmed_of_digits hdigits, hne⟩]
    refine (unsignedBigInt_decimal (hdecimal value rfl)).trans ⟨fun h ↦ ⟨value, rfl, h⟩, fun ⟨text, htext, h⟩ ↦ ?_⟩
    rwa [Option.some.inj htext]

end Variables

end MidnightReferendum.Deployment
