import MidnightReferendum.Js.JsonText
import MidnightReferendum.Js.Library

/-!
# UTF-8

The bytes of a string, in which half of a surrogate pair is replaced by U+FFFD, and the string of some bytes.
A JSON text has no half of a pair, so it is determined by its bytes.
-/

namespace MidnightReferendum.Js

/-! ## Encoding -/

def isHighSurrogate (u : UInt16) : Bool := 0xD800 ≤ u && u ≤ 0xDBFF

def isLowSurrogate (u : UInt16) : Bool := 0xDC00 ≤ u && u ≤ 0xDFFF

def isSurrogate (u : UInt16) : Bool := 0xD800 ≤ u && u ≤ 0xDFFF

/-- The code point of a surrogate pair. -/
def pairCode (u v : UInt16) : ℕ := 0x10000 + (u.toNat - 0xD800) * 0x400 + (v.toNat - 0xDC00)

def utf8Bytes (c : ℕ) : List UInt8 := (utf8 c).map Nat.toUInt8

/-- `Buffer.from(text)`, and `new TextEncoder().encode(text)` -/
def encodeUtf8 : JsString → List UInt8
  | u :: v :: rest =>
    if isHighSurrogate u && isLowSurrogate v then utf8Bytes (pairCode u v) ++ encodeUtf8 rest
    else utf8Bytes (if isSurrogate u then 0xFFFD else u.toNat) ++ encodeUtf8 (v :: rest)
  | [u] => utf8Bytes (if isSurrogate u then 0xFFFD else u.toNat)
  | [] => []

/-! ## Decoding -/

/-- The decoder within a character: the number of bytes that are needed, the range of the next one, and the
bits so far. -/
structure Utf8State where
  needed : ℕ
  lower : ℕ
  upper : ℕ
  code : ℕ

def Utf8State.idle : Utf8State := ⟨0, 0x80, 0xBF, 0⟩

/-- The first byte of a character. -/
def startByte (b : ℕ) : JsString × Utf8State :=
  if b < 0x80 then ([b.toUInt16], .idle)
  else if 0xC2 ≤ b ∧ b ≤ 0xDF then ([], ⟨1, 0x80, 0xBF, b % 0x20⟩)
  else if 0xE0 ≤ b ∧ b ≤ 0xEF then
    ([], ⟨2, if b = 0xE0 then 0xA0 else 0x80, if b = 0xED then 0x9F else 0xBF, b % 0x10⟩)
  else if 0xF0 ≤ b ∧ b ≤ 0xF4 then
    ([], ⟨3, if b = 0xF0 then 0x90 else 0x80, if b = 0xF4 then 0x8F else 0xBF, b % 0x08⟩)
  else ([0xFFFD], .idle)

/-- The units of a code point. -/
def unitsOf (c : ℕ) : JsString :=
  if c < 0x10000 then [c.toUInt16]
  else [(0xD800 + (c - 0x10000) / 0x400).toUInt16, (0xDC00 + (c - 0x10000) % 0x400).toUInt16]

def decodeFrom (state : Utf8State) : List UInt8 → JsString
  | [] => if state.needed = 0 then [] else [0xFFFD]
  | b :: rest =>
    if state.needed = 0 then (startByte b.toNat).1 ++ decodeFrom (startByte b.toNat).2 rest
    else if b.toNat < state.lower ∨ state.upper < b.toNat then
      0xFFFD :: ((startByte b.toNat).1 ++ decodeFrom (startByte b.toNat).2 rest)
    else if state.needed = 1 then
      unitsOf (state.code * 0x40 + b.toNat % 0x40) ++ decodeFrom .idle rest
    else decodeFrom ⟨state.needed - 1, 0x80, 0xBF, state.code * 0x40 + b.toNat % 0x40⟩ rest

/-- `Buffer.from(bytes).toString('utf8')` -/
def decodeUtf8 (bytes : List UInt8) : JsString := decodeFrom .idle bytes

example : decodeUtf8 [0x61, 0xC3, 0xA9, 0xE2, 0x82, 0x41, 0xF0, 0x9F, 0x98, 0x80] = js "aé\uFFFDA😀" := by
  decide +kernel

/-! ## Round trip -/

section Decoding

variable {n : ℕ} (hn : n < 0x100) (rest : List UInt8)

include hn

theorem toNat_toUInt8 : n.toUInt8.toNat = n := by
  rw [Nat.toUInt8, UInt8.toNat_ofNat', Nat.mod_eq_of_lt hn]

theorem decodeFrom_idle :
    decodeFrom .idle (n.toUInt8 :: rest) = (startByte n).1 ++ decodeFrom (startByte n).2 rest := by
  rw [decodeFrom, if_pos (show Utf8State.idle.needed = 0 from rfl), toNat_toUInt8 hn]

theorem decodeFrom_next {needed lower upper code : ℕ} (hlower : lower ≤ n) (hupper : n ≤ upper) :
    decodeFrom ⟨needed + 2, lower, upper, code⟩ (n.toUInt8 :: rest) =
      decodeFrom ⟨needed + 1, 0x80, 0xBF, code * 0x40 + n % 0x40⟩ rest := by
  rw [decodeFrom, toNat_toUInt8 hn]
  simp only
  rw [if_neg (by omega), if_neg (by omega), if_neg (by omega)]
  rfl

theorem decodeFrom_last {lower upper code : ℕ} (hlower : lower ≤ n) (hupper : n ≤ upper) :
    decodeFrom ⟨1, lower, upper, code⟩ (n.toUInt8 :: rest) =
      unitsOf (code * 0x40 + n % 0x40) ++ decodeFrom .idle rest := by
  rw [decodeFrom, toNat_toUInt8 hn]
  simp only
  rw [if_neg (by omega), if_neg (by omega), if_pos trivial]

end Decoding

/-- A character is decoded before any bytes. -/
theorem decodeFrom_utf8Bytes {c : ℕ} (hc : c < 0x110000) (hsurrogate : c < 0xD800 ∨ 0xDFFF < c)
    (rest : List UInt8) : decodeFrom .idle (utf8Bytes c ++ rest) = unitsOf c ++ decodeFrom .idle rest := by
  unfold utf8Bytes utf8
  split
  · next h =>
    rw [List.map_singleton, List.singleton_append, decodeFrom_idle (by omega), startByte, if_pos h, unitsOf,
      if_pos (by omega)]
  split
  · next h =>
    simp only [List.map_cons, List.map_nil, List.cons_append, List.nil_append]
    rw [decodeFrom_idle (by omega), startByte, if_neg (by omega), if_pos (by omega), List.nil_append]
    simp only
    rw [decodeFrom_last (by omega) _ (by omega) (by omega)]
    congr 2
    omega
  split
  · next h =>
    simp only [List.map_cons, List.map_nil, List.cons_append, List.nil_append]
    rw [decodeFrom_idle (by omega), startByte, if_neg (by omega), if_neg (by omega), if_pos (by omega),
      List.nil_append]
    simp only
    rw [decodeFrom_next (by omega) _ (by split <;> omega) (by split <;> omega),
      decodeFrom_last (by omega) _ (by omega) (by omega)]
    congr 2
    omega
  · next h =>
    simp only [List.map_cons, List.map_nil, List.cons_append, List.nil_append]
    rw [decodeFrom_idle (by omega), startByte, if_neg (by omega), if_neg (by omega), if_neg (by omega),
      if_pos (by omega), List.nil_append]
    simp only
    rw [decodeFrom_next (by omega) _ (by split <;> omega) (by split <;> omega),
      decodeFrom_next (by omega) _ (by omega) (by omega), decodeFrom_last (by omega) _ (by omega) (by omega)]
    congr 2
    omega

/-- `text.isWellFormed()`: no surrogate stands alone. -/
def isWellFormed : JsString → Bool
  | u :: v :: rest =>
    if isHighSurrogate u && isLowSurrogate v then isWellFormed rest
    else !isSurrogate u && isWellFormed (v :: rest)
  | [u] => !isSurrogate u
  | [] => true

theorem unitsOf_pairCode {u v : UInt16} (h : isHighSurrogate u && isLowSurrogate v) :
    unitsOf (pairCode u v) = [u, v] := by
  simp only [isHighSurrogate, isLowSurrogate, Bool.and_eq_true, decide_eq_true_eq] at h
  obtain ⟨⟨hu, hu'⟩, hv, hv'⟩ := h
  have h₁ : 0xD800 ≤ u.toNat := hu
  have h₂ : u.toNat ≤ 0xDBFF := hu'
  have h₃ : 0xDC00 ≤ v.toNat := hv
  have h₄ : v.toNat ≤ 0xDFFF := hv'
  have hunit : ∀ (w : UInt16) (n : ℕ), n = w.toNat → n.toUInt16 = w := by
    rintro w _ rfl
    exact UInt16.ofNat_toNat
  unfold pairCode
  rw [unitsOf, if_neg (by omega), hunit u _ (by omega), hunit v _ (by omega)]

theorem not_surrogate {u : UInt16} (h : isSurrogate u = false) : u.toNat < 0xD800 ∨ 0xDFFF < u.toNat := by
  simp only [isSurrogate, Bool.and_eq_false_iff, decide_eq_false_iff_not, UInt16.not_le] at h
  exact h

theorem unitsOf_toNat (u : UInt16) : unitsOf u.toNat = [u] := by
  rw [unitsOf, if_pos u.toNat_lt]
  exact congrArg (fun v ↦ [v]) UInt16.ofNat_toNat

/-- A well-formed string is decoded from its bytes. -/
theorem decodeUtf8_encodeUtf8 {text : JsString} (h : isWellFormed text) : decodeUtf8 (encodeUtf8 text) = text := by
  unfold decodeUtf8
  induction text using encodeUtf8.induct with
  | case1 u v rest hpair ih =>
    rw [isWellFormed, if_pos hpair] at h
    have hcode : pairCode u v < 0x110000 ∧ 0xDFFF < pairCode u v := by
      simp only [isHighSurrogate, isLowSurrogate, Bool.and_eq_true, decide_eq_true_eq] at hpair
      have h₁ : u.toNat ≤ 0xDBFF := hpair.1.2
      have h₂ : v.toNat ≤ 0xDFFF := hpair.2.2
      unfold pairCode
      omega
    rw [encodeUtf8, if_pos hpair, decodeFrom_utf8Bytes hcode.1 (Or.inr hcode.2), unitsOf_pairCode hpair, ih h]
    rfl
  | case2 u v rest hpair ih =>
    rw [isWellFormed, if_neg hpair, Bool.and_eq_true, Bool.not_eq_true'] at h
    have hlt := u.toNat_lt
    rw [encodeUtf8, if_neg hpair, if_neg (by rw [h.1]; decide), decodeFrom_utf8Bytes (by omega) (not_surrogate h.1),
      unitsOf_toNat, ih h.2]
    rfl
  | case3 u =>
    rw [isWellFormed, Bool.not_eq_true'] at h
    have hlt := u.toNat_lt
    have hdecode := decodeFrom_utf8Bytes (by omega) (not_surrogate h) []
    rw [List.append_nil] at hdecode
    rw [encodeUtf8, if_neg (by rw [h]; decide), hdecode, unitsOf_toNat]
    rfl
  | case4 => rfl

/-- A well-formed string is determined by its bytes. -/
theorem encodeUtf8_injective {a b : JsString} (ha : isWellFormed a) (hb : isWellFormed b)
    (h : encodeUtf8 a = encodeUtf8 b) : a = b := by
  rw [← decodeUtf8_encodeUtf8 ha, ← decodeUtf8_encodeUtf8 hb, h]

/-! ## Concatenation -/

theorem not_highSurrogate {u : UInt16} (h : isSurrogate u = false) : isHighSurrogate u = false := by
  have hu := not_surrogate h
  rw [isHighSurrogate, Bool.and_eq_false_iff, decide_eq_false_iff_not, decide_eq_false_iff_not,
    UInt16.le_iff_toNat_le, UInt16.le_iff_toNat_le]
  have h₁ : (0xD800 : UInt16).toNat = 0xD800 := rfl
  have h₂ : (0xDBFF : UInt16).toNat = 0xDBFF := rfl
  omega

theorem isWellFormed_append {a b : JsString} (ha : isWellFormed a) (hb : isWellFormed b) :
    isWellFormed (a ++ b) := by
  induction a using isWellFormed.induct with
  | case1 u v rest hpair ih =>
    rw [isWellFormed, if_pos hpair] at ha
    rw [List.cons_append, List.cons_append, isWellFormed, if_pos hpair]
    exact ih ha
  | case2 u v rest hpair ih =>
    rw [isWellFormed, if_neg hpair, Bool.and_eq_true] at ha
    rw [List.cons_append, List.cons_append, isWellFormed, if_neg hpair, Bool.and_eq_true]
    exact ⟨ha.1, ih ha.2⟩
  | case3 u =>
    rw [isWellFormed, Bool.not_eq_true'] at ha
    cases b with
    | nil =>
      rw [List.append_nil, isWellFormed, ha]
      rfl
    | cons v b =>
      rw [List.singleton_append, isWellFormed, not_highSurrogate ha, Bool.false_and, if_neg Bool.false_ne_true, ha]
      exact hb
  | case4 => exact hb

/-- The bytes of a well-formed string come before those of any other. -/
theorem encodeUtf8_append {a : JsString} (ha : isWellFormed a) (b : JsString) :
    encodeUtf8 (a ++ b) = encodeUtf8 a ++ encodeUtf8 b := by
  induction a using isWellFormed.induct with
  | case1 u v rest hpair ih =>
    rw [isWellFormed, if_pos hpair] at ha
    rw [List.cons_append, List.cons_append, encodeUtf8, if_pos hpair, encodeUtf8, if_pos hpair, ih ha,
      List.append_assoc]
  | case2 u v rest hpair ih =>
    rw [isWellFormed, if_neg hpair, Bool.and_eq_true] at ha
    rw [List.cons_append, List.cons_append, encodeUtf8, if_neg hpair, encodeUtf8, if_neg hpair,
      ← List.cons_append, ih ha.2, List.append_assoc]
  | case3 u =>
    rw [isWellFormed, Bool.not_eq_true'] at ha
    cases b with
    | nil => exact (List.append_nil _).symm
    | cons v b =>
      rw [List.singleton_append, encodeUtf8, not_highSurrogate ha, Bool.false_and, if_neg Bool.false_ne_true, encodeUtf8]
  | case4 => rfl

/-- A text that does not begin within a character has its own bytes after any string. -/
theorem encodeUtf8_append_of_head (a : JsString) {b : JsString} (hb : ∀ v ∈ b.head?, isLowSurrogate v = false) :
    encodeUtf8 (a ++ b) = encodeUtf8 a ++ encodeUtf8 b := by
  induction a using encodeUtf8.induct with
  | case1 u v rest hpair ih =>
    rw [List.cons_append, List.cons_append, encodeUtf8, if_pos hpair, encodeUtf8, if_pos hpair, ih, List.append_assoc]
  | case2 u v rest hpair ih =>
    rw [List.cons_append, List.cons_append, encodeUtf8, if_neg hpair, encodeUtf8, if_neg hpair,
      ← List.cons_append, ih, List.append_assoc]
  | case3 u =>
    cases b with
    | nil => exact (List.append_nil _).symm
    | cons v b =>
      have hlow : isLowSurrogate v = false := hb v rfl
      rw [List.singleton_append, encodeUtf8, hlow, Bool.and_false, if_neg Bool.false_ne_true, encodeUtf8]
  | case4 => rfl

/-- A text without surrogates is well formed. -/
theorem isWellFormed_of_plain {text : JsString} (h : ∀ u ∈ text, isSurrogate u = false) : isWellFormed text := by
  induction text with
  | nil => rfl
  | cons u text ih =>
    have hone : isWellFormed [u] := by
      rw [isWellFormed, h u List.mem_cons_self]
      rfl
    exact isWellFormed_append hone (ih fun v hv ↦ h v (List.mem_cons_of_mem u hv))

/-! ## Lone surrogates -/

/-- `text.toWellFormed()`, which writes U+FFFD for a surrogate that stands alone. -/
def toWellFormed : JsString → JsString
  | u :: v :: rest =>
    if isHighSurrogate u && isLowSurrogate v then u :: v :: toWellFormed rest
    else (if isSurrogate u then 0xFFFD else u) :: toWellFormed (v :: rest)
  | [u] => [if isSurrogate u then 0xFFFD else u]
  | [] => []

theorem isSurrogate_replaced (u : UInt16) : isSurrogate (if isSurrogate u then 0xFFFD else u) = false := by
  split
  · rfl
  · next h => exact Bool.not_eq_true _ ▸ h

theorem toNat_replaced (u : UInt16) :
    (if isSurrogate u then 0xFFFD else u : UInt16).toNat = if isSurrogate u then 0xFFFD else u.toNat := by
  split <;> rfl

theorem isWellFormed_singleton {u : UInt16} (h : isSurrogate u = false) : isWellFormed [u] = true := by
  rw [isWellFormed, h]
  rfl

theorem isWellFormed_toWellFormed (text : JsString) : isWellFormed (toWellFormed text) = true := by
  induction text using toWellFormed.induct with
  | case1 u v rest hpair ih =>
    rw [toWellFormed, if_pos hpair, isWellFormed, if_pos hpair]
    exact ih
  | case2 u v rest hpair ih =>
    rw [toWellFormed, if_neg hpair]
    exact isWellFormed_append (isWellFormed_singleton (isSurrogate_replaced u)) ih
  | case3 u => exact isWellFormed_singleton (isSurrogate_replaced u)
  | case4 => rfl

theorem encodeUtf8_singleton {u : UInt16} (h : isSurrogate u = false) : encodeUtf8 [u] = utf8Bytes u.toNat := by
  rw [encodeUtf8, h]
  rfl

/-- The bytes of a text are those of the text made well formed. -/
theorem encodeUtf8_toWellFormed (text : JsString) : encodeUtf8 (toWellFormed text) = encodeUtf8 text := by
  induction text using toWellFormed.induct with
  | case1 u v rest hpair ih =>
    rw [toWellFormed, if_pos hpair, encodeUtf8, if_pos hpair, encodeUtf8, if_pos hpair, ih]
  | case2 u v rest hpair ih =>
    have hplain := isSurrogate_replaced u
    rw [toWellFormed, if_neg hpair, ← List.singleton_append, encodeUtf8_append (isWellFormed_singleton hplain), ih,
      encodeUtf8_singleton hplain, toNat_replaced, encodeUtf8, if_neg hpair]
  | case3 u =>
    rw [toWellFormed, encodeUtf8_singleton (isSurrogate_replaced u), toNat_replaced, encodeUtf8]
  | case4 => rfl

theorem decodeUtf8_encodeUtf8_eq (text : JsString) : decodeUtf8 (encodeUtf8 text) = toWellFormed text := by
  rw [← encodeUtf8_toWellFormed, decodeUtf8_encodeUtf8 (isWellFormed_toWellFormed text)]

/-- A text that is well formed without a replacement. -/
theorem eq_of_toWellFormed_eq {text text' : JsString} (h : toWellFormed text = text') (hreplaced : 0xFFFD ∉ text') :
    text = text' := by
  have hplain : ∀ {u v : UInt16}, (if isSurrogate u then 0xFFFD else u) = v → v ≠ 0xFFFD → u = v := by
    intro u v huv hne
    split at huv
    · exact absurd huv.symm hne
    · exact huv
  induction text using toWellFormed.induct generalizing text' with
  | case1 u v rest hpair ih =>
    rw [toWellFormed, if_pos hpair] at h
    subst h
    rw [← ih rfl fun hmem ↦ hreplaced (List.mem_cons_of_mem _ (List.mem_cons_of_mem _ hmem))]
  | case2 u v rest hpair ih =>
    rw [toWellFormed, if_neg hpair] at h
    subst h
    have hu := hplain rfl fun heq ↦ hreplaced (List.mem_cons.mpr (Or.inl heq.symm))
    rw [← ih rfl fun hmem ↦ hreplaced (List.mem_cons_of_mem _ hmem), ← hu]
  | case3 u =>
    subst h
    have hu := hplain rfl fun heq ↦ hreplaced (List.mem_cons.mpr (Or.inl heq.symm))
    exact congrArg (fun v ↦ [v]) hu
  | case4 => exact h

/-- The bytes of a text without replacements are those of no other text. -/
theorem eq_of_encodeUtf8_eq {text text' : JsString} (h : encodeUtf8 text = encodeUtf8 text')
    (hwellFormed : isWellFormed text') (hreplaced : 0xFFFD ∉ text') : text = text' := by
  apply eq_of_toWellFormed_eq _ hreplaced
  rw [← decodeUtf8_encodeUtf8_eq, h, decodeUtf8_encodeUtf8 hwellFormed]

theorem head_toWellFormed {u v : UInt16} {text rest : JsString} (h : toWellFormed (u :: text) = v :: rest) :
    v = u ∨ v = 0xFFFD := by
  cases text with
  | nil =>
    have hv := (List.cons.inj h).1
    split at hv
    · exact .inr hv.symm
    · exact .inl hv.symm
  | cons w text =>
    rw [toWellFormed] at h
    split at h
    · exact .inl (List.cons.inj h).1.symm
    · have hv := (List.cons.inj h).1
      split at hv
      · exact .inr hv.symm
      · exact .inl hv.symm

theorem decodeUtf8_append_mark (rest : List UInt8) :
    decodeUtf8 ([0xEF, 0xBB, 0xBF] ++ rest) = 0xFEFF :: decodeUtf8 rest := by
  have hmark : [0xEF, 0xBB, 0xBF] = utf8Bytes 0xFEFF := by decide
  rw [hmark, decodeUtf8, decodeFrom_utf8Bytes (by decide) (by decide)]
  rfl

/-! ## JSON texts -/

/-- The text has no surrogates. -/
def IsPlain (text : JsString) : Prop := ∀ u ∈ text, isSurrogate u = false

instance (text : JsString) : Decidable (IsPlain text) := List.decidableBAll _ text

theorem isPlain_hexUnit {n : ℕ} (h : n < 16) : isSurrogate (hexUnit n) = false := by
  have hall : ∀ n : Fin 16, isSurrogate (hexUnit n.val) = false := by decide
  exact hall ⟨n, h⟩

theorem isPlain_quoteUnit (u : UInt16) : IsPlain (quoteUnit u) := by
  unfold quoteUnit
  split
  · decide
  split
  · decide
  split
  · decide
  split
  · decide
  split
  · decide
  split
  · decide
  split
  · decide
  split
  · intro v hv
    have hlt : u.toNat < 0x10000 := u.toNat_lt
    obtain hv | hv := List.mem_append.mp hv
    · have hescape : IsPlain (js "\\u") := by decide
      exact hescape v hv
    · simp only [List.mem_cons, List.not_mem_nil, or_false] at hv
      obtain rfl | rfl | rfl | rfl := hv
      · exact isPlain_hexUnit (by omega)
      · exact isPlain_hexUnit (by omega)
      · exact isPlain_hexUnit (by omega)
      · exact isPlain_hexUnit (by omega)
  · next hplain =>
    intro v hv
    rw [List.mem_singleton.mp hv]
    rw [Bool.or_eq_true, not_or, Bool.not_eq_true, Bool.not_eq_true] at hplain
    exact hplain.2

theorem isWellFormed_quote (s : JsString) : isWellFormed (quote s) := by
  have hunits : isWellFormed (quoteUnits s) := by
    induction s using quoteUnits.induct with
    | case1 u v s hpair ih =>
      have hsame : (isHighSurrogate u && isLowSurrogate v) = true := by
        rw [isHighSurrogate, isLowSurrogate, ← Bool.and_assoc]
        exact hpair
      rw [quoteUnits, if_pos hpair, isWellFormed, if_pos hsame]
      exact ih
    | case2 u v s hpair ih =>
      rw [quoteUnits, if_neg hpair]
      exact isWellFormed_append (isWellFormed_of_plain (isPlain_quoteUnit u)) ih
    | case3 u => exact isWellFormed_of_plain (isPlain_quoteUnit u)
    | case4 => rfl
  exact isWellFormed_append (isWellFormed_append (by decide) hunits) (by decide)

theorem isPlain_of_digits {text : JsString} (h : AllDigits text) : IsPlain text := by
  intro u hu
  have hdigit := h u hu
  rw [isDecimalDigit, Bool.and_eq_true, decide_eq_true_eq, decide_eq_true_eq] at hdigit
  have hhigh : u.toNat ≤ 0x39 := hdigit.2
  rw [isSurrogate, Bool.and_eq_false_iff, decide_eq_false_iff_not]
  left
  intro hle
  have hlow : 0xD800 ≤ u.toNat := hle
  omega

theorem isWellFormed_standsFor {text : JsString} {x : ℚ} (h : StandsFor text x) : isWellFormed text := by
  obtain ⟨whole, fraction, exponent, rfl, hwhole, _, hfraction, _⟩ := h
  have hdigits : ∀ {text : JsString}, AllDigits text → isWellFormed text := fun h ↦
    isWellFormed_of_plain (isPlain_of_digits h)
  refine isWellFormed_append (hdigits hwhole) (isWellFormed_append ?_ ?_)
  · split
    · rfl
    · exact isWellFormed_append (by decide) (hdigits hfraction)
  · cases exponent with
    | none => rfl
    | some e =>
      refine isWellFormed_append (isWellFormed_append (by decide) ?_) (hdigits (allDigits_decimal e.natAbs).1)
      split
      · decide
      · decide

theorem isWellFormed_numberText {x : ℚ} (h : IsDouble x) : isWellFormed (numberText x) := by
  unfold numberText
  split
  · decide
  split
  · next hneg =>
    exact isWellFormed_append (by decide)
      (isWellFormed_standsFor (standsFor_positiveText (neg_pos.mpr hneg) (isDouble_neg h)))
  · next hzero hneg =>
    exact isWellFormed_standsFor
      (standsFor_positiveText (lt_of_le_of_ne (not_lt.mp hneg) (Ne.symm hzero)) h)

theorem isWellFormed_stringifyItems {items : List Json} (h : ∀ item ∈ items, isWellFormed item.stringify) :
    isWellFormed (stringifyItems items) := by
  induction items with
  | nil => rfl
  | cons item items ih =>
  have hrest := ih fun v hv ↦ h v (List.mem_cons_of_mem item hv)
  cases items with
  | nil => exact h item List.mem_cons_self
  | cons next items =>
    exact isWellFormed_append (isWellFormed_append (h item List.mem_cons_self) (by decide)) hrest

theorem isWellFormed_stringifyFields {fields : List (JsString × Json)}
    (h : ∀ field ∈ fields, isWellFormed field.2.stringify) : isWellFormed (stringifyFields fields) := by
  induction fields with
  | nil => rfl
  | cons field fields ih =>
  obtain ⟨name, value⟩ := field
  have hfirst := isWellFormed_append (isWellFormed_append (isWellFormed_quote name) (by decide : isWellFormed (js ":")))
    (h (name, value) List.mem_cons_self)
  have hrest := ih fun v hv ↦ h v (List.mem_cons_of_mem _ hv)
  cases fields with
  | nil => exact hfirst
  | cons next fields => exact isWellFormed_append (isWellFormed_append hfirst (by decide)) hrest

/-- `JSON.stringify` escapes halves of surrogate pairs. -/
theorem Json.Valid.isWellFormed {v : Json} (h : v.Valid) : Js.isWellFormed v.stringify := by
  induction h with
  | null => decide
  | bool value => cases value <;> decide
  | number h => exact isWellFormed_numberText h
  | string value => exact isWellFormed_quote value
  | array _ ih =>
    exact isWellFormed_append (isWellFormed_append (by decide) (isWellFormed_stringifyItems ih)) (by decide)
  | object _ _ _ ih =>
    exact isWellFormed_append (isWellFormed_append (by decide) (isWellFormed_stringifyFields ih)) (by decide)

theorem Json.Valid.encodeUtf8_ne {v : Json} (h : v.Valid) : encodeUtf8 v.stringify ≠ [] := by
  intro hempty
  have htext := decodeUtf8_encodeUtf8 h.isWellFormed
  obtain ⟨u, rest, hhead, _⟩ := h.head
  rw [hempty, hhead] at htext
  cases htext

end MidnightReferendum.Js
