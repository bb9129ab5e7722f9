import MidnightReferendum.Js.Dates
import MidnightReferendum.Js.Doubles

/-!
# The text of a number

`Number.prototype.toString`, and the numbers of a JSON text. The text of a double is read back as the same
double.
-/

namespace MidnightReferendum.Js

/-! ## Writing -/

def zeros (count : ℕ) : JsString := List.replicate count 0x30

def exponentText (e : ℤ) : JsString := js "e" ++ (if e < 0 then js "-" else js "+") ++ decimal e.natAbs

/-- The text of a positive double. Without an exponent, it has at most 21 digits before the point and at most
six zeros after it. -/
def positiveText (x : ℚ) : JsString :=
  let k := precision x
  let n := (significand x k).2
  let text := digits k (significand x k).1
  if k ≤ n ∧ n ≤ 21 then text ++ zeros (n - k).toNat
  else if 0 < n ∧ n ≤ 21 then text.take n.toNat ++ js "." ++ text.drop n.toNat
  else if -6 < n ∧ n ≤ 0 then js "0." ++ (zeros (-n).toNat ++ text)
  else if k = 1 then text ++ exponentText (n - 1)
  else text.take 1 ++ js "." ++ text.drop 1 ++ exponentText (n - 1)

/-- `Number::toString` -/
def numberText (x : ℚ) : JsString :=
  if x = 0 then js "0" else if x < 0 then js "-" ++ positiveText (-x) else positiveText x

example : numberText (-3 / 8) = js "-0.375" := by decide +kernel

example : numberText (2 ^ 70) = js "1.1805916207174113e+21" := by decide +kernel

/-! ## Reading -/

def isDecimalDigit (u : UInt16) : Bool := 0x30 ≤ u && u ≤ 0x39

/-- The digits at the head of a text, and the rest. -/
def readDigits (text : JsString) : JsString × JsString :=
  (text.takeWhile isDecimalDigit, text.dropWhile isDecimalDigit)

/-- A numeral without needless zeros at its head. -/
def IsWhole (name : JsString) : Prop := name ≠ [] ∧ (name.head? = some 0x30 → name.length = 1)

instance (name : JsString) : Decidable (IsWhole name) := inferInstanceAs (Decidable (_ ∧ _))

def readWhole (text : JsString) : Option (JsString × JsString) :=
  if IsWhole (readDigits text).1 then some (readDigits text) else none

def readFraction : JsString → Option (JsString × JsString)
  | [] => some ([], [])
  | u :: rest =>
    if u == 0x2E then if (readDigits rest).1 = [] then none else some (readDigits rest)
    else some ([], u :: rest)

def readExponentDigits (negative : Bool) (text : JsString) : Option (ℤ × JsString) :=
  if (readDigits text).1 = [] then none
  else some (if negative then -numeral (readDigits text).1 else numeral (readDigits text).1, (readDigits text).2)

def readExponent : JsString → Option (ℤ × JsString)
  | [] => some (0, [])
  | u :: rest =>
    if u == 0x65 || u == 0x45 then
      match rest with
      | [] => none
      | sign :: digits =>
        if sign == 0x2D then readExponentDigits true digits
        else if sign == 0x2B then readExponentDigits false digits
        else readExponentDigits false (sign :: digits)
    else some (0, u :: rest)

/-- A number without a sign. -/
def readMagnitude (text : JsString) : Option (ℚ × JsString) :=
  (readWhole text).bind fun (whole, text) ↦ (readFraction text).bind fun (fraction, text) ↦
    (readExponent text).map fun (exponent, text) ↦
      (numeral (whole ++ fraction) * 10 ^ (exponent - fraction.length), text)

/-- A number of a JSON text is rounded to a double. -/
def readNumber : JsString → Option (JsNumber × JsString)
  | [] => none
  | u :: rest =>
    if u == 0x2D then (readMagnitude rest).map fun (q, rest) ↦ (toDouble (-q), rest)
    else (readMagnitude (u :: rest)).map fun (q, rest) ↦ (toDouble q, rest)

example : readNumber (js "-12.50e-1,") = some (.finite (-5 / 4), js ",") := by decide +kernel

/-! ## Digits -/

def AllDigits (text : JsString) : Prop := ∀ u ∈ text, isDecimalDigit u

instance (text : JsString) : Decidable (AllDigits text) := List.decidableBAll _ text

theorem allDigits_nil : AllDigits [] := fun u hu ↦ by cases hu

theorem AllDigits.append {a b : JsString} (ha : AllDigits a) (hb : AllDigits b) : AllDigits (a ++ b) :=
  fun u hu ↦ (List.mem_append.mp hu).elim (ha u) (hb u)

theorem allDigits_zeros (count : ℕ) : AllDigits (zeros count) := by
  intro u hu
  rw [List.eq_of_mem_replicate hu]
  rfl

theorem isDecimalDigit_digit {n : ℕ} (h : n < 10) : isDecimalDigit (0x30 + n).toUInt16 := by
  have hall : ∀ n : Fin 10, isDecimalDigit (0x30 + n.val).toUInt16 := by decide
  exact hall ⟨n, h⟩

theorem allDigits_digits (width n : ℕ) : AllDigits (digits width n) := by
  induction width generalizing n with
  | zero => exact fun u hu ↦ by cases hu
  | succ width ih =>
    refine (ih (n / 10)).append fun u hu ↦ ?_
    rw [List.mem_singleton.mp hu]
    exact isDecimalDigit_digit (Nat.mod_lt n (by decide))

theorem decimal_of_lt {n : ℕ} (h : n < 10) : decimal n = [(0x30 + n).toUInt16] := by
  have hall : ∀ n : Fin 10, decimal n.val = [(0x30 + n.val).toUInt16] := by decide
  exact hall ⟨n, h⟩

theorem decimal_of_le {n : ℕ} (h : 10 ≤ n) : decimal n = decimal (n / 10) ++ [(0x30 + n % 10).toUInt16] := by
  have hlast := decimal_of_lt (Nat.mod_lt n (show 0 < 10 by decide))
  rw [decimal, Nat.toDigits_of_lt_base (Nat.mod_lt n (by decide)), List.flatMap_singleton] at hlast
  rw [decimal, Nat.toDigits_of_base_le (by decide) h, List.flatMap_append, List.flatMap_singleton, hlast]
  rfl

theorem allDigits_decimal (n : ℕ) : AllDigits (decimal n) ∧ decimal n ≠ [] := by
  induction n using Nat.strongRecOn with
  | ind n ih =>
    by_cases h : n < 10
    · rw [decimal_of_lt h]
      refine ⟨fun u hu ↦ ?_, List.cons_ne_nil _ _⟩
      rw [List.mem_singleton.mp hu]
      exact isDecimalDigit_digit h
    · rw [decimal_of_le (not_lt.mp h)]
      refine ⟨(ih (n / 10) (by omega)).1.append fun u hu ↦ ?_, by simp⟩
      rw [List.mem_singleton.mp hu]
      exact isDecimalDigit_digit (Nat.mod_lt n (by decide))

theorem numeral_decimal (n : ℕ) : numeral (decimal n) = n := by
  induction n using Nat.strongRecOn with
  | ind n ih =>
    by_cases h : n < 10
    · rw [decimal_of_lt h, numeral, List.foldl_cons, List.foldl_nil, toNat_digit h]
      omega
    · rw [decimal_of_le (not_lt.mp h), numeral_concat, ih (n / 10) (by omega),
        toNat_digit (Nat.mod_lt n (by decide))]
      omega

theorem numeral_append (a b : JsString) : numeral (a ++ b) = numeral a * 10 ^ b.length + numeral b := by
  induction b using List.reverseRecOn with
  | nil => simp [numeral]
  | append_singleton b u ih =>
    rw [← List.append_assoc, numeral_concat, ih, numeral_concat, List.length_append, List.length_singleton]
    ring

theorem numeral_zeros (count : ℕ) : numeral (zeros count) = 0 := by
  induction count with
  | zero => rfl
  | succ count ih =>
    rw [zeros, List.replicate_succ', numeral_concat, ← zeros, ih]
    rfl

/-- The first digit is not a zero. -/
theorem head?_digits {k n : ℕ} (hlow : 10 ^ k ≤ n) (hhigh : n < 10 ^ (k + 1)) :
    ∃ d, 1 ≤ d ∧ d < 10 ∧ (digits (k + 1) n).head? = some (0x30 + d).toUInt16 := by
  induction k generalizing n with
  | zero => exact ⟨n, hlow, by omega, by rw [digits, digits, List.nil_append, Nat.mod_eq_of_lt (by omega)]; rfl⟩
  | succ k ih =>
    obtain ⟨d, hone, hten, hhead⟩ := ih (n := n / 10) (by omega) (by omega)
    refine ⟨d, hone, hten, ?_⟩
    rw [digits, List.head?_append, hhead]
    rfl

/-! ## Round trip -/

/-- A text that cannot go on with a number. -/
def EndsNumber (rest : JsString) : Prop :=
  ∀ u ∈ rest.head?, isDecimalDigit u = false ∧ u ≠ 0x2E ∧ u ≠ 0x65 ∧ u ≠ 0x45

theorem readDigits_append {text rest : JsString} (htext : AllDigits text)
    (hrest : ∀ u ∈ rest.head?, isDecimalDigit u = false) : readDigits (text ++ rest) = (text, rest) := by
  have htake : rest.takeWhile isDecimalDigit = [] ∧ rest.dropWhile isDecimalDigit = rest := by
    cases rest with
    | nil => exact ⟨rfl, rfl⟩
    | cons u rest =>
      have hu := hrest u rfl
      exact ⟨List.takeWhile_cons_of_neg (by simp [hu]), List.dropWhile_cons_of_neg (by simp [hu])⟩
  rw [readDigits, List.takeWhile_append_of_pos htext, List.dropWhile_append_of_pos htext, htake.1, htake.2,
    List.append_nil]

/-- The text of a number in its parts. -/
def scientific (whole fraction : JsString) (exponent : Option ℤ) : JsString :=
  whole ++ ((if fraction = [] then [] else js "." ++ fraction) ++ exponent.elim [] exponentText)

theorem readExponent_text {rest : JsString} (hrest : EndsNumber rest) (exponent : Option ℤ) :
    readExponent (exponent.elim [] exponentText ++ rest) = some (exponent.getD 0, rest) := by
  have hdigit : ∀ u ∈ rest.head?, isDecimalDigit u = false := fun u hu ↦ (hrest u hu).1
  cases exponent with
  | none =>
    cases rest with
    | nil => rfl
    | cons u rest =>
      obtain ⟨_, _, he, hE⟩ := hrest u rfl
      simp [readExponent, he, hE]
  | some e =>
    obtain ⟨hall, hne⟩ := allDigits_decimal e.natAbs
    have hread : ∀ negative, readExponentDigits negative (decimal e.natAbs ++ rest) =
        some (if negative then -(e.natAbs : ℤ) else e.natAbs, rest) := by
      intro negative
      rw [readExponentDigits, readDigits_append hall hdigit, if_neg hne, numeral_decimal]
    have hminus : js "-" = [0x2D] := by decide
    have hplus : js "+" = [0x2B] := by decide
    have he : js "e" = [0x65] := by decide
    by_cases hneg : e < 0
    · rw [Option.elim_some, exponentText, if_pos hneg, hminus, he]
      simp only [List.cons_append, List.nil_append, readExponent]
      rw [if_pos (by decide), if_pos (by decide), hread, if_pos rfl]
      simp only [Option.getD_some, Option.some.injEq, Prod.mk.injEq, and_true]
      omega
    · rw [Option.elim_some, exponentText, if_neg hneg, hplus, he]
      simp only [List.cons_append, List.nil_append, readExponent]
      rw [if_pos (by decide), if_neg (by decide), if_pos (by decide), hread, if_neg (by decide)]
      simp only [Option.getD_some, Option.some.injEq, Prod.mk.injEq, and_true]
      omega

theorem endsNumber_exponentText {rest : JsString} (hrest : EndsNumber rest) (exponent : Option ℤ) :
    ∀ u ∈ (exponent.elim [] exponentText ++ rest).head?, isDecimalDigit u = false ∧ u ≠ 0x2E := by
  cases exponent with
  | none => exact fun u hu ↦ ⟨(hrest u hu).1, (hrest u hu).2.1⟩
  | some e =>
    intro u hu
    have he : js "e" = [0x65] := by decide
    rw [Option.elim_some, exponentText, he] at hu
    obtain rfl := Option.some.inj hu
    decide

theorem readFraction_text {fraction rest : JsString} (hfraction : AllDigits fraction)
    (hrest : ∀ u ∈ rest.head?, isDecimalDigit u = false ∧ u ≠ 0x2E) :
    readFraction ((if fraction = [] then [] else js "." ++ fraction) ++ rest) = some (fraction, rest) := by
  have hpoint : js "." = [0x2E] := by decide
  split
  · next h =>
    rw [h, List.nil_append]
    cases rest with
    | nil => rfl
    | cons u rest => simp [readFraction, (hrest u rfl).2]
  · next h =>
    rw [hpoint, List.append_assoc, List.singleton_append, readFraction, if_pos (by decide),
      readDigits_append hfraction fun u hu ↦ (hrest u hu).1, if_neg h]

theorem readMagnitude_scientific {whole fraction rest : JsString} {exponent : Option ℤ}
    (hall : AllDigits whole) (hwhole : IsWhole whole) (hfraction : AllDigits fraction) (hrest : EndsNumber rest) :
    readMagnitude (scientific whole fraction exponent ++ rest) =
      some ((numeral (whole ++ fraction) : ℚ) * 10 ^ (exponent.getD 0 - fraction.length), rest) := by
  have hexponent := endsNumber_exponentText hrest exponent
  have hpoint : js "." = [0x2E] := by decide
  have hend : ∀ u ∈ ((if fraction = [] then [] else js "." ++ fraction) ++
      (exponent.elim [] exponentText ++ rest)).head?, isDecimalDigit u = false := by
    intro u hu
    split at hu
    · exact (hexponent u hu).1
    · rw [hpoint] at hu
      obtain rfl := Option.some.inj hu
      decide
  rw [scientific, List.append_assoc, List.append_assoc, readMagnitude, readWhole, readDigits_append hall hend,
    if_pos hwhole, Option.bind_some]
  simp only [readFraction_text hfraction hexponent, Option.bind_some, readExponent_text hrest]
  rfl

/-- The text is a number that is rounded to the given one. -/
def StandsFor (text : JsString) (x : ℚ) : Prop :=
  ∃ whole fraction exponent, text = scientific whole fraction exponent ∧ AllDigits whole ∧ IsWhole whole ∧
    AllDigits fraction ∧
      toDouble (numeral (whole ++ fraction) * 10 ^ (exponent.getD 0 - fraction.length)) = .finite x

section Text

variable {text : JsString} {x : ℚ} {s k : ℕ} {n : ℤ} (hall : AllDigits text) (hlength : text.length = k)
  (hnumeral : numeral text = s) (hhead : text.head? ≠ some 0x30) (hk : 1 ≤ k)
  (hrecovers : toDouble (s * 10 ^ (n - k)) = .finite x)

include hlength hhead hk

theorem isWhole_take {i : ℕ} (hi : 1 ≤ i) : IsWhole (text.take i) := by
  refine ⟨fun hnil ↦ ?_, fun hzero ↦ ?_⟩
  · have := congrArg List.length hnil
    rw [List.length_take, List.length_nil] at this
    omega
  · rw [List.head?_take, if_neg (by omega)] at hzero
    exact absurd hzero hhead

include hall hnumeral hrecovers

theorem standsFor_integer (h : k ≤ n) : StandsFor (text ++ zeros (n - k).toNat) x := by
  have hwhole := isWhole_take hlength hhead hk (i := k) hk
  rw [List.take_of_length_le hlength.le] at hwhole
  refine ⟨text ++ zeros (n - k).toNat, [], none, by simp [scientific], hall.append (allDigits_zeros _), ?_, ?_, ?_⟩
  · refine ⟨by simp [hwhole.1], fun hzero ↦ ?_⟩
    rw [List.head?_append_of_ne_nil _ hwhole.1] at hzero
    exact absurd hzero hhead
  · exact allDigits_nil
  · have hpow : (10 : ℚ) ^ (n - k).toNat = 10 ^ (n - k) := by
      rw [← zpow_natCast, Int.toNat_of_nonneg (by omega)]
    rw [← hrecovers, List.append_nil, numeral_append, numeral_zeros, hnumeral, zeros, List.length_replicate]
    push_cast
    rw [hpow, add_zero, Option.getD_none, List.length_nil, Nat.cast_zero, sub_zero, zpow_zero, mul_one]

theorem standsFor_fraction (hpos : 0 < n) (h : n < k) :
    StandsFor (text.take n.toNat ++ js "." ++ text.drop n.toNat) x := by
  have hne : text.drop n.toNat ≠ [] := by
    simp only [ne_eq, List.drop_eq_nil_iff]
    omega
  refine ⟨text.take n.toNat, text.drop n.toNat, none, by simp [scientific, hne], ?_, ?_, ?_, ?_⟩
  · exact fun u hu ↦ hall u (List.mem_of_mem_take hu)
  · exact isWhole_take hlength hhead hk (by omega)
  · exact fun u hu ↦ hall u (List.mem_of_mem_drop hu)
  · rw [← hrecovers, List.take_append_drop, hnumeral, List.length_drop, hlength, Option.getD_none]
    congr 3
    omega

omit hhead in
theorem standsFor_small (h : n ≤ 0) : StandsFor (js "0." ++ (zeros (-n).toNat ++ text)) x := by
  have hne : zeros (-n).toNat ++ text ≠ [] := by
    rw [← List.length_pos_iff, List.length_append]
    omega
  have hzero : js "0." = js "0" ++ js "." := by decide
  refine ⟨js "0", zeros (-n).toNat ++ text, none, by simp [scientific, hne, hzero], by decide, by decide, ?_, ?_⟩
  · exact (allDigits_zeros _).append hall
  · rw [← hrecovers, numeral_append, numeral_append, numeral_zeros, hnumeral, List.length_append, hlength]
    have hnone : numeral (js "0") = 0 := by decide
    simp only [hnone, zero_mul, zero_add, zeros, List.length_replicate, Option.getD_none]
    congr 3
    push_cast
    omega

theorem standsFor_digit (h : k = 1) : StandsFor (text ++ exponentText (n - 1)) x := by
  have hwhole := isWhole_take hlength hhead hk (i := k) hk
  rw [List.take_of_length_le hlength.le] at hwhole
  refine ⟨text, [], some (n - 1), by simp [scientific], hall, hwhole, allDigits_nil, ?_⟩
  rw [← hrecovers, List.append_nil, hnumeral, h]
  simp

theorem standsFor_digits (h : 1 < k) :
    StandsFor (text.take 1 ++ js "." ++ text.drop 1 ++ exponentText (n - 1)) x := by
  have hne : text.drop 1 ≠ [] := by
    simp only [ne_eq, List.drop_eq_nil_iff]
    omega
  refine ⟨text.take 1, text.drop 1, some (n - 1), ?_, ?_, ?_, ?_, ?_⟩
  · rw [scientific, if_neg hne, Option.elim_some, List.append_assoc, List.append_assoc, List.append_assoc]
  · exact fun u hu ↦ hall u (List.mem_of_mem_take hu)
  · exact isWhole_take hlength hhead hk le_rfl
  · exact fun u hu ↦ hall u (List.mem_of_mem_drop hu)
  · rw [← hrecovers, List.take_append_drop, hnumeral, List.length_drop, hlength, Option.getD_some]
    congr 3
    omega

end Text

theorem standsFor_positiveText {x : ℚ} (hx : 0 < x) (h : IsDouble x) : StandsFor (positiveText x) x := by
  obtain ⟨hk, hrecovers⟩ := recovers_precision hx h
  obtain ⟨hlow, hhigh⟩ := significand_lt hx hk
  unfold positiveText
  unfold Recovers decimalValue at hrecovers
  simp only
  generalize precision x = k at *
  generalize (significand x k).2 = n at *
  generalize (significand x k).1 = s at *
  have hall := allDigits_digits k s
  have hlength := length_digits k s
  have hnumeral : numeral (digits k s) = s := by rw [numeral_digits, Nat.mod_eq_of_lt hhigh]
  have hhead : (digits k s).head? ≠ some 0x30 := by
    obtain ⟨k, rfl⟩ := Nat.exists_eq_add_of_le' hk
    obtain ⟨d, hone, hten, hd⟩ := head?_digits hlow hhigh
    intro hzero
    have heq := congrArg UInt16.toNat (Option.some.inj (hd.symm.trans hzero))
    rw [toNat_digit hten] at heq
    have hthirty : (0x30 : UInt16).toNat = 0x30 := rfl
    omega
  generalize digits k s = text at *
  split
  · next hplain => exact standsFor_integer hall hlength hnumeral hhead hk hrecovers hplain.1
  split
  · next hplain hpoint => exact standsFor_fraction hall hlength hnumeral hhead hk hrecovers hpoint.1 (by omega)
  split
  · next hsmall => exact standsFor_small hall hlength hnumeral hk hrecovers hsmall.2
  split
  · next hone => exact standsFor_digit hall hlength hnumeral hhead hk hrecovers hone
  · next hmany => exact standsFor_digits hall hlength hnumeral hhead hk hrecovers (by omega)

theorem StandsFor.readMagnitude {text rest : JsString} {x : ℚ} (h : StandsFor text x) (hrest : EndsNumber rest) :
    ∃ q, Js.readMagnitude (text ++ rest) = some (q, rest) ∧ toDouble q = .finite x := by
  obtain ⟨whole, fraction, exponent, rfl, hall, hwhole, hfraction, hvalue⟩ := h
  exact ⟨_, readMagnitude_scientific hall hwhole hfraction hrest, hvalue⟩

/-- A text of a number begins with a digit. -/
theorem StandsFor.head {text : JsString} {x : ℚ} (h : StandsFor text x) :
    ∃ u rest, text = u :: rest ∧ isDecimalDigit u := by
  obtain ⟨whole, fraction, exponent, rfl, hall, ⟨hne, _⟩, _⟩ := h
  cases whole with
  | nil => exact absurd rfl hne
  | cons u whole => exact ⟨u, _, rfl, hall u List.mem_cons_self⟩

theorem standsFor_zero : StandsFor (js "0") 0 :=
  ⟨js "0", [], none, by decide, by decide, by decide, by decide, by decide +kernel⟩

/-- The text of a double is read back as this double. -/
theorem readNumber_numberText {x : ℚ} (h : IsDouble x) {rest : JsString} (hrest : EndsNumber rest) :
    readNumber (numberText x ++ rest) = some (.finite x, rest) := by
  have hplain : ∀ {text : JsString}, StandsFor text x → readNumber (text ++ rest) = some (.finite x, rest) := by
    intro text hstands
    obtain ⟨q, hread, hq⟩ := hstands.readMagnitude hrest
    obtain ⟨u, tail, rfl, hu⟩ := hstands.head
    have hminus : ¬(u == 0x2D) = true := fun heq ↦ by
      rw [beq_iff_eq.mp heq] at hu
      contradiction
    rw [List.cons_append, readNumber, if_neg hminus, ← List.cons_append, hread]
    simp only [Option.map_some, hq]
  unfold numberText
  split
  · next hzero => exact hplain (hzero ▸ standsFor_zero)
  split
  · next hneg =>
    obtain ⟨q, hread, hq⟩ := (standsFor_positiveText (neg_pos.mpr hneg) (isDouble_neg h)).readMagnitude hrest
    have hminus : js "-" = [0x2D] := by decide
    have hback := toDouble_neg hq
    rw [neg_neg] at hback
    rw [hminus, List.append_assoc, List.singleton_append, readNumber, if_pos (by decide), hread]
    simp only [Option.map_some, hback]
  · next hzero hneg => exact hplain (standsFor_positiveText (lt_of_le_of_ne (not_lt.mp hneg) (Ne.symm hzero)) h)

end MidnightReferendum.Js
