import Mathlib.Algebra.Order.Group.Abs
import Mathlib.Algebra.Order.Group.Int
import MidnightReferendum.Js.Library
import MidnightReferendum.Js.Object

/-!
# Reading dates

`Date.parse` on the texts that `toISOString` writes. Such a text determines its moment, and between
quotation marks it stays as it is.
-/

namespace MidnightReferendum.Js

/-! ## Digits -/

@[simp]
theorem length_digits (width n : ℕ) : (digits width n).length = width := by
  induction width generalizing n with
  | zero => rfl
  | succ width ih => simp [digits, ih]

theorem toNat_digit {n : ℕ} (h : n < 10) : (0x30 + n).toUInt16.toNat = 0x30 + n := by
  have hmod : (0x30 + n).toUInt16.toNat = (0x30 + n) % 65536 := UInt16.toNat_ofNat'
  rw [hmod]
  omega

theorem numeral_concat (name : JsString) (u : UInt16) :
    numeral (name ++ [u]) = numeral name * 10 + (u.toNat - 0x30) := by
  simp [numeral]

/-- The digits of a number are read back. -/
theorem numeral_digits (width n : ℕ) : numeral (digits width n) = n % 10 ^ width := by
  induction width generalizing n with
  | zero => simp [digits, numeral, Nat.mod_one]
  | succ width ih =>
    calc
      numeral (digits (width + 1) n) = n / 10 % 10 ^ width * 10 + n % 10 := by
        rw [digits, numeral_concat, ih, toNat_digit (Nat.mod_lt n (by decide)), Nat.add_sub_cancel_left]
      _ = n % (10 * 10 ^ width) := by
        rw [Nat.mod_mul, Nat.mul_comm, Nat.add_comm]
      _ = n % 10 ^ (width + 1) := by rw [pow_succ']

/-! ## The calendar -/

/-- The number of days from 1970-01-01 to a date. -/
def daysFromCivil (year : ℤ) (month day : ℕ) : ℤ :=
  let shiftedYear := if month ≤ 2 then year - 1 else year
  let yearOfEra := (shiftedYear % 400).toNat
  let shifted := if month ≤ 2 then month + 9 else month - 3
  let dayOfYear := (153 * shifted + 2) / 5 + day - 1
  shiftedYear / 400 * 146097 +
    ((365 * yearOfEra + yearOfEra / 4 - yearOfEra / 100 + dayOfYear : ℕ) : ℤ) - 719468

/-- A day of an era as its century, its four years, its year and its day. -/
theorem dayOfEra_eq {dayOfEra : ℕ} (h : dayOfEra < 146097) :
    ∃ century fourYears year day,
      dayOfEra = 36524 * century + 1461 * fourYears + 365 * year + day ∧
        century ≤ 3 ∧ fourYears ≤ 24 ∧ year ≤ 3 ∧ day ≤ 365 ∧
          (day = 365 → year = 3 ∧ (fourYears = 24 → century = 3)) := by
  let century := min (dayOfEra / 36524) 3
  let dayOfCentury := dayOfEra - 36524 * century
  let year := min (dayOfCentury % 1461 / 365) 3
  refine ⟨century, dayOfCentury / 1461, year, dayOfCentury % 1461 - 365 * year, ?_⟩
  omega

theorem yearOfEra_eq {dayOfEra century fourYears year day : ℕ}
    (h : dayOfEra = 36524 * century + 1461 * fourYears + 365 * year + day) (hcentury : century ≤ 3)
    (hfour : fourYears ≤ 24) (hyear : year ≤ 3) (hday : day ≤ 365)
    (hleap : day = 365 → year = 3 ∧ (fourYears = 24 → century = 3)) :
    (dayOfEra - dayOfEra / 1460 + dayOfEra / 36524 - dayOfEra / 146096) / 365 =
      100 * century + 4 * fourYears + year := by
  have hfours : dayOfEra / 1460 =
      25 * century + fourYears + (24 * century + fourYears + 365 * year + day) / 1460 := by
    omega
  -- Only the last day of an era is past its fourth century.
  have hcenturies : dayOfEra / 36524 = century + dayOfEra / 146096 := by
    obtain rfl | rfl | rfl | rfl : century = 0 ∨ century = 1 ∨ century = 2 ∨ century = 3 := by omega
    all_goals omega
  rw [hfours, hcenturies]
  omega

/-- The year within an era contains the day. -/
theorem yearOfEra_spec {dayOfEra : ℕ} (h : dayOfEra < 146097) {yearOfEra : ℕ}
    (hyear : (dayOfEra - dayOfEra / 1460 + dayOfEra / 36524 - dayOfEra / 146096) / 365 = yearOfEra) :
    yearOfEra < 400 ∧ 365 * yearOfEra + yearOfEra / 4 - yearOfEra / 100 ≤ dayOfEra ∧
      dayOfEra ≤ 365 * yearOfEra + yearOfEra / 4 - yearOfEra / 100 + 365 := by
  obtain ⟨century, fourYears, year, day, hsplit, hcentury, hfour, hyears, hday, hleap⟩ := dayOfEra_eq h
  rw [yearOfEra_eq hsplit hcentury hfour hyears hday hleap] at hyear
  have hfours : yearOfEra / 4 = 25 * century + fourYears := by omega
  have hcenturies : yearOfEra / 100 = century := by omega
  rw [hfours, hcenturies]
  omega

theorem daysFromCivil_civil (days : ℤ) :
    daysFromCivil (civil days).1 (civil days).2.1 (civil days).2.2 = days := by
  obtain ⟨era, hera⟩ : ∃ era, (days + 719468) / 146097 = era := ⟨_, rfl⟩
  obtain ⟨dayOfEra, hdayOfEra⟩ : ∃ dayOfEra, ((days + 719468) % 146097).toNat = dayOfEra := ⟨_, rfl⟩
  have hdays : days = era * 146097 + dayOfEra - 719468 := by omega
  have hlt : dayOfEra < 146097 := by omega
  obtain ⟨yearOfEra, hyear⟩ : ∃ yearOfEra,
      (dayOfEra - dayOfEra / 1460 + dayOfEra / 36524 - dayOfEra / 146096) / 365 = yearOfEra := ⟨_, rfl⟩
  obtain ⟨hlast, hstart, hend⟩ := yearOfEra_spec hlt hyear
  obtain ⟨dayOfYear, hday⟩ : ∃ dayOfYear,
      dayOfEra - (365 * yearOfEra + yearOfEra / 4 - yearOfEra / 100) = dayOfYear := ⟨_, rfl⟩
  obtain ⟨shifted, hshift⟩ : ∃ shifted, (5 * dayOfYear + 2) / 153 = shifted := ⟨_, rfl⟩
  have hshifted : shifted ≤ 11 := by omega
  have hback : (153 * shifted + 2) / 5 ≤ dayOfYear := by omega
  have hsum : 365 * yearOfEra + yearOfEra / 4 - yearOfEra / 100 + dayOfYear = dayOfEra := by omega
  simp only [civil, daysFromCivil, hera, hdayOfEra, hyear, hday, hshift]
  by_cases hmarch : shifted < 10
  · have hmonth : ¬shifted + 3 ≤ 2 := by omega
    have hyears : ((yearOfEra : ℤ) + era * 400) % 400 = yearOfEra := by omega
    have hera' : ((yearOfEra : ℤ) + era * 400) / 400 = era := by omega
    simp only [if_pos hmarch, if_neg hmonth, hyears, hera', Int.toNat_natCast, Nat.add_sub_cancel]
    omega
  · have hmonth : shifted - 9 ≤ 2 := by omega
    have hyears : ((yearOfEra : ℤ) + era * 400 + 1 - 1) % 400 = yearOfEra := by omega
    have hera' : ((yearOfEra : ℤ) + era * 400 + 1 - 1) / 400 = era := by omega
    have hshift' : shifted - 9 + 9 = shifted := by omega
    simp only [if_neg hmarch, if_pos hmonth, hyears, hera', hshift', Int.toNat_natCast]
    omega

/-- A month and a day have two digits at most, and so far from 1970 a year has six. -/
theorem civil_lt (days : ℤ) (h : |days| ≤ 100000000) :
    (civil days).2.1 < 100 ∧ (civil days).2.2 < 100 ∧ (civil days).1.natAbs < 1000000 := by
  obtain ⟨hlow, hhigh⟩ := abs_le.mp h
  obtain ⟨era, hera⟩ : ∃ era, (days + 719468) / 146097 = era := ⟨_, rfl⟩
  obtain ⟨dayOfEra, hdayOfEra⟩ : ∃ dayOfEra, ((days + 719468) % 146097).toNat = dayOfEra := ⟨_, rfl⟩
  have hlt : dayOfEra < 146097 := by omega
  obtain ⟨yearOfEra, hyear⟩ : ∃ yearOfEra,
      (dayOfEra - dayOfEra / 1460 + dayOfEra / 36524 - dayOfEra / 146096) / 365 = yearOfEra := ⟨_, rfl⟩
  obtain ⟨hlast, _, hend⟩ := yearOfEra_spec hlt hyear
  obtain ⟨dayOfYear, hday⟩ : ∃ dayOfYear,
      dayOfEra - (365 * yearOfEra + yearOfEra / 4 - yearOfEra / 100) = dayOfYear := ⟨_, rfl⟩
  obtain ⟨shifted, hshift⟩ : ∃ shifted, (5 * dayOfYear + 2) / 153 = shifted := ⟨_, rfl⟩
  have hshifted : shifted ≤ 11 := by omega
  have hmonth : dayOfYear - (153 * shifted + 2) / 5 ≤ 31 := by omega
  have hera' : -700 ≤ era ∧ era ≤ 700 := by omega
  simp only [civil, hera, hdayOfEra, hyear, hday, hshift]
  clear hdayOfEra hyear hend hday hshift
  refine ⟨?_, by omega, ?_⟩
  · split <;> omega
  · split <;> omega

/-! ## Texts of dates -/

/-- The moment of a year and of the rest `-MM-DDTHH:mm:ss.sssZ` of a text. -/
def isoFields (year : ℤ) (rest : JsString) : ℤ :=
  let number (start width : ℕ) : ℕ := numeral ((rest.drop start).take width)
  daysFromCivil year (number 1 2) (number 4 2) * 86400000 + number 7 2 * 3600000 + number 10 2 * 60000 +
    number 13 2 * 1000 + number 16 3

/-- The moment of a text, if it is one that `toISOString` writes. -/
def isoDate (text : JsString) : ℤ :=
  if text.head? = some 0x2B then isoFields (numeral ((text.drop 1).take 6)) (text.drop 7)
  else if text.head? = some 0x2D then isoFields (-numeral ((text.drop 1).take 6)) (text.drop 7)
  else isoFields (numeral (text.take 4)) (text.drop 4)

/-- `Date.parse` on the texts that `toISOString` writes. -/
def parseISOString (text : JsString) : Option ℤ :=
  if toISOString (isoDate text) = some text then some (isoDate text) else none

example : parseISOString (js "2023-11-14T22:13:20.123Z") = some 1700000000123 := by decide +kernel

/-- The rest of a text. -/
def isoRest (month day time : ℕ) : JsString :=
  js "-" ++ digits 2 month ++ js "-" ++ digits 2 day ++ js "T" ++ digits 2 (time / 3600000) ++ js ":" ++
    digits 2 (time / 60000 % 60) ++ js ":" ++ digits 2 (time / 1000 % 60) ++ js "." ++
    digits 3 (time % 1000) ++ js "Z"

theorem isoFields_append {month day hours minutes seconds milliseconds : JsString}
    (hmonth : month.length = 2) (hday : day.length = 2) (hhours : hours.length = 2)
    (hminutes : minutes.length = 2) (hseconds : seconds.length = 2) (hmillis : milliseconds.length = 3)
    (year : ℤ) :
    isoFields year (js "-" ++ month ++ js "-" ++ day ++ js "T" ++ hours ++ js ":" ++ minutes ++ js ":" ++
      seconds ++ js "." ++ milliseconds ++ js "Z") =
        daysFromCivil year (numeral month) (numeral day) * 86400000 + numeral hours * 3600000 +
          numeral minutes * 60000 + numeral seconds * 1000 + numeral milliseconds := by
  obtain ⟨_, _, rfl⟩ := List.length_eq_two.mp hmonth
  obtain ⟨_, _, rfl⟩ := List.length_eq_two.mp hday
  obtain ⟨_, _, rfl⟩ := List.length_eq_two.mp hhours
  obtain ⟨_, _, rfl⟩ := List.length_eq_two.mp hminutes
  obtain ⟨_, _, rfl⟩ := List.length_eq_two.mp hseconds
  obtain ⟨_, _, _, rfl⟩ := List.length_eq_three.mp hmillis
  have hminus : js "-" = [0x2D] := by decide
  have ht : js "T" = [0x54] := by decide
  have hcolon : js ":" = [0x3A] := by decide
  have hpoint : js "." = [0x2E] := by decide
  simp only [isoFields, hminus, ht, hcolon, hpoint, List.cons_append, List.nil_append,
    List.drop_succ_cons, List.drop_zero, List.take_succ_cons, List.take_zero]

theorem isoFields_isoRest {year : ℤ} {month day time : ℕ} (hmonth : month < 100) (hday : day < 100)
    (htime : time < 86400000) :
    isoFields year (isoRest month day time) = daysFromCivil year month day * 86400000 + time := by
  have hfield : ∀ width n, n < 10 ^ width → numeral (digits width n) = n := fun width n h ↦ by
    rw [numeral_digits, Nat.mod_eq_of_lt h]
  rw [isoRest, isoFields_append (length_digits _ _) (length_digits _ _) (length_digits _ _)
    (length_digits _ _) (length_digits _ _) (length_digits _ _), hfield 2 month (by omega),
    hfield 2 day (by omega), hfield 2 (time / 3600000) (by omega), hfield 2 (time / 60000 % 60) (by omega),
    hfield 2 (time / 1000 % 60) (by omega), hfield 3 (time % 1000) (by omega)]
  omega

/-- The year of a text comes before its rest. -/
theorem isoDate_isoYear {year : ℤ} (h : year.natAbs < 1000000) (rest : JsString) :
    isoDate (isoYear year ++ rest) = isoFields year rest := by
  unfold isoYear
  split
  · next hfour =>
    have hhead : ∀ u, (digits 4 year.toNat ++ rest).head? = some u → 0x30 ≤ u.toNat := by
      intro u hu
      obtain rfl : (0x30 + year.toNat / 10 / 10 / 10 % 10).toUInt16 = u := Option.some.inj hu
      rw [toNat_digit (Nat.mod_lt _ (by decide))]
      exact Nat.le_add_right _ _
    have hplus : (digits 4 year.toNat ++ rest).head? ≠ some 0x2B := fun hu ↦ by
      have := hhead _ hu
      contradiction
    have hminus : (digits 4 year.toNat ++ rest).head? ≠ some 0x2D := fun hu ↦ by
      have := hhead _ hu
      contradiction
    rw [isoDate, if_neg hplus, if_neg hminus, List.take_left' (length_digits _ _),
      List.drop_left' (length_digits _ _), numeral_digits, Nat.mod_eq_of_lt (by omega)]
    congr 1
    omega
  · split
    · change isoFields (-numeral (digits 6 year.natAbs)) rest = isoFields year rest
      rw [numeral_digits, Nat.mod_eq_of_lt (by omega)]
      congr 1
      omega
    · change isoFields (numeral (digits 6 year.natAbs)) rest = isoFields year rest
      rw [numeral_digits, Nat.mod_eq_of_lt (by omega)]
      congr 1
      omega

/-- What `toISOString` writes is read back. -/
theorem parseISOString_toISOString {milliseconds : ℤ} {text : JsString}
    (h : toISOString milliseconds = some text) : parseISOString text = some milliseconds := by
  have hdate : isoDate text = milliseconds := by
    unfold toISOString at h
    split at h
    · cases h
    · next hrange =>
      obtain ⟨hlow, hhigh⟩ := abs_le.mp (not_lt.mp hrange)
      have hdays : |milliseconds / 86400000| ≤ 100000000 := abs_le.mpr ⟨by omega, by omega⟩
      obtain ⟨hmonth, hday, hyear⟩ := civil_lt _ hdays
      have hback := daysFromCivil_civil (milliseconds / 86400000)
      generalize civil (milliseconds / 86400000) = date at *
      obtain ⟨year, month, day⟩ := date
      have htext : isoYear year ++ isoRest month day (milliseconds % 86400000).toNat = text := by
        rw [← Option.some.inj h]
        simp only [isoRest, List.append_assoc]
      rw [← htext, isoDate_isoYear hyear, isoFields_isoRest hmonth hday (by omega), hback]
      omega
  rw [parseISOString, hdate, if_pos h]

/-- A moment is determined by its text. -/
theorem toISOString_injective {milliseconds milliseconds' : ℤ} {text : JsString}
    (h : toISOString milliseconds = some text) (h' : toISOString milliseconds' = some text) :
    milliseconds = milliseconds' :=
  Option.some.inj ((parseISOString_toISOString h).symm.trans (parseISOString_toISOString h'))

/-! ## Quotation -/

/-- The units from `+` to `Z`, none of which is escaped. -/
def Unescaped (text : JsString) : Prop := ∀ u ∈ text, 0x2B ≤ u.toNat ∧ u.toNat ≤ 0x5A

theorem Unescaped.append {a b : JsString} (ha : Unescaped a) (hb : Unescaped b) : Unescaped (a ++ b) :=
  fun u hu ↦ (List.mem_append.mp hu).elim (ha u) (hb u)

instance (text : JsString) : Decidable (Unescaped text) :=
  List.decidableBAll _ text

theorem unescaped_digits (width n : ℕ) : Unescaped (digits width n) := by
  induction width generalizing n with
  | zero => exact fun u hu ↦ by cases hu
  | succ width ih =>
    refine (ih (n / 10)).append fun u hu ↦ ?_
    obtain rfl := List.mem_singleton.mp hu
    have hlt : n % 10 < 10 := Nat.mod_lt n (by decide)
    rw [toNat_digit hlt]
    omega

theorem unescaped_isoYear (year : ℤ) : Unescaped (isoYear year) := by
  unfold isoYear
  split
  · exact unescaped_digits _ _
  · split
    · exact Unescaped.append (by decide +kernel) (unescaped_digits _ _)
    · exact Unescaped.append (by decide +kernel) (unescaped_digits _ _)

theorem unescaped_toISOString {milliseconds : ℤ} {text : JsString}
    (h : toISOString milliseconds = some text) : Unescaped text := by
  have hminus : Unescaped (js "-") := by decide +kernel
  have ht : Unescaped (js "T") := by decide +kernel
  have hcolon : Unescaped (js ":") := by decide +kernel
  have hpoint : Unescaped (js ".") := by decide +kernel
  have hz : Unescaped (js "Z") := by decide +kernel
  unfold toISOString at h
  split at h
  · cases h
  · rw [← Option.some.inj h]
    exact (((((((((((((unescaped_isoYear _).append hminus).append (unescaped_digits _ _)).append
      hminus).append (unescaped_digits _ _)).append ht).append (unescaped_digits _ _)).append
      hcolon).append (unescaped_digits _ _)).append hcolon).append (unescaped_digits _ _)).append
      hpoint).append (unescaped_digits _ _)).append hz

theorem quoteUnit_of_unescaped {u : UInt16} (h : 0x2B ≤ u.toNat ∧ u.toNat ≤ 0x5A) : quoteUnit u = [u] := by
  have hcases : ∀ n : Fin 0x30, quoteUnit (0x2B + n.val).toUInt16 = [(0x2B + n.val).toUInt16] := by decide
  have hu : u = (0x2B + (u.toNat - 0x2B)).toUInt16 := by
    rw [Nat.add_sub_cancel' h.1]
    exact (UInt16.ofNat_toNat).symm
  rw [hu]
  exact hcases ⟨u.toNat - 0x2B, by omega⟩

theorem quoteUnits_of_unescaped {text : JsString} (h : Unescaped text) : quoteUnits text = text := by
  induction text using quoteUnits.induct with
  | case1 u v rest hpair ih =>
    have hu := (h u List.mem_cons_self).2
    simp only [Bool.and_eq_true, decide_eq_true_eq, UInt16.le_iff_toNat_le] at hpair
    have hlow : (0xD800 : UInt16).toNat = 0xD800 := rfl
    omega
  | case2 u v rest hpair ih =>
    rw [quoteUnits, if_neg hpair, quoteUnit_of_unescaped (h u List.mem_cons_self),
      ih fun w hw ↦ h w (List.mem_cons_of_mem u hw)]
    rfl
  | case3 u => exact quoteUnit_of_unescaped (h u List.mem_cons_self)
  | case4 => rfl

/-- The text of an unescaped string ends at the next quotation mark. -/
theorem eq_of_quote_append {a b c d : JsString} (ha : Unescaped a) (hb : Unescaped b)
    (h : quote a ++ c = quote b ++ d) : a = b := by
  have hstop : ∀ {text : JsString}, Unescaped text → ∀ rest : JsString,
      (text ++ 0x22 :: rest).takeWhile (· ≠ 0x22) = text := by
    intro text htext rest
    have hne : ∀ u ∈ text, decide (u ≠ 0x22) = true := by
      intro u hu
      have hlow := (htext u hu).1
      refine decide_eq_true fun heq ↦ ?_
      rw [heq] at hlow
      contradiction
    rw [List.takeWhile_append_of_pos hne, List.takeWhile_cons_of_neg (by decide), List.append_nil]
  rw [quote, quote, quoteUnits_of_unescaped ha, quoteUnits_of_unescaped hb] at h
  simp only [List.cons_append, List.nil_append, List.append_assoc, List.cons.injEq, true_and] at h
  rw [← hstop ha c, h, hstop hb d]

end MidnightReferendum.Js
