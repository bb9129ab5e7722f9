import Mathlib.Data.Int.ConditionallyCompleteOrder
import Mathlib.Order.ConditionallyCompleteLattice.Basic
import Mathlib.Order.Monotone.Basic
import MidnightReferendum.Js.Dates

/-!
# Calendar dates

The dates of the Gregorian calendar, extended to all years, in their order. The year, the month and the day of a
moment are those of the one date on which it falls, and `Date.UTC` is the moment at which a date begins.
-/

namespace MidnightReferendum.Js

def IsLeap (year : ℤ) : Prop := year % 4 = 0 ∧ (year % 100 ≠ 0 ∨ year % 400 = 0)

instance (year : ℤ) : Decidable (IsLeap year) := inferInstanceAs (Decidable (_ ∧ _))

def monthLength (year : ℤ) (month : ℕ) : ℕ :=
  if month = 2 then (if IsLeap year then 29 else 28)
  else if month = 4 ∨ month = 6 ∨ month = 9 ∨ month = 11 then 30
  else 31

/-- A date of the calendar. -/
structure CalendarDate where
  year : ℤ
  month : ℕ
  day : ℕ
  one_le_month : 1 ≤ month
  month_le : month ≤ 12
  one_le_day : 1 ≤ day
  day_le : day ≤ monthLength year month

/-- The days from 1970-01-01 to a date. -/
def CalendarDate.days (d : CalendarDate) : ℤ := daysFromCivil d.year d.month d.day

/-- The days from 1970-01-01 to 1 March of a year. -/
def marchDays (year : ℤ) : ℤ := 365 * year + year / 4 - year / 100 + year / 400 - 719468

/-- The days from 1 March to the first of a month. -/
def monthDays (month : ℕ) : ℕ := (153 * (if month ≤ 2 then month + 9 else month - 3) + 2) / 5

theorem daysFromCivil_eq {year : ℤ} {month day : ℕ} (hday : 1 ≤ day) :
    daysFromCivil year month day =
      marchDays (if month ≤ 2 then year - 1 else year) + monthDays month + day - 1 := by
  have hera : ∀ shifted : ℤ, shifted / 400 * 146097 + 365 * (shifted % 400) + (shifted % 400) / 4 -
      (shifted % 400) / 100 = 365 * shifted + shifted / 4 - shifted / 100 + shifted / 400 := by
    intro shifted
    omega
  have hspec := hera (if month ≤ 2 then year - 1 else year)
  simp only [daysFromCivil, marchDays, monthDays]
  generalize (if month ≤ 2 then year - 1 else year) = shifted at *
  generalize (if month ≤ 2 then month + 9 else month - 3) = shiftedMonth
  omega

theorem marchDays_sub_one (year : ℤ) :
    marchDays (year - 1) + (if IsLeap year then 366 else 365) = marchDays year := by
  by_cases hleap : IsLeap year
  · rw [if_pos hleap]
    unfold marchDays
    unfold IsLeap at hleap
    omega
  · rw [if_neg hleap]
    unfold marchDays
    unfold IsLeap at hleap
    omega

/-- The months of a year follow each other. -/
theorem daysFromCivil_add_monthLength {year : ℤ} {month : ℕ} (hlow : 1 ≤ month) (hhigh : month < 12) :
    daysFromCivil year month 1 + monthLength year month = daysFromCivil year (month + 1) 1 := by
  rw [daysFromCivil_eq le_rfl, daysFromCivil_eq le_rfl]
  obtain rfl | rfl | hmarch : month = 1 ∨ month = 2 ∨ 3 ≤ month := by omega
  · have hjanuary : monthDays 1 = 306 := rfl
    have hfebruary : monthDays 2 = 337 := rfl
    have hlength : monthLength year 1 = 31 := rfl
    rw [if_pos (by decide), if_pos (by decide), hjanuary, hfebruary, hlength]
    omega
  · have hfebruary : monthDays 2 = 337 := rfl
    have hmarch : monthDays 3 = 0 := rfl
    have hlength : monthLength year 2 = if IsLeap year then 29 else 28 := rfl
    have hyear := marchDays_sub_one year
    rw [if_pos (by decide), if_neg (by decide), hfebruary, hmarch, hlength]
    split at hyear <;> simp_all <;> omega
  · have hdays : monthDays month + monthLength year month = monthDays (month + 1) := by
      obtain rfl | rfl | rfl | rfl | rfl | rfl | rfl | rfl | rfl : month = 3 ∨ month = 4 ∨ month = 5 ∨ month = 6 ∨
        month = 7 ∨ month = 8 ∨ month = 9 ∨ month = 10 ∨ month = 11 := by omega
      all_goals rfl
    rw [if_neg (by omega), if_neg (by omega)]
    omega

/-- The first of a month, where the months of all years are numbered. -/
def monthStart (index : ℤ) : ℤ := daysFromCivil (index / 12) ((index % 12).toNat + 1) 1

def CalendarDate.index (d : CalendarDate) : ℤ := 12 * d.year + d.month - 1

theorem monthStart_succ (index : ℤ) :
    monthStart index + monthLength (index / 12) ((index % 12).toNat + 1) = monthStart (index + 1) := by
  unfold monthStart
  by_cases hdecember : index % 12 = 11
  · have hyear : (index + 1) / 12 = index / 12 + 1 := by omega
    have hthis : (index % 12).toNat + 1 = 12 := by omega
    have hnext : ((index + 1) % 12).toNat + 1 = 1 := by omega
    have hlength : monthLength (index / 12) 12 = 31 := rfl
    have hmonth : monthDays 12 = 275 := rfl
    have hjanuary : monthDays 1 = 306 := rfl
    rw [hyear, hthis, hnext, hlength, daysFromCivil_eq le_rfl, daysFromCivil_eq le_rfl, if_neg (by decide),
      if_pos (by decide), hmonth, hjanuary, Int.add_sub_cancel]
    omega
  · have hyear : (index + 1) / 12 = index / 12 := by omega
    have hnext : ((index + 1) % 12).toNat = (index % 12).toNat + 1 := by omega
    rw [hyear, hnext]
    exact daysFromCivil_add_monthLength (by omega) (by omega)

/-- The day of a month, also after its end. -/
theorem daysFromCivil_eq_monthStart {year : ℤ} {month day : ℕ} (hlow : 1 ≤ month) (hhigh : month ≤ 12)
    (hday : 1 ≤ day) : daysFromCivil year month day = monthStart (12 * year + month - 1) + day - 1 := by
  have hyear : (12 * year + month - 1) / 12 = year := by omega
  have hmonth : ((12 * year + month - 1) % 12).toNat + 1 = month := by omega
  rw [monthStart, hyear, hmonth, daysFromCivil_eq hday, daysFromCivil_eq le_rfl]
  omega

theorem monthLength_pos (year : ℤ) (month : ℕ) : 0 < monthLength year month := by
  unfold monthLength
  split_ifs <;> decide

theorem monthStart_strictMono : StrictMono monthStart := by
  refine strictMono_int_of_lt_succ fun index ↦ ?_
  have hlength := monthLength_pos (index / 12) ((index % 12).toNat + 1)
  have hsucc := monthStart_succ index
  omega

namespace CalendarDate

variable (d e : CalendarDate)

theorem index_div : d.index / 12 = d.year := by
  have hlow := d.one_le_month
  have hhigh := d.month_le
  unfold index
  omega

theorem index_mod : (d.index % 12).toNat + 1 = d.month := by
  have hlow := d.one_le_month
  have hhigh := d.month_le
  unfold index
  omega

theorem days_eq : d.days = monthStart d.index + d.day - 1 :=
  daysFromCivil_eq_monthStart d.one_le_month d.month_le d.one_le_day

theorem days_lt_monthStart : d.days < monthStart (d.index + 1) := by
  have hday := d.day_le
  have hsucc := monthStart_succ d.index
  rw [d.index_div, d.index_mod] at hsucc
  rw [d.days_eq]
  omega

/-- The dates are ordered by their months, and within a month by their days. -/
theorem days_lt_iff : d.days < e.days ↔ d.index < e.index ∨ d.index = e.index ∧ d.day < e.day := by
  obtain hlt | heq | hgt := lt_trichotomy d.index e.index
  · have hnext := d.days_lt_monthStart
    have hmono := monthStart_strictMono.monotone (Int.add_one_le_of_lt hlt)
    have hday := e.one_le_day
    have hdays := e.days_eq
    omega
  · rw [d.days_eq, e.days_eq, heq]
    omega
  · have hnext := e.days_lt_monthStart
    have hmono := monthStart_strictMono.monotone (Int.add_one_le_of_lt hgt)
    have hday := d.one_le_day
    have hdays := d.days_eq
    omega

/-- A day is one date. -/
theorem eq_of_days_eq {d e : CalendarDate} (h : d.days = e.days) : d.year = e.year ∧ d.month = e.month ∧ d.day = e.day := by
  have hlt := d.days_lt_iff e
  have hgt := e.days_lt_iff d
  have hindex : d.index = e.index ∧ d.day = e.day := by omega
  exact ⟨by rw [← d.index_div, ← e.index_div, hindex.1], by rw [← d.index_mod, ← e.index_mod, hindex.1], hindex.2⟩

end CalendarDate

/-! ## The date of a day -/

/-- The last day of a leap year, where the years begin in March. -/
theorem leap_of_lastDay {dayOfEra : ℕ} (h : dayOfEra < 146097) {yearOfEra : ℕ}
    (hyear : (dayOfEra - dayOfEra / 1460 + dayOfEra / 36524 - dayOfEra / 146096) / 365 = yearOfEra)
    (hlast : dayOfEra = 365 * yearOfEra + yearOfEra / 4 - yearOfEra / 100 + 365) (era : ℤ) :
    IsLeap (yearOfEra + era * 400 + 1) := by
  obtain ⟨century, fourYears, year, day, hsplit, hcentury, hfour, hyears, hday, hleap⟩ := dayOfEra_eq h
  rw [yearOfEra_eq hsplit hcentury hfour hyears hday hleap] at hyear
  have hfours : yearOfEra / 4 = 25 * century + fourYears := by omega
  have hcenturies : yearOfEra / 100 = century := by omega
  rw [hfours, hcenturies] at hlast
  obtain ⟨rfl, hthird⟩ := hleap (by omega)
  unfold IsLeap
  omega

/-- The length of a month by its place after March. -/
theorem monthLength_shifted (year : ℤ) {shifted : ℕ} (h : shifted < 11) :
    monthLength year (if shifted < 10 then shifted + 3 else shifted - 9) =
      (153 * (shifted + 1) + 2) / 5 - (153 * shifted + 2) / 5 := by
  obtain rfl | rfl | rfl | rfl | rfl | rfl | rfl | rfl | rfl | rfl | rfl : shifted = 0 ∨ shifted = 1 ∨
    shifted = 2 ∨ shifted = 3 ∨ shifted = 4 ∨ shifted = 5 ∨ shifted = 6 ∨ shifted = 7 ∨ shifted = 8 ∨
      shifted = 9 ∨ shifted = 10 := by omega
  all_goals rfl

theorem civil_spec (days : ℤ) :
    1 ≤ (civil days).2.1 ∧ (civil days).2.1 ≤ 12 ∧ 1 ≤ (civil days).2.2 ∧
      (civil days).2.2 ≤ monthLength (civil days).1 (civil days).2.1 := by
  obtain ⟨era, hera⟩ : ∃ era, (days + 719468) / 146097 = era := ⟨_, rfl⟩
  obtain ⟨dayOfEra, hdayOfEra⟩ : ∃ dayOfEra, ((days + 719468) % 146097).toNat = dayOfEra := ⟨_, rfl⟩
  have hlt : dayOfEra < 146097 := by omega
  obtain ⟨yearOfEra, hyear⟩ : ∃ yearOfEra,
      (dayOfEra - dayOfEra / 1460 + dayOfEra / 36524 - dayOfEra / 146096) / 365 = yearOfEra := ⟨_, rfl⟩
  obtain ⟨_, hstart, hend⟩ := yearOfEra_spec hlt hyear
  have hleap := leap_of_lastDay hlt hyear
  obtain ⟨dayOfYear, hday⟩ : ∃ dayOfYear,
      dayOfEra - (365 * yearOfEra + yearOfEra / 4 - yearOfEra / 100) = dayOfYear := ⟨_, rfl⟩
  obtain ⟨shifted, hshift⟩ : ∃ shifted, (5 * dayOfYear + 2) / 153 = shifted := ⟨_, rfl⟩
  have hlast : dayOfYear ≤ 364 ∨ IsLeap (yearOfEra + era * 400 + 1) ∧ dayOfYear = 365 := by
    by_cases hle : dayOfYear ≤ 364
    · exact Or.inl hle
    · exact Or.inr ⟨hleap (by omega) era, by omega⟩
  simp only [civil, hera, hdayOfEra, hyear, hday, hshift]
  clear hdayOfEra hyear hstart hend hday hleap
  by_cases hmonth : shifted < 11
  · rw [monthLength_shifted _ hmonth]
    clear hlast
    refine ⟨?_, ?_, Nat.le_add_left 1 _, by omega⟩
    · split <;> omega
    · split <;> omega
  · obtain rfl : shifted = 11 := by omega
    refine ⟨by decide, by decide, Nat.le_add_left 1 _, ?_⟩
    change dayOfYear - 337 + 1 ≤ if IsLeap (yearOfEra + era * 400 + 1) then 29 else 28
    obtain hle | ⟨hyear, hdays⟩ := hlast
    · split <;> omega
    · rw [if_pos hyear]
      omega

/-- The date of a day. -/
def civilDate (days : ℤ) : CalendarDate where
  year := (civil days).1
  month := (civil days).2.1
  day := (civil days).2.2
  one_le_month := (civil_spec days).1
  month_le := (civil_spec days).2.1
  one_le_day := (civil_spec days).2.2.1
  day_le := (civil_spec days).2.2.2

theorem days_civilDate (days : ℤ) : (civilDate days).days = days := daysFromCivil_civil days

/-! ## Moments -/

/-- The date of a moment. -/
def utcDate (moment : ℤ) : CalendarDate := civilDate (moment / 86400000)

/-- `Date.UTC(year, month, day)`, where months count from 0 and a year below 100 is one of the twentieth century. Months
and days outside of their range are those of other years and months. -/
def dateUTC (year month day : ℤ) : Option ℤ :=
  let fullYear := if 0 ≤ year ∧ year ≤ 99 then 1900 + year else year
  let moment := (monthStart (12 * fullYear + month) + day - 1) * 86400000
  if 8640000000000000 < |moment| then none else some moment

end MidnightReferendum.Js
