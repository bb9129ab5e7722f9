import MidnightReferendum.Documents.Mrz

/-!
# The threshold of adulthood

`ageThresholdDate` and `asciiDateHex` of `rarimo-credential-adapter.ts`, from which the verifier gets its upper bound of
birth dates, beside the count of whole years.
-/

namespace MidnightReferendum.Documents

open Js

/-- A moment that a `Date` can hold. -/
def IsMoment (moment : ℤ) : Prop := |moment| ≤ 8640000000000000

instance (moment : ℤ) : Decidable (IsMoment moment) := inferInstanceAs (Decidable (_ ≤ _))

/-- The moment at which a date begins. -/
def startOf (d : CalendarDate) : ℤ := d.days * 86400000

/-- `ageThresholdDate`. A day that the month of the earlier year does not have is one of the next month. -/
def ageThresholdDate (now age : ℤ) : Option ℤ :=
  let date := utcDate now
  let moment := daysFromCivil (date.year - age) date.month date.day * 86400000 + now % 86400000
  if 8640000000000000 < |moment| then none else some moment

/-- `String(value).padStart(2, '0')` -/
def twoDigits (value : ℤ) : JsString :=
  let text := (if value < 0 then js "-" else []) ++ decimal value.natAbs
  List.replicate (2 - text.length) 0x30 ++ text

def asciiDateHex (date : ℤ) : JsString :=
  let d := utcDate date
  js "0x" ++ (twoDigits (d.year.tmod 100) ++ twoDigits d.month ++ twoDigits d.day).flatMap fun u ↦
    [hexUnit (u.toNat / 0x10), hexUnit (u.toNat % 0x10)]

/-- The upper bound of birth dates in a verification request. -/
def birthDateUpperBound (requireAdult : Bool) (now : ℤ) : Option JsString :=
  if requireAdult then (ageThresholdDate now 18).map asciiDateHex else some (js "0x303030303030")

/-- A birth date is admitted by the bound if and only if eighteen whole years have passed. -/
def Admits (now : ℤ) (d : CalendarDate) : Prop :=
  (∃ threshold, ageThresholdDate now 18 = some threshold ∧ d.days ≤ (utcDate threshold).days) ↔
    18 ≤ yearsBetween (startOf d) now

/-! ## The date of the threshold -/

theorem utcDate_startOf (d : CalendarDate) :
    (utcDate (startOf d)).year = d.year ∧ (utcDate (startOf d)).month = d.month ∧ (utcDate (startOf d)).day = d.day := by
  have hdays : (utcDate (startOf d)).days = d.days := by
    rw [utcDate, days_civilDate, startOf, Int.mul_ediv_cancel _ (by decide)]
  exact CalendarDate.eq_of_days_eq hdays

/-- The last birth day that the threshold admits. -/
def thresholdDays (now : ℤ) : ℤ := daysFromCivil ((utcDate now).year - 18) (utcDate now).month (utcDate now).day

theorem thresholdDays_eq (now : ℤ) :
    thresholdDays now = monthStart ((utcDate now).index - 216) + (utcDate now).day - 1 := by
  have hindex : 12 * ((utcDate now).year - 18) + (utcDate now).month - 1 = (utcDate now).index - 216 := by
    unfold CalendarDate.index
    omega
  rw [thresholdDays, daysFromCivil_eq_monthStart (utcDate now).one_le_month (utcDate now).month_le
    (utcDate now).one_le_day, hindex]

theorem thresholdDays_le (now : ℤ) : thresholdDays now ≤ now / 86400000 := by
  have hdays : now / 86400000 = monthStart (utcDate now).index + (utcDate now).day - 1 := by
    rw [← CalendarDate.days_eq, utcDate, days_civilDate]
  have hmono := monthStart_strictMono.monotone (by omega : (utcDate now).index - 216 ≤ (utcDate now).index)
  have hthreshold := thresholdDays_eq now
  omega

/-- A threshold that is no `Date` is before all birth dates. -/
theorem admitted_iff {now : ℤ} (hnow : IsMoment now) {d : CalendarDate} (hd : IsMoment (startOf d)) :
    (∃ threshold, ageThresholdDate now 18 = some threshold ∧ d.days ≤ (utcDate threshold).days) ↔
      d.days ≤ thresholdDays now := by
  have hle := thresholdDays_le now
  have hnow' := abs_le.mp hnow
  have hd' := abs_le.mp hd
  rw [ageThresholdDate]
  change (∃ threshold, (if 8640000000000000 < |thresholdDays now * 86400000 + now % 86400000| then none
    else some (thresholdDays now * 86400000 + now % 86400000)) = some threshold ∧ _) ↔ _
  split
  · next hout =>
    have hbefore : ¬d.days ≤ thresholdDays now := by
      obtain hlow | hhigh := lt_abs.mp hout
      · omega
      · rw [startOf] at hd'
        omega
    exact iff_of_false (fun ⟨threshold, hnone, _⟩ ↦ by cases hnone) hbefore
  · have hdays : (utcDate (thresholdDays now * 86400000 + now % 86400000)).days = thresholdDays now := by
      rw [utcDate, days_civilDate]
      omega
    constructor
    · rintro ⟨threshold, hthreshold, hadmitted⟩
      obtain rfl := Option.some.inj hthreshold
      rwa [hdays] at hadmitted
    · exact fun hadmitted ↦ ⟨_, rfl, by rwa [hdays]⟩

/-- Eighteen whole years have passed since the same day of the year eighteen years ago, and not before. -/
theorem yearsBetween_iff (now : ℤ) (d : CalendarDate) :
    18 ≤ yearsBetween (startOf d) now ↔
      d.index < (utcDate now).index - 216 ∨ d.index = (utcDate now).index - 216 ∧ d.day ≤ (utcDate now).day := by
  obtain ⟨hyear, hmonth, hday⟩ := utcDate_startOf d
  have hlow := d.one_le_month
  have hhigh := d.month_le
  have hlow' := (utcDate now).one_le_month
  have hhigh' := (utcDate now).month_le
  rw [yearsBetween, hyear, hmonth, hday, CalendarDate.index, CalendarDate.index]
  split <;> omega

/-- The day of a month is one of the month eighteen years before, but for 29 February. -/
theorem day_le_earlier (now : ℤ) :
    (utcDate now).day ≤ monthLength ((utcDate now).year - 18) (utcDate now).month ∧
        ¬((utcDate now).month = 2 ∧ (utcDate now).day = 29) ∨
      (utcDate now).month = 2 ∧ (utcDate now).day = 29 ∧ monthLength ((utcDate now).year - 18) 2 = 28 := by
  have hday := (utcDate now).day_le
  by_cases hmonth : (utcDate now).month = 2
  · rw [hmonth, monthLength, if_pos rfl] at hday
    rw [hmonth, monthLength, if_pos rfl]
    by_cases hleap : IsLeap (utcDate now).year
    · have hearlier : ¬IsLeap ((utcDate now).year - 18) := by
        unfold IsLeap at hleap ⊢
        omega
      rw [if_pos hleap] at hday
      rw [if_neg hearlier]
      omega
    · rw [if_neg hleap] at hday
      refine Or.inl ⟨hday.trans ?_, by omega⟩
      split <;> decide
  · rw [monthLength, if_neg hmonth] at hday
    rw [monthLength, if_neg hmonth]
    exact Or.inl ⟨hday, fun h ↦ hmonth h.1⟩

/-- The bound admits the birth date of every adult and of nobody younger, but for one date: on 29 February it admits
1 March of the year eighteen years before. -/
theorem bound_admits_iff {now : ℤ} (hnow : IsMoment now) {d : CalendarDate} (hd : IsMoment (startOf d)) :
    Admits now d ↔
      ¬((utcDate now).month = 2 ∧ (utcDate now).day = 29 ∧ d.year = (utcDate now).year - 18 ∧ d.month = 3 ∧
        d.day = 1) := by
  have hlow := d.one_le_month
  have hhigh := d.month_le
  have hday := d.one_le_day
  have hlow' := (utcDate now).one_le_month
  have hhigh' := (utcDate now).month_le
  have hindex : (utcDate now).index = 12 * (utcDate now).year + (utcDate now).month - 1 := rfl
  have hindex' : d.index = 12 * d.year + d.month - 1 := rfl
  have hdays := d.days_eq
  rw [Admits, admitted_iff hnow hd, yearsBetween_iff, thresholdDays_eq]
  -- The month of the threshold, with the first of the next month.
  have hsucc := monthStart_succ ((utcDate now).index - 216)
  have hyear : ((utcDate now).index - 216) / 12 = (utcDate now).year - 18 := by omega
  have hmonth : (((utcDate now).index - 216) % 12).toNat + 1 = (utcDate now).month := by omega
  rw [hyear, hmonth] at hsucc
  have hlast := day_le_earlier now
  obtain hbefore | hsame | hnext | hafter : d.index < (utcDate now).index - 216 ∨ d.index = (utcDate now).index - 216 ∨
      d.index = (utcDate now).index - 216 + 1 ∨ (utcDate now).index - 216 + 1 < d.index := by omega
  · have hend := d.days_lt_monthStart
    have hmono := monthStart_strictMono.monotone (Int.add_one_le_of_lt hbefore)
    have hpos := (utcDate now).one_le_day
    exact iff_of_true (by omega) (by omega)
  · rw [hsame] at hdays
    exact iff_of_true (by omega) (by omega)
  · -- Only a day after the end of the month is in the next one.
    rw [hnext] at hdays
    obtain ⟨hday', hother⟩ | ⟨hfebruary, hleap, hlength⟩ := hlast
    · exact iff_of_true (by omega) (by omega)
    · rw [hfebruary, hlength] at hsucc
      omega
  · have hmono := monthStart_strictMono hafter
    have hpos := monthLength_pos ((utcDate now).year - 18) (utcDate now).month
    obtain ⟨hday', hother⟩ | ⟨hfebruary, hleap, hlength⟩ := hlast
    · exact iff_of_true (by omega) (by omega)
    · rw [hfebruary, hlength] at hsucc
      exact iff_of_true (by omega) (by omega)

theorem bound_admits_iff_sample : Admits 1709164800000 ⟨2006, 2, 28, by decide, by decide, by decide, by decide⟩ :=
  (bound_admits_iff (by decide) (show IsMoment _ by decide +kernel)).mpr (by decide +kernel)

/-- On 29 February 2024 the bound is 1 March 2006, and whoever was born then is seventeen. -/
theorem leap_day_admits_minor :
    birthDateUpperBound true 1709164800000 = some (js "0x303630333031") ∧
      yearsBetween (startOf ⟨2006, 3, 1, by decide, by decide, by decide, by decide⟩) 1709164800000 = 17 ∧
        ¬Admits 1709164800000 ⟨2006, 3, 1, by decide, by decide, by decide, by decide⟩ := by
  refine ⟨by decide +kernel, by decide +kernel, fun h ↦ ?_⟩
  have hadult := h.mp ⟨1141171200000, by decide +kernel, by decide +kernel⟩
  exact absurd hadult (by decide +kernel)

end MidnightReferendum.Documents
