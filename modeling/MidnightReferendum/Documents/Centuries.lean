import MidnightReferendum.Documents.Adulthood

/-!
# The centuries of a passport

`expandMrzDate` finds the century of a date by the two digits of its year alone. The year that it takes is one of a
hundred, which are those of the last hundred years or of the century, and not the ones around the reference day.
-/

namespace MidnightReferendum.Documents

open Js

/-- The six digits of a date. The two of its year are the remainder by 100, also before the year 0. -/
def yymmdd (d : CalendarDate) : JsString := twoDigits (d.year % 100) ++ (twoDigits d.month ++ twoDigits d.day)

/-- `d`, some years later, is before `e`. -/
def EarlierBy (years : ℤ) (d e : CalendarDate) : Prop :=
  d.index + 12 * years < e.index ∨ d.index + 12 * years = e.index ∧ d.day < e.day

instance (years : ℤ) (d e : CalendarDate) : Decidable (EarlierBy years d e) := inferInstanceAs (Decidable (_ ∨ _))

/-- In the hundred years up to and including the reference day. -/
def BornWithin (now : ℤ) (d : CalendarDate) : Prop := EarlierBy (-100) (utcDate now) d ∧ ¬EarlierBy 0 (utcDate now) d

/-- Less than fifty years before or after the reference day. -/
def ExpiresWithin (now : ℤ) (d : CalendarDate) : Prop := EarlierBy (-50) (utcDate now) d ∧ EarlierBy (-50) d (utcDate now)

instance (now : ℤ) (d : CalendarDate) : Decidable (BornWithin now d) := inferInstanceAs (Decidable (_ ∧ _))

instance (now : ℤ) (d : CalendarDate) : Decidable (ExpiresWithin now d) := inferInstanceAs (Decidable (_ ∧ _))

/-- What is to hold for a date and a reference moment. -/
structure CenturyRight (now : ℤ) (d : CalendarDate) : Prop where
  birth : BornWithin now d → expandMrzDate (yymmdd d) .birth now = some (startOf d)
  past : ∀ moment, expandMrzDate (yymmdd d) .birth now = some moment → moment ≤ now
  expiry : ExpiresWithin now d → expandMrzDate (yymmdd d) .expiry now = some (startOf d)
  expired : ∀ (record : MrzRecord) (adultAge : ℤ) (eligibility : MrzEligibility), record.expiryDate = yymmdd d →
    toEligibility record now adultAge = some eligibility → EarlierBy (-50) (utcDate now) d → startOf d < now →
      eligibility.isExpired = true
  age : ∀ (record : MrzRecord) (birth : ℤ), record.birthDate = yymmdd d →
    expandMrzDate record.birthDate .birth now = some birth → BornWithin now d → 0 ≤ yearsBetween birth now

/-! ## Candidate years -/

/-- The first of the hundred years from which the code takes the year. -/
def firstYear (kind : DateKind) (reference : ℤ) : ℤ :=
  match kind with
  | .birth => if 0 ≤ reference.tmod 100 then reference - 99 else reference - reference.tmod 100 - 100
  | .expiry => if 50 ≤ reference.tmod 100 then reference - 50 else reference - reference.tmod 100

def CandidateYear (kind : DateKind) (now year : ℤ) : Prop :=
  firstYear kind (utcDate now).year ≤ year ∧ year < firstYear kind (utcDate now).year + 100

/-- The dates that are found: those of a candidate year, where the years below 100 stand for others. -/
def Reaches (kind : DateKind) (now : ℤ) (d : CalendarDate) : Prop :=
  IsMoment (startOf d) ∧
    (CandidateYear kind now d.year ∧ ¬(0 ≤ d.year ∧ d.year ≤ 99) ∨
      CandidateYear kind now (d.year - 1900) ∧ 1900 ≤ d.year ∧ d.year ≤ 1999)

instance (kind : DateKind) (now year : ℤ) : Decidable (CandidateYear kind now year) :=
  inferInstanceAs (Decidable (_ ∧ _))

instance (kind : DateKind) (now : ℤ) (d : CalendarDate) : Decidable (Reaches kind now d) :=
  inferInstanceAs (Decidable (_ ∧ _))

/-- Two digits stand for the candidate year that ends in them. -/
theorem expandYear_eq_iff {kind : DateKind} {now year : ℤ} {yy : ℕ} (hyy : yy < 100) :
    expandYear kind now yy = year ↔ CandidateYear kind now year ∧ year % 100 = yy := by
  have hdivision := Int.mul_tdiv_add_tmod (utcDate now).year 100
  have hlow := Int.lt_tmod_of_pos (utcDate now).year (by decide : (0 : ℤ) < 100)
  have hhigh := Int.tmod_lt_of_pos (utcDate now).year (by decide : (0 : ℤ) < 100)
  unfold expandYear CandidateYear firstYear
  generalize (utcDate now).year.tdiv 100 = quotient at hdivision
  generalize (utcDate now).year.tmod 100 = currentYY at *
  cases kind with
  | birth =>
    simp only
    split <;> split <;> omega
  | expiry =>
    simp only
    split <;> split <;> omega

/-! ## Digits -/

theorem twoDigits_spec {n : ℕ} (h : n < 100) :
    (twoDigits n).length = 2 ∧ (twoDigits n).all isDecimalDigit = true ∧ numeral (twoDigits n) = n := by
  have hall : ∀ n : Fin 100, (twoDigits n.val).length = 2 ∧ (twoDigits n.val).all isDecimalDigit = true ∧
      numeral (twoDigits n.val) = n.val := by decide +kernel
  exact hall ⟨n, h⟩

theorem monthLength_le (year : ℤ) (month : ℕ) : monthLength year month ≤ 31 := by
  unfold monthLength
  split_ifs <;> decide

/-- The two dates have the same six digits. -/
def SameDigits (d e : CalendarDate) : Prop := d.year % 100 = e.year % 100 ∧ d.month = e.month ∧ d.day = e.day

/-- `Date.UTC` with a month and a day that are found again in its date. -/
theorem dateUTC_eq_some {year moment : ℤ} {month day : ℕ} :
    ((dateUTC year (month - 1) day).filter fun date ↦ (utcDate date).month = month ∧ (utcDate date).day = day) =
        some moment ↔
      ∃ e : CalendarDate, (e.year = if 0 ≤ year ∧ year ≤ 99 then 1900 + year else year) ∧ e.month = month ∧
        e.day = day ∧ IsMoment (startOf e) ∧ startOf e = moment := by
  unfold dateUTC
  simp only
  generalize (if 0 ≤ year ∧ year ≤ 99 then 1900 + year else year) = fullYear
  rw [Option.filter_eq_some_iff]
  constructor
  · rintro ⟨hdate, hfields⟩
    rw [decide_eq_true_eq] at hfields
    split at hdate
    · cases hdate
    next hrange =>
    have hmoment := Option.some.inj hdate
    have hdays : (utcDate moment).days = monthStart (12 * fullYear + (month - 1)) + day - 1 := by
      rw [utcDate, days_civilDate]
      omega
    have hindex : monthStart (utcDate moment).index = monthStart (12 * fullYear + (month - 1)) := by
      have hsplit := (utcDate moment).days_eq
      omega
    have hyear := monthStart_strictMono.injective hindex
    have hlow := (utcDate moment).one_le_month
    have hstart : startOf (utcDate moment) = moment := by
      rw [startOf, hdays, hmoment]
    rw [CalendarDate.index, hfields.1] at hyear
    rw [hmoment] at hrange
    exact ⟨utcDate moment, by omega, hfields.1, hfields.2, by rw [hstart]; exact not_lt.mp hrange, hstart⟩
  · rintro ⟨e, rfl, rfl, rfl, hrange, rfl⟩
    have hindex : e.index = 12 * e.year + (e.month - 1) := by
      unfold CalendarDate.index
      omega
    have hstart : startOf e = (monthStart (12 * e.year + (e.month - 1)) + e.day - 1) * 86400000 := by
      rw [startOf, e.days_eq, hindex]
    have hfields := utcDate_startOf e
    rw [← hstart, if_neg (not_lt.mpr hrange), decide_eq_true_eq]
    exact ⟨rfl, hfields.2⟩

theorem reaches_iff {kind : DateKind} {now : ℤ} {e : CalendarDate} :
    Reaches kind now e ↔ IsMoment (startOf e) ∧
      ∃ year, CandidateYear kind now year ∧ e.year = if 0 ≤ year ∧ year ≤ 99 then 1900 + year else year := by
  refine and_congr_right fun _ ↦ ⟨?_, ?_⟩
  · rintro (⟨hyear, hfull⟩ | ⟨hyear, hcentury⟩)
    · exact ⟨e.year, hyear, (if_neg hfull).symm⟩
    · exact ⟨e.year - 1900, hyear, by rw [if_pos (by omega)]; omega⟩
  · rintro ⟨year, hyear, heyear⟩
    split at heyear
    · next hlow =>
      have hsub : e.year - 1900 = year := by omega
      exact .inr ⟨by rwa [hsub], by omega⟩
    · next hfull => exact .inl (by rw [heyear]; exact ⟨hyear, hfull⟩)

/-- The six digits, as the code reads them. -/
theorem yymmdd_spec (d : CalendarDate) :
    ¬((yymmdd d).length ≠ 6 ∨ ¬(yymmdd d).all isDecimalDigit) ∧ (numeral ((yymmdd d).take 2) : ℤ) = d.year % 100 ∧
      numeral (((yymmdd d).drop 2).take 2) = d.month ∧ numeral (((yymmdd d).drop 4).take 2) = d.day := by
  obtain ⟨yy, hyy⟩ := Int.eq_ofNat_of_zero_le (Int.emod_nonneg d.year (by decide : (100 : ℤ) ≠ 0))
  have hlt := Int.emod_lt_of_pos d.year (by decide : (0 : ℤ) < 100)
  have hmonth := d.month_le
  have hday := d.day_le.trans (monthLength_le d.year d.month)
  obtain ⟨hlength₁, hdigits₁, hnumber₁⟩ := twoDigits_spec (by omega : yy < 100)
  obtain ⟨hlength₂, hdigits₂, hnumber₂⟩ := twoDigits_spec (by omega : d.month < 100)
  obtain ⟨hlength₃, hdigits₃, hnumber₃⟩ := twoDigits_spec (by omega : d.day < 100)
  have htext : yymmdd d = twoDigits yy ++ (twoDigits d.month ++ twoDigits d.day) := by
    rw [yymmdd, hyy]
  have hdrop : (yymmdd d).drop 2 = twoDigits d.month ++ twoDigits d.day := by
    rw [htext, List.drop_left' hlength₁]
  have hlast : (yymmdd d).drop 4 = twoDigits d.day := by
    rw [show 4 = 2 + 2 from rfl, ← List.drop_drop, hdrop, List.drop_left' hlength₂]
  refine ⟨?_, ?_, ?_, ?_⟩
  · rw [htext, List.length_append, List.length_append, hlength₁, hlength₂, hlength₃, List.all_append, List.all_append,
      hdigits₁, hdigits₂, hdigits₃]
    decide
  · rw [htext, List.take_left' hlength₁, hnumber₁, hyy]
  · rw [hdrop, List.take_left' hlength₂, hnumber₂]
  · rw [hlast, List.take_of_length_le hlength₃.le, hnumber₃]

/-- What the digits of a date are expanded to. -/
theorem expandMrzDate_yymmdd {kind : DateKind} {now moment : ℤ} {d : CalendarDate} :
    expandMrzDate (yymmdd d) kind now = some moment ↔
      ∃ e, SameDigits e d ∧ Reaches kind now e ∧ startOf e = moment := by
  obtain ⟨hform, hyear, hmonth, hday⟩ := yymmdd_spec d
  have hrange : ¬(d.month < 1 ∨ d.month > 12 ∨ d.day < 1 ∨ d.day > 31) := by
    have hlow := d.one_le_month
    have hhigh := d.month_le
    have hfirst := d.one_le_day
    have hlast := d.day_le.trans (monthLength_le d.year d.month)
    omega
  unfold expandMrzDate
  rw [if_neg hform, hmonth, hday]
  simp only
  rw [if_neg hrange, dateUTC_eq_some]
  generalize numeral ((yymmdd d).take 2) = yy at hyear ⊢
  have hlt : yy < 100 := by
    have hmod := Int.emod_lt_of_pos d.year (by decide : (0 : ℤ) < 100)
    omega
  constructor
  · rintro ⟨e, heyear, hemonth, heday, hmoment, hstart⟩
    have hcandidate := (expandYear_eq_iff hlt).mp (Eq.refl (expandYear kind now yy))
    refine ⟨e, ⟨?_, hemonth, heday⟩, reaches_iff.mpr ⟨hmoment, _, hcandidate.1, heyear⟩, hstart⟩
    split at heyear <;> omega
  · rintro ⟨e, ⟨heyear, hemonth, heday⟩, hreach, hstart⟩
    obtain ⟨hmoment, year, hcandidate, hefull⟩ := reaches_iff.mp hreach
    have hyears : year % 100 = yy := by
      split at hefull <;> omega
    refine ⟨e, ?_, hemonth, heday, hmoment, hstart⟩
    rw [(expandYear_eq_iff hlt).mpr ⟨hcandidate, hyears⟩, hefull]

/-- A date is found exactly if it is one of those that can be. -/
theorem expandMrzDate_eq_startOf {kind : DateKind} {now : ℤ} {d : CalendarDate} :
    expandMrzDate (yymmdd d) kind now = some (startOf d) ↔ Reaches kind now d := by
  rw [expandMrzDate_yymmdd]
  constructor
  · rintro ⟨e, _, hreach, hstart⟩
    have hdays : e.days = d.days := Int.eq_of_mul_eq_mul_right (by decide) hstart
    have hyear := (CalendarDate.eq_of_days_eq hdays).1
    unfold Reaches at hreach ⊢
    rwa [← hstart, ← hyear]
  · exact fun hreach ↦ ⟨d, ⟨rfl, rfl, rfl⟩, hreach, rfl⟩

/-! ## The right century -/

theorem days_utcDate (now : ℤ) : (utcDate now).days = now / 86400000 := days_civilDate _

/-- A date is after a moment if it is after the day of the moment. -/
theorem lt_startOf_of_earlier {now : ℤ} {d : CalendarDate} (h : EarlierBy 0 (utcDate now) d) : now < startOf d := by
  have hlater : (utcDate now).days < d.days := by
    rw [CalendarDate.days_lt_iff]
    unfold EarlierBy at h
    omega
  have hdays := days_utcDate now
  unfold startOf
  omega

/-- A date that has begun is no later than the day of the moment. -/
theorem startOf_le_iff {now : ℤ} {d : CalendarDate} : startOf d ≤ now ↔ ¬EarlierBy 0 (utcDate now) d := by
  constructor
  · exact fun hle hlater ↦ absurd (lt_startOf_of_earlier hlater) (not_lt.mpr hle)
  · intro hlater
    have hdays := days_utcDate now
    have horder := (utcDate now).days_lt_iff d
    unfold EarlierBy at hlater
    unfold startOf
    omega

/-- Whoever is born by the reference day has no negative age. -/
theorem yearsBetween_nonneg {now : ℤ} {d : CalendarDate} (h : ¬EarlierBy 0 (utcDate now) d) :
    0 ≤ yearsBetween (startOf d) now := by
  obtain ⟨hyear, hmonth, hday⟩ := utcDate_startOf d
  have hlow := d.one_le_month
  have hhigh := d.month_le
  have hlow' := (utcDate now).one_le_month
  have hhigh' := (utcDate now).month_le
  unfold EarlierBy CalendarDate.index at h
  rw [yearsBetween, hyear, hmonth, hday]
  split <;> omega

theorem CenturyRight.of_reaches {now : ℤ} {d : CalendarDate} (hbirth : BornWithin now d → Reaches .birth now d)
    (hpast : ∀ e, SameDigits e d → Reaches .birth now e → startOf e ≤ now)
    (hexpiry : ExpiresWithin now d → Reaches .expiry now d) : CenturyRight now d where
  birth hborn := expandMrzDate_eq_startOf.mpr (hbirth hborn)
  past moment hmoment := by
    obtain ⟨e, hsame, hreach, rfl⟩ := expandMrzDate_yymmdd.mp hmoment
    exact hpast e hsame hreach
  expiry hexpires := expandMrzDate_eq_startOf.mpr (hexpiry hexpires)
  expired record adultAge eligibility hrecord helig hlate hbegun := by
    have hexpires : ExpiresWithin now d := by
      have hle := startOf_le_iff.mp hbegun.le
      refine ⟨hlate, ?_⟩
      unfold EarlierBy at hle ⊢
      omega
    have hexpand := expandMrzDate_eq_startOf.mpr (hexpiry hexpires)
    rw [toEligibility, hrecord, hexpand] at helig
    obtain ⟨birth, -, helig⟩ := Option.bind_eq_some_iff.mp helig
    rw [← Option.some.inj helig]
    exact decide_eq_true hbegun
  age record birth hrecord hexpand hborn := by
    rw [hrecord, expandMrzDate_eq_startOf.mpr (hbirth hborn)] at hexpand
    rw [← Option.some.inj hexpand]
    exact yearsBetween_nonneg hborn.2

/-- The centuries of a date are right exactly if it is one that can be found where it is to be found, and if no date
after the reference is found for its digits. -/
theorem century_right_iff {now : ℤ} {d : CalendarDate} :
    CenturyRight now d ↔
      (BornWithin now d → Reaches .birth now d) ∧
        (∀ e, SameDigits e d → Reaches .birth now e → startOf e ≤ now) ∧
          (ExpiresWithin now d → Reaches .expiry now d) := by
  constructor
  · intro h
    exact ⟨fun hborn ↦ expandMrzDate_eq_startOf.mp (h.birth hborn),
      fun e hsame hreach ↦ h.past _ (expandMrzDate_yymmdd.mpr ⟨e, hsame, hreach, rfl⟩),
      fun hexpires ↦ expandMrzDate_eq_startOf.mp (h.expiry hexpires)⟩
  · exact fun h ↦ CenturyRight.of_reaches h.1 h.2.1 h.2.2

/-- From the year 200 on, these are the years at which a century is wrong: a birth in the year a hundred years before the
reference, and an expiry in the year fifty years after it or, in the first half of a century, before that century. -/
theorem century_right_iff_of_modern {now : ℤ} {d : CalendarDate} (hmodern : 200 ≤ (utcDate now).year)
    (hd : IsMoment (startOf d)) :
    CenturyRight now d ↔
      (BornWithin now d → d.year ≠ (utcDate now).year - 100) ∧
        (∀ e, SameDigits e d → IsMoment (startOf e) → e.year = (utcDate now).year → startOf e ≤ now) ∧
          (ExpiresWithin now d → if 50 ≤ (utcDate now).year % 100 then d.year ≠ (utcDate now).year + 50
            else (utcDate now).year - (utcDate now).year % 100 ≤ d.year) := by
  have hrem : (utcDate now).year.tmod 100 = (utcDate now).year % 100 := Int.tmod_eq_emod_of_nonneg (by omega)
  have hmonth := d.month_le
  have hmonth' := d.one_le_month
  have hnow := (utcDate now).month_le
  have hnow' := (utcDate now).one_le_month
  rw [century_right_iff]
  refine and_congr ?_ (and_congr ?_ ?_)
  · refine imp_congr_right fun hborn ↦ ?_
    unfold BornWithin EarlierBy CalendarDate.index at hborn
    rw [Reaches, and_iff_right hd, CandidateYear, CandidateYear, firstYear]
    simp only [hrem]
    split <;> omega
  · refine forall_congr' fun e ↦ imp_congr_right fun hsame ↦ ?_
    rw [Reaches, CandidateYear, CandidateYear, firstYear]
    simp only [hrem]
    have hbefore : e.year < (utcDate now).year → startOf e ≤ now := by
      intro hyear
      have he := e.month_le
      rw [startOf_le_iff]
      unfold EarlierBy CalendarDate.index
      omega
    constructor
    · exact fun h hmoment hyear ↦ h ⟨hmoment, .inl (by split <;> omega)⟩
    · intro h hreach
      by_cases hyear : e.year < (utcDate now).year
      · exact hbefore hyear
      · exact h hreach.1 (by have hcases := hreach.2; split at hcases <;> omega)
  · refine imp_congr_right fun hexpires ↦ ?_
    unfold ExpiresWithin EarlierBy CalendarDate.index at hexpires
    rw [Reaches, and_iff_right hd, CandidateYear, CandidateYear, firstYear]
    simp only [hrem]
    split <;> omega

/-- On 1 January 2026, `261231` is expanded to a birth at the end of that year, and `991231` to an expiry in 2099. -/
theorem reference_year_not_seen :
    expandMrzDate (yymmdd ⟨1926, 12, 31, by decide, by decide, by decide, by decide⟩) .birth 1767225600000 =
        some (startOf ⟨2026, 12, 31, by decide, by decide, by decide, by decide⟩) ∧
      BornWithin 1767225600000 ⟨1926, 12, 31, by decide, by decide, by decide, by decide⟩ ∧
      yearsBetween (startOf ⟨2026, 12, 31, by decide, by decide, by decide, by decide⟩) 1767225600000 = -1 ∧
      (toEligibility ⟨js "P", js "UTO", js "ERIKSSON", js "ANNA", js "L898902C3", js "UTO", js "740812", js "991231", .F⟩
        1767225600000 18).map MrzEligibility.isExpired = some false ∧
      ¬CenturyRight 1767225600000 ⟨1926, 12, 31, by decide, by decide, by decide, by decide⟩ ∧
      ¬CenturyRight 1767225600000 ⟨1999, 12, 31, by decide, by decide, by decide, by decide⟩ := by
  have hborn : BornWithin 1767225600000 ⟨1926, 12, 31, by decide, by decide, by decide, by decide⟩ := by decide +kernel
  have hexpires : ExpiresWithin 1767225600000 ⟨1999, 12, 31, by decide, by decide, by decide, by decide⟩ := by
    decide +kernel
  refine ⟨by decide +kernel, hborn, by decide +kernel, by decide +kernel, fun h ↦ ?_, fun h ↦ ?_⟩
  · exact absurd (h.birth hborn) (by decide +kernel)
  · exact absurd (h.expiry hexpires) (by decide +kernel)

end MidnightReferendum.Documents
