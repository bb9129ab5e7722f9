import Mathlib.Data.Int.Log
import Mathlib.Data.Nat.Prime.Pow
import Mathlib.Data.Rat.Floor
import Mathlib.Tactic.Linarith
import Mathlib.Tactic.Positivity
import MidnightReferendum.Js.Json

/-!
# Doubles

The double that is nearest to a rational number, and the shortest decimal digits that stand for a double. A
zero has no sign here.
-/

namespace MidnightReferendum.Js

/-! ## Rounding -/

/-- The nearest integer, and the even one of two that are as near. -/
def roundHalfEven (q : ℚ) : ℤ :=
  if q - ⌊q⌋ < 1 / 2 ∨ (q - ⌊q⌋ = 1 / 2 ∧ ⌊q⌋ % 2 = 0) then ⌊q⌋ else ⌊q⌋ + 1

theorem roundHalfEven_intCast (m : ℤ) : roundHalfEven m = m := by
  rw [roundHalfEven, Int.floor_intCast, sub_self, if_pos (Or.inl (by norm_num))]

theorem floor_le_roundHalfEven (q : ℚ) : ⌊q⌋ ≤ roundHalfEven q := by
  unfold roundHalfEven
  split
  · exact le_rfl
  · exact Int.le_add_one le_rfl

theorem le_roundHalfEven {m : ℤ} {q : ℚ} (h : m ≤ q) : m ≤ roundHalfEven q :=
  (Int.le_floor.mpr h).trans (floor_le_roundHalfEven q)

theorem roundHalfEven_le {m : ℤ} {q : ℚ} (h : q ≤ m) : roundHalfEven q ≤ m := by
  obtain rfl | hlt := h.eq_or_lt
  · exact (roundHalfEven_intCast m).le
  · have hfloor : ⌊q⌋ + 1 ≤ m := Int.floor_lt.mpr hlt
    unfold roundHalfEven
    split
    · exact (Int.le_add_one le_rfl).trans hfloor
    · exact hfloor

/-- Rounding does not prefer a direction. -/
theorem roundHalfEven_neg (q : ℚ) : roundHalfEven (-q) = -roundHalfEven q := by
  have hfloor := Int.floor_le q
  have hlt := Int.lt_floor_add_one q
  obtain heq | hne := eq_or_ne q ⌊q⌋
  · rw [heq, ← Int.cast_neg, roundHalfEven_intCast, roundHalfEven_intCast]
  have hpos : (⌊q⌋ : ℚ) < q := lt_of_le_of_ne hfloor hne.symm
  have hneg : ⌊-q⌋ = -⌊q⌋ - 1 := by
    rw [Int.floor_eq_iff]
    push_cast
    exact ⟨by linarith, by linarith⟩
  unfold roundHalfEven
  rw [hneg]
  generalize ⌊q⌋ = f at *
  push_cast
  split
  · next hdown =>
    rw [if_neg]
    · ring
    · rintro (h | ⟨h, heven⟩)
      · obtain hlow | ⟨hhalf, _⟩ := hdown <;> linarith
      · obtain hlow | ⟨_, hodd⟩ := hdown
        · linarith
        · omega
  · next hup =>
    rw [not_or, not_lt] at hup
    rw [if_pos]
    · ring
    · by_cases hhalf : q - f = 1 / 2
      · refine Or.inr ⟨hhalf, ?_⟩
        have hodd : ¬(-f - 1) % 2 = 0 := fun h ↦ hup.2 ⟨by linarith, h⟩
        omega
      · left
        have hle : q - f ≤ 1 / 2 := by linarith
        exact lt_of_le_of_ne hle hhalf

/-- The distance of the doubles around a number. -/
def ulp (q : ℚ) : ℚ := 2 ^ (max (Int.log 2 |q|) (-1022) - 52)

/-- The double that is nearest to a number. -/
def toDouble (q : ℚ) : JsNumber :=
  if 2 ^ 1024 ≤ |roundHalfEven (q / ulp q) * ulp q| then .infinite (q < 0)
  else .finite (roundHalfEven (q / ulp q) * ulp q)

/-- The number is a double. -/
def IsDouble (q : ℚ) : Prop := toDouble q = .finite q

instance (q : ℚ) : Decidable (IsDouble q) := inferInstanceAs (Decidable (_ = _))

theorem isDouble_zero : IsDouble 0 := by decide +kernel

theorem IsDouble.eq_mul_ulp {x : ℚ} (h : IsDouble x) : ∃ m : ℤ, x = m * ulp x := by
  unfold IsDouble toDouble at h
  split at h
  · cases h
  · exact ⟨_, (JsNumber.finite.inj h).symm⟩

/-- The denominator of a double is a power of two. -/
theorem IsDouble.den_eq {x : ℚ} (h : IsDouble x) : x.den = 2 ^ Nat.log 2 x.den := by
  obtain ⟨m, hm⟩ := h.eq_mul_ulp
  obtain ⟨k, hk⟩ : ∃ k : ℕ, x.den ∣ 2 ^ k := by
    unfold ulp at hm
    generalize max (Int.log 2 |x|) (-1022) - 52 = e at hm
    obtain ⟨n, rfl | rfl⟩ := e.eq_nat_or_neg
    · have hint : x = (m * 2 ^ n : ℤ) := by
        rw [hm]
        push_cast
        rw [zpow_natCast]
      exact ⟨0, by rw [hint, Rat.den_intCast, pow_zero]⟩
    · have hdiv : x = Rat.divInt m (2 ^ n : ℤ) := by
        rw [hm, Rat.divInt_eq_div, zpow_neg, zpow_natCast, div_eq_mul_inv]
        push_cast
        rfl
      refine ⟨n, ?_⟩
      have hdvd := Rat.den_dvd m (2 ^ n)
      rw [← hdiv] at hdvd
      exact_mod_cast hdvd
  obtain ⟨i, _, hi⟩ := (Nat.dvd_prime_pow Nat.prime_two).mp hk
  rw [hi, Nat.log_pow Nat.one_lt_two]

/-- A double has finitely many decimal digits. -/
theorem IsDouble.exists_mul_pow {x : ℚ} (h : IsDouble x) :
    ∃ m : ℤ, x * 10 ^ Nat.log 2 x.den = m := by
  have hden : ((x.den : ℕ) : ℚ) = 2 ^ Nat.log 2 x.den := by exact_mod_cast h.den_eq
  refine ⟨x.num * 5 ^ Nat.log 2 x.den, ?_⟩
  calc
    x * 10 ^ Nat.log 2 x.den = x * 2 ^ Nat.log 2 x.den * 5 ^ Nat.log 2 x.den := by
      rw [mul_assoc, ← mul_pow]
      norm_num
    _ = (x.num * 5 ^ Nat.log 2 x.den : ℤ) := by
      rw [← hden, Rat.mul_den_eq_num]
      push_cast
      rfl

theorem toDouble_neg {q x : ℚ} (h : toDouble q = .finite x) : toDouble (-q) = .finite (-x) := by
  have hulp : ulp (-q) = ulp q := by rw [ulp, abs_neg, ulp]
  unfold toDouble at h ⊢
  rw [hulp, neg_div, roundHalfEven_neg, Int.cast_neg, neg_mul, abs_neg]
  split at h
  · cases h
  · next hsmall => rw [if_neg hsmall, JsNumber.finite.inj h]

theorem isDouble_neg {x : ℚ} (h : IsDouble x) : IsDouble (-x) := toDouble_neg h

theorem ulp_pos (q : ℚ) : 0 < ulp q := zpow_pos two_pos _

theorem isDouble_of_eq_mul_ulp {x : ℚ} {k : ℤ} (h : x = k * ulp x) (hsmall : |x| < 2 ^ 1024) : IsDouble x := by
  have hne : ulp x ≠ 0 := (ulp_pos x).ne'
  have hquotient : x / ulp x = k := (div_eq_iff hne).mpr h
  unfold IsDouble toDouble
  rw [hquotient, roundHalfEven_intCast, ← h, if_neg (not_le.mpr hsmall)]

/-- The significand of a number that is rounded has 53 digits, or it is `2 ^ 53`. -/
theorem abs_roundHalfEven_le (q : ℚ) : |roundHalfEven (q / ulp q)| ≤ 2 ^ 53 := by
  have hpos := ulp_pos q
  have hq : |q| ≤ 2 ^ 53 * ulp q := by
    calc
      |q| ≤ 2 ^ (Int.log 2 |q| + 1) := (Int.lt_zpow_succ_log_self Nat.one_lt_two _).le
      _ ≤ 2 ^ (53 + (max (Int.log 2 |q|) (-1022) - 52)) := zpow_le_zpow_right₀ one_le_two (by omega)
      _ = 2 ^ 53 * ulp q := by rw [zpow_add₀ two_ne_zero, ulp]; rfl
  obtain ⟨hlow, hhigh⟩ := abs_le.mp hq
  refine abs_le.mpr ⟨le_roundHalfEven ?_, roundHalfEven_le ?_⟩
  · push_cast
    rw [le_div_iff₀ hpos]
    linarith
  · push_cast
    rw [div_le_iff₀ hpos]
    exact hhigh

/-- Rounding gives a double. -/
theorem isDouble_of_toDouble {q x : ℚ} (h : toDouble q = .finite x) : IsDouble x := by
  unfold toDouble at h
  split at h
  · cases h
  next hsmall =>
  obtain hx := JsNumber.finite.inj h
  have hm := abs_roundHalfEven_le q
  rw [hx, not_le] at hsmall
  generalize roundHalfEven (q / ulp q) = m at hx hm
  obtain rfl | hne := eq_or_ne x 0
  · exact isDouble_zero
  obtain ⟨e, he⟩ : ∃ e, max (Int.log 2 |q|) (-1022) - 52 = e := ⟨_, rfl⟩
  obtain ⟨e', he'⟩ : ∃ e', max (Int.log 2 |x|) (-1022) - 52 = e' := ⟨_, rfl⟩
  have hulp : ulp q = 2 ^ e := by rw [ulp, he]
  have hulp' : ulp x = 2 ^ e' := by rw [ulp, he']
  rw [hulp] at hx
  obtain hle | hlt := le_or_gt e' e
  · -- The digits of the rounded number are no finer than those around it.
    obtain ⟨n, hn⟩ := Int.eq_ofNat_of_zero_le (sub_nonneg.mpr hle)
    refine isDouble_of_eq_mul_ulp (k := m * 2 ^ n) ?_ hsmall
    rw [hulp', ← hx, show e = n + e' by omega, zpow_add₀ two_ne_zero, zpow_natCast]
    push_cast
    ring
  · -- Rounding has gone up to a power of two.
    have hbig : (2 : ℚ) ^ (53 + e) ≤ |x| := by
      calc
        (2 : ℚ) ^ (53 + e) ≤ 2 ^ Int.log 2 |x| := zpow_le_zpow_right₀ one_le_two (by omega)
        _ ≤ |x| := Int.zpow_log_le_self Nat.one_lt_two (abs_pos.mpr hne)
    have habs : |x| = |(m : ℚ)| * 2 ^ e := by rw [← hx, abs_mul, abs_of_pos (show (0 : ℚ) < 2 ^ e from zpow_pos two_pos e)]
    have hpow : (2 : ℚ) ^ (53 + e) = 2 ^ 53 * 2 ^ e := by
      rw [zpow_add₀ two_ne_zero]
      rfl
    have hge : (2 : ℤ) ^ 53 ≤ |m| := by
      rw [habs, hpow] at hbig
      exact_mod_cast le_of_mul_le_mul_right hbig (zpow_pos two_pos e)
    have hlog : Int.log 2 |x| = 53 + e := by
      have hm' : |(m : ℚ)| = 2 ^ 53 := by exact_mod_cast le_antisymm hm hge
      rw [habs, hm', ← hpow]
      exact Int.log_zpow Nat.one_lt_two _
    obtain ⟨n, hn⟩ : ∃ n, m = 2 * n := by
      obtain heq | heq := (abs_eq (by norm_num)).mp (le_antisymm hm hge)
      · exact ⟨2 ^ 52, by rw [heq]; norm_num⟩
      · exact ⟨-2 ^ 52, by rw [heq]; norm_num⟩
    refine isDouble_of_eq_mul_ulp (k := n) ?_ hsmall
    rw [hulp', ← hx, hn, show e' = e + 1 by omega, zpow_add_one₀ two_ne_zero]
    push_cast
    ring

/-- A safe integer is a double. -/
theorem isDouble_intCast {m : ℤ} (h : |m| ≤ maxSafeInteger) : IsDouble m := by
  obtain rfl | hm := eq_or_ne m 0
  · exact_mod_cast isDouble_zero
  have hpos : (0 : ℚ) < |(m : ℚ)| := abs_pos.mpr (by exact_mod_cast hm)
  have hone : (1 : ℚ) ≤ |(m : ℚ)| := by exact_mod_cast Int.one_le_abs hm
  have hsafe : |(m : ℚ)| < 2 ^ 53 := by
    have hlt : |m| < 2 ^ 53 := h.trans_lt (by decide)
    exact_mod_cast hlt
  have hlog : Int.log 2 |(m : ℚ)| < 53 := (Int.lt_zpow_iff_log_lt Nat.one_lt_two hpos).mp (by exact_mod_cast hsafe)
  have hnonneg : 0 ≤ Int.log 2 |(m : ℚ)| := by
    rw [Int.log_of_one_le_right 2 hone]
    exact Int.natCast_nonneg _
  obtain ⟨j, hj⟩ : ∃ j : ℕ, max (Int.log 2 |(m : ℚ)|) (-1022) - 52 = -(j : ℤ) :=
    ⟨(52 - Int.log 2 |(m : ℚ)|).toNat, by omega⟩
  have hulp : ulp m = (2 ^ j)⁻¹ := by rw [ulp, hj, zpow_neg, zpow_natCast]
  have hquotient : (m : ℚ) / ulp m = (m * 2 ^ j : ℤ) := by
    rw [hulp, div_inv_eq_mul]
    push_cast
    rfl
  have hback : ((m * 2 ^ j : ℤ) : ℚ) * ulp m = m := by
    rw [hulp]
    push_cast
    rw [mul_assoc, mul_inv_cancel₀ (by positivity), mul_one]
  unfold IsDouble toDouble
  rw [hquotient, roundHalfEven_intCast, hback, if_neg]
  exact not_le.mpr (hsafe.trans (pow_lt_pow_right₀ one_lt_two (by decide)))

/-! ## Decimal digits -/

/-- `k` digits of a positive number, and the place of the point. -/
def significand (x : ℚ) (k : ℕ) : ℕ × ℤ :=
  let n := Int.log 10 x + 1
  let s := roundHalfEven (x * 10 ^ (k - n))
  if s = 10 ^ k then (10 ^ (k - 1), n + 1) else (s.toNat, n)

/-- The value of `k` digits. -/
def decimalValue (k : ℕ) (digits : ℕ × ℤ) : ℚ := digits.1 * 10 ^ (digits.2 - k)

/-- The number is the double that is nearest to its `k` digits. -/
def Recovers (x : ℚ) (k : ℕ) : Prop := toDouble (decimalValue k (significand x k)) = .finite x

instance (x : ℚ) (k : ℕ) : Decidable (Recovers x k) := inferInstanceAs (Decidable (_ = _))

/-- The number of digits that all digits of a double need. -/
def fullPrecision (x : ℚ) : ℕ := (Int.log 10 x + 1 + Nat.log 2 x.den).toNat

/-- The least number of digits from which a positive double is recovered. -/
def precision (x : ℚ) : ℕ :=
  ((List.range' 1 (fullPrecision x)).find? fun k ↦ Recovers x k).getD 1

section Positive

variable {x : ℚ} {k : ℕ} (hx : 0 < x)

include hx

/-- The digits before the point, of which the first is not a zero. -/
theorem significand_bounds :
    10 ^ k ≤ roundHalfEven (x * 10 ^ (((k + 1 : ℕ) : ℤ) - (Int.log 10 x + 1))) ∧
      roundHalfEven (x * 10 ^ (((k + 1 : ℕ) : ℤ) - (Int.log 10 x + 1))) ≤ 10 ^ (k + 1) := by
  have hlow : (10 : ℚ) ^ Int.log 10 x ≤ x := Int.zpow_log_le_self (by decide) hx
  have hhigh : x < (10 : ℚ) ^ (Int.log 10 x + 1) := Int.lt_zpow_succ_log_self (by decide) x
  generalize Int.log 10 x = n at *
  have hscale : (0 : ℚ) < 10 ^ (((k + 1 : ℕ) : ℤ) - (n + 1)) := zpow_pos (by norm_num) _
  constructor
  · refine le_roundHalfEven ?_
    calc
      (((10 : ℤ) ^ k : ℤ) : ℚ) = (10 : ℚ) ^ n * 10 ^ (((k + 1 : ℕ) : ℤ) - (n + 1)) := by
        rw [← zpow_add₀ (by norm_num)]
        push_cast
        rw [show n + ((k : ℤ) + 1 - (n + 1)) = k by ring, zpow_natCast]
      _ ≤ x * 10 ^ (((k + 1 : ℕ) : ℤ) - (n + 1)) := mul_le_mul_of_nonneg_right hlow hscale.le
  · refine roundHalfEven_le ?_
    calc
      x * 10 ^ (((k + 1 : ℕ) : ℤ) - (n + 1)) ≤ (10 : ℚ) ^ (n + 1) * 10 ^ (((k + 1 : ℕ) : ℤ) - (n + 1)) :=
        mul_le_mul_of_nonneg_right hhigh.le hscale.le
      _ = (((10 : ℤ) ^ (k + 1) : ℤ) : ℚ) := by
        rw [← zpow_add₀ (by norm_num), add_sub_cancel, zpow_natCast]
        push_cast
        rfl

theorem significand_lt (hk : 1 ≤ k) : 10 ^ (k - 1) ≤ (significand x k).1 ∧ (significand x k).1 < 10 ^ k := by
  obtain ⟨k, rfl⟩ := Nat.exists_eq_add_of_le' hk
  obtain ⟨hlow, hhigh⟩ := significand_bounds (k := k) hx
  unfold significand
  simp only [Nat.add_sub_cancel]
  split
  · exact ⟨le_rfl, Nat.pow_lt_pow_right (by decide) (Nat.lt_succ_self k)⟩
  · next hne =>
    have hlt := lt_of_le_of_ne hhigh hne
    generalize roundHalfEven _ = s at *
    lift s to ℕ using le_trans (by positivity) hlow
    exact ⟨by exact_mod_cast hlow, by exact_mod_cast hlt⟩

theorem decimalValue_significand (hk : 1 ≤ k) :
    decimalValue k (significand x k) =
      roundHalfEven (x * 10 ^ (k - (Int.log 10 x + 1))) * 10 ^ (Int.log 10 x + 1 - k) := by
  obtain ⟨k, rfl⟩ := Nat.exists_eq_add_of_le' hk
  obtain ⟨hlow, _⟩ := significand_bounds (k := k) hx
  unfold significand decimalValue
  simp only [Nat.add_sub_cancel]
  split
  · next heq =>
    rw [heq]
    push_cast
    rw [← zpow_natCast, ← zpow_natCast, ← zpow_add₀ (by norm_num), ← zpow_add₀ (by norm_num)]
    congr 1
    push_cast
    ring
  · generalize roundHalfEven _ = s at *
    lift s to ℕ using le_trans (by positivity) hlow
    rfl

/-- All digits of a double stand for it. -/
theorem recovers_fullPrecision (h : IsDouble x) : 1 ≤ fullPrecision x ∧ Recovers x (fullPrecision x) := by
  obtain ⟨m, hm⟩ := h.exists_mul_pow
  have hpos : 0 < m := by
    have : (0 : ℚ) < m := hm ▸ by positivity
    exact_mod_cast this
  have hlarge : -(Nat.log 2 x.den : ℤ) ≤ Int.log 10 x := by
    refine (Int.zpow_le_iff_le_log (b := 10) (by decide) hx).mp ?_
    have hone : (1 : ℚ) ≤ m := by exact_mod_cast hpos
    rw [zpow_neg, zpow_natCast, inv_le_iff_one_le_mul₀ (by positivity)]
    push_cast
    rwa [hm]
  have hfull : (fullPrecision x : ℤ) = Int.log 10 x + 1 + Nat.log 2 x.den := by
    unfold fullPrecision
    omega
  have hone : 1 ≤ fullPrecision x := by omega
  refine ⟨hone, ?_⟩
  unfold Recovers
  rw [decimalValue_significand hx hone, hfull, add_sub_cancel_left, zpow_natCast, hm, roundHalfEven_intCast, ← hm,
    sub_add_cancel_left, zpow_neg, zpow_natCast, mul_assoc, mul_inv_cancel₀ (by positivity), mul_one]
  exact h

theorem recovers_precision (h : IsDouble x) : 1 ≤ precision x ∧ Recovers x (precision x) := by
  obtain ⟨hone, hfull⟩ := recovers_fullPrecision hx h
  have hsome : ((List.range' 1 (fullPrecision x)).find? fun k ↦ Recovers x k).isSome := by
    rw [List.find?_isSome]
    exact ⟨fullPrecision x, by rw [List.mem_range'_1]; omega, decide_eq_true hfull⟩
  obtain ⟨k, hk⟩ := Option.isSome_iff_exists.mp hsome
  have hmem := List.mem_of_find?_eq_some hk
  rw [List.mem_range'_1] at hmem
  have hrecovers : decide (Recovers x k) = true := List.find?_some (p := fun k ↦ decide (Recovers x k)) hk
  rw [precision, hk]
  exact ⟨hmem.1, of_decide_eq_true hrecovers⟩

end Positive

end MidnightReferendum.Js
