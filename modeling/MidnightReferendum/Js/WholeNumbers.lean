import MidnightReferendum.Js.Numbers

/-!
# Texts of whole numbers

A whole number of up to fourteen digits is written with its digits alone.
-/

namespace MidnightReferendum.Js

theorem precision_le {x : ℚ} (hx : 0 < x) (h : IsDouble x) : precision x ≤ fullPrecision x := by
  obtain ⟨hone, hfull⟩ := recovers_fullPrecision hx h
  unfold precision
  cases hfind : (List.range' 1 (fullPrecision x)).find? fun k ↦ Recovers x k with
  | none => exact hone
  | some k =>
    have hmem := List.mem_of_find?_eq_some hfind
    rw [List.mem_range'_1] at hmem
    exact Nat.lt_one_add_iff.mp hmem.2

variable {n : ℕ}

theorem fullPrecision_natCast : fullPrecision n = Nat.log 10 n + 1 := by
  have hlog : Int.log 10 (n : ℚ) = Nat.log 10 n := Int.log_natCast 10 n
  have hden : (n : ℚ).den = 1 := rfl
  rw [fullPrecision, hlog, hden, Nat.log_one_right]
  omega

theorem significand_place (k : ℕ) :
    (significand (n : ℚ) k).2 = Nat.log 10 n + 1 ∨ (significand (n : ℚ) k).2 = Nat.log 10 n + 2 := by
  have hlog : Int.log 10 (n : ℚ) = Nat.log 10 n := Int.log_natCast 10 n
  unfold significand
  rw [hlog]
  simp only
  split
  · exact Or.inr (by omega)
  · exact Or.inl rfl

/-- The text has the digits of the number only. -/
theorem numberText_natCast (hpos : 0 < n) (h : n < 10 ^ 14) :
    AllDigits (numberText n) ∧ numberText n ≠ [] ∧ numeral (numberText n) = n := by
  have hx : (0 : ℚ) < n := Nat.cast_pos.mpr hpos
  have hdouble : ∀ m : ℕ, m < 10 ^ 15 → toDouble (m : ℚ) = .finite m := fun m hm ↦ by
    have hsafe : |(m : ℤ)| ≤ maxSafeInteger := by
      rw [Nat.abs_cast, maxSafeInteger]
      omega
    exact isDouble_intCast hsafe
  have hlog : Nat.log 10 n < 14 := Nat.log_lt_of_lt_pow hpos.ne' h
  have hisDouble : IsDouble (n : ℚ) := hdouble n (by omega)
  obtain ⟨hk, hrecovers⟩ := recovers_precision hx hisDouble
  obtain ⟨hlow, hhigh⟩ := significand_lt hx hk
  have hle := precision_le hx hisDouble
  rw [fullPrecision_natCast] at hle
  have hplace := significand_place (n := n) (precision (n : ℚ))
  have htext : numberText n = digits (precision (n : ℚ)) (significand n (precision (n : ℚ))).1 ++
      zeros ((significand (n : ℚ) (precision (n : ℚ))).2 - precision (n : ℚ)).toNat := by
    rw [numberText, if_neg hx.ne', if_neg (not_lt.mpr hx.le), positiveText, if_pos (by omega)]
  unfold Recovers decimalValue at hrecovers
  generalize precision (n : ℚ) = k at *
  generalize (significand (n : ℚ) k).1 = s at *
  generalize (significand (n : ℚ) k).2 = place at *
  obtain ⟨count, hcount⟩ : ∃ count : ℕ, place = k + count := ⟨(place - k).toNat, by omega⟩
  rw [hcount, add_sub_cancel_left, Int.toNat_natCast] at htext
  rw [hcount, add_sub_cancel_left, zpow_natCast] at hrecovers
  have hsmall : s * 10 ^ count < 10 ^ 15 :=
    calc
      s * 10 ^ count < 10 ^ k * 10 ^ count := Nat.mul_lt_mul_of_pos_right hhigh (by positivity)
      _ = 10 ^ (k + count) := (pow_add 10 k count).symm
      _ ≤ 10 ^ 15 := Nat.pow_le_pow_right (by decide) (by omega)
  have hvalue := hdouble (s * 10 ^ count) hsmall
  push_cast at hvalue
  rw [hrecovers] at hvalue
  have heq : ((s * 10 ^ count : ℕ) : ℚ) = n := by
    push_cast
    exact (JsNumber.finite.inj hvalue).symm
  rw [htext]
  refine ⟨(allDigits_digits k s).append (allDigits_zeros count), ?_, ?_⟩
  · intro hnil
    have hlength := congrArg List.length hnil
    rw [List.length_append, length_digits, List.length_nil] at hlength
    omega
  · rw [numeral_append, numeral_zeros, numeral_digits, Nat.mod_eq_of_lt hhigh, zeros, List.length_replicate, add_zero]
    exact_mod_cast heq

end MidnightReferendum.Js
