import Mathlib.Data.List.DropRight
import MidnightReferendum.Js.Utf8

/-!
# White space at the ends

A text is its trimmed text between two texts of white space, and white space has no zero among its bytes.
-/

namespace MidnightReferendum.Js

variable {text : JsString}

theorem not_isSpace_head {u : UInt16} {rest : JsString} (h : text.dropWhile isSpace = u :: rest) : isSpace u = false := by
  have hnot := List.head?_dropWhile_not isSpace text
  rw [h] at hnot
  simpa using hnot

theorem trimmed_eq_self (h : ∀ u ∈ text, isSpace u = false) : trimmed text = text := by
  have hdrop : ∀ text : JsString, (∀ u ∈ text, isSpace u = false) → text.dropWhile isSpace = text := by
    intro text h
    cases text with
    | nil => rfl
    | cons u text => exact List.dropWhile_cons_of_neg (by simp [h u List.mem_cons_self])
  rw [trimmed, hdrop text h, hdrop _ fun u hu ↦ h u (List.mem_reverse.mp hu), List.reverse_reverse]

theorem trimmed_eq_nil : trimmed text = [] ↔ isBlank text := by
  rw [trimmed, List.reverse_eq_nil_iff, List.dropWhile_eq_nil_iff, isBlank, List.all_eq_true]
  constructor
  · intro h
    cases hdrop : text.dropWhile isSpace with
    | nil => exact List.dropWhile_eq_nil_iff.mp hdrop
    | cons u rest =>
      have hu := h u (List.mem_reverse.mpr (hdrop ▸ List.mem_cons_self))
      rw [not_isSpace_head hdrop] at hu
      cases hu
  · exact fun h u hu ↦ h u ((List.dropWhile_sublist isSpace).subset (List.mem_reverse.mp hu))

/-- Only the ends decide. -/
theorem trimmed_of_ends {u v : UInt16} (hu : isSpace u = false) (hv : isSpace v = false) (middle : JsString) :
    trimmed (u :: (middle ++ [v])) = u :: (middle ++ [v]) := by
  have hfront : (u :: (middle ++ [v])).dropWhile isSpace = u :: (middle ++ [v]) :=
    List.dropWhile_cons_of_neg (Bool.eq_false_iff.mp hu)
  have hback : (u :: (middle ++ [v])).reverse = v :: (u :: middle).reverse := by
    rw [← List.cons_append, List.reverse_append, List.reverse_singleton, List.singleton_append]
  rw [trimmed, hfront, hback, List.dropWhile_cons_of_neg (Bool.eq_false_iff.mp hv), ← hback, List.reverse_reverse]

theorem trimmed_trimmed (text : JsString) : trimmed (trimmed text) = trimmed text := by
  cases h : trimmed text with
  | nil => rfl
  | cons u rest =>
    have hfront : (u :: rest).dropWhile isSpace = u :: rest :=
      List.dropWhile_cons_of_neg (Bool.eq_false_iff.mp (isSpace_of_trimmed h))
    have hreverse : (u :: rest).reverse = (text.dropWhile isSpace).reverse.dropWhile isSpace := by
      rw [← h, trimmed, List.reverse_reverse]
    rw [trimmed, hfront, hreverse, List.dropWhile_idempotent, ← hreverse, List.reverse_reverse]

theorem exists_trimmed_split (text : JsString) : ∃ front back, text = front ++ (trimmed text ++ back) ∧
    (∀ u ∈ front, isSpace u) ∧ ∀ u ∈ back, isSpace u := by
  let rest := text.dropWhile isSpace
  have hrest : rest = trimmed text ++ (rest.reverse.takeWhile isSpace).reverse :=
    calc
      rest = (rest.reverse.takeWhile isSpace ++ rest.reverse.dropWhile isSpace).reverse := by
        rw [List.takeWhile_append_dropWhile, List.reverse_reverse]
      _ = trimmed text ++ (rest.reverse.takeWhile isSpace).reverse := List.reverse_append
  refine ⟨text.takeWhile isSpace, (rest.reverse.takeWhile isSpace).reverse, ?_, fun u hu ↦ List.mem_takeWhile_imp hu,
    fun u hu ↦ List.mem_takeWhile_imp (List.mem_reverse.mp hu)⟩
  rw [← hrest]
  exact List.takeWhile_append_dropWhile.symm

/-! ## Bytes -/

theorem toNat_of_isSpace {u : UInt16} (h : isSpace u) : 0 < u.toNat ∧ (u.toNat < 0xD800 ∨ 0xDFFF < u.toNat) := by
  simp only [isSpace, Bool.or_eq_true, Bool.and_eq_true, decide_eq_true_eq, beq_iff_eq, UInt16.le_iff_toNat_le,
    ← UInt16.toNat_inj] at h
  simp only [UInt16.reduceToNat] at h
  omega

theorem isSurrogate_of_isSpace {u : UInt16} (h : isSpace u) : isSurrogate u = false := by
  have hrange := (toNat_of_isSpace h).2
  rw [isSurrogate, Bool.and_eq_false_iff, decide_eq_false_iff_not, decide_eq_false_iff_not, UInt16.le_iff_toNat_le,
    UInt16.le_iff_toNat_le]
  simp only [UInt16.reduceToNat]
  omega

/-- How many of the bytes are not zero. -/
def nonzeros (bytes : List UInt8) : ℕ := bytes.countP fun b ↦ b ≠ 0

theorem nonzeros_append (a b : List UInt8) : nonzeros (a ++ b) = nonzeros a + nonzeros b := List.countP_append

theorem nonzeros_replicate (count : ℕ) : nonzeros (List.replicate count 0) = 0 := by
  rw [nonzeros, List.countP_eq_zero]
  intro b hb
  rw [List.eq_of_mem_replicate hb]
  decide

/-- The first byte of a character is zero only for the character zero. -/
theorem nonzeros_utf8Bytes {c : ℕ} (hpos : 0 < c) (hc : c < 0x10000) : 0 < nonzeros (utf8Bytes c) := by
  have hbyte : ∀ {n : ℕ}, 0 < n → n < 0x100 → ∀ rest : List ℕ, 0 < nonzeros ((n :: rest).map Nat.toUInt8) := by
    intro n hn hlt rest
    have hne : n.toUInt8 ≠ 0 := fun hzero ↦ by
      have htoNat := congrArg UInt8.toNat hzero
      rw [toNat_toUInt8 hlt] at htoNat
      exact hn.ne' htoNat
    rw [List.map_cons, nonzeros, List.countP_cons_of_pos (by simpa using hne)]
    exact Nat.succ_pos _
  unfold utf8Bytes utf8
  split
  · exact hbyte hpos (by omega) _
  · split
    · exact hbyte (by omega) (by omega) _
    · exact hbyte (by omega) (by omega) _

/-- White space has a byte that is not zero. -/
theorem nonzeros_of_spaces {u : UInt16} {rest : JsString} (h : ∀ v ∈ u :: rest, isSpace v) :
    0 < nonzeros (encodeUtf8 (u :: rest)) := by
  have hu := h u List.mem_cons_self
  have hplain := isSurrogate_of_isSpace hu
  have hone : isWellFormed [u] := isWellFormed_singleton hplain
  rw [← List.singleton_append, encodeUtf8_append hone, nonzeros_append, encodeUtf8_singleton hplain]
  exact Nat.add_pos_left (nonzeros_utf8Bytes (toNat_of_isSpace hu).1 u.toNat_lt) _

/-- The trimmed text has as many bytes that are not zero only if nothing was trimmed. -/
theorem trimmed_eq_self_of_nonzeros (h : nonzeros (encodeUtf8 (trimmed text)) = nonzeros (encodeUtf8 text)) :
    trimmed text = text := by
  obtain ⟨front, back, htext, hfront, hback⟩ := exists_trimmed_split text
  have hformed : isWellFormed front := isWellFormed_of_plain fun u hu ↦ isSurrogate_of_isSpace (hfront u hu)
  have hhead : ∀ v ∈ back.head?, isLowSurrogate v = false := fun v hv ↦ by
    have hv := toNat_of_isSpace (hback v (List.mem_of_mem_head? hv))
    rw [isLowSurrogate, Bool.and_eq_false_iff, decide_eq_false_iff_not, decide_eq_false_iff_not,
      UInt16.le_iff_toNat_le, UInt16.le_iff_toNat_le]
    simp only [UInt16.reduceToNat]
    omega
  have hsum : nonzeros (encodeUtf8 text) =
      nonzeros (encodeUtf8 front) + (nonzeros (encodeUtf8 (trimmed text)) + nonzeros (encodeUtf8 back)) := by
    conv_lhs => rw [htext]
    rw [encodeUtf8_append hformed, encodeUtf8_append_of_head _ hhead, nonzeros_append, nonzeros_append]
  cases front with
  | cons u front =>
    have hpos := nonzeros_of_spaces hfront
    omega
  | nil =>
    cases back with
    | cons u back =>
      have hpos := nonzeros_of_spaces hback
      omega
    | nil =>
      rw [List.nil_append, List.append_nil] at htext
      exact htext.symm

end MidnightReferendum.Js
