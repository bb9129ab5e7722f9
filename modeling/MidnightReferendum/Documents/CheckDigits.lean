import MidnightReferendum.Documents.Mrz

/-!
# Misread digits

The weights of a check digit have no common factor with 10, so that another digit in one place changes the check
digit. Each character under a check digit is in one field, and the optional data is under the composite digit.
-/

namespace MidnightReferendum.Documents

open Js

/-! ## One character of a text -/

theorem characterValue_digit {u : UInt16} (h : isDecimalDigit u = true) :
    characterValue u = some (u.toNat - 48) ∧ 48 ≤ u.toNat ∧ u.toNat ≤ 57 := by
  have hrange : 0x30 ≤ u ∧ u ≤ 0x39 := by simpa [isDecimalDigit] using h
  refine ⟨if_pos hrange, ?_, ?_⟩
  · exact UInt16.le_iff_toNat_le.mp hrange.1
  · exact UInt16.le_iff_toNat_le.mp hrange.2

/-- The sum after another digit has been read in one place. -/
theorem weightedSum_set {value : JsString} {i : ℕ} {digit digit' : UInt16} (hdigit : isDecimalDigit digit = true)
    (hdigit' : isDecimalDigit digit' = true) (hplace : value[i]? = some digit) {index sum : ℕ}
    (h : weightedSum index value = some sum) :
    ∃ sum', weightedSum index (value.set i digit') = some sum' ∧
      sum' + (digit.toNat - 48) * weight (index + i) = sum + (digit'.toNat - 48) * weight (index + i) := by
  induction value generalizing i index sum with
  | nil => cases hplace
  | cons u rest ih =>
    obtain ⟨v, hv, s, hs, hsum⟩ : ∃ v, characterValue u = some v ∧
        ∃ s, weightedSum (index + 1) rest = some s ∧ v * weight index + s = sum := by
      simpa [weightedSum, Option.bind_eq_some_iff] using h
    cases i with
    | zero =>
      obtain rfl : u = digit := Option.some.inj hplace
      rw [(characterValue_digit hdigit).1] at hv
      obtain rfl := Option.some.inj hv
      refine ⟨(digit'.toNat - 48) * weight index + s, ?_, ?_⟩
      · rw [List.set_cons_zero, weightedSum, (characterValue_digit hdigit').1, hs]
        rfl
      · rw [Nat.add_zero]
        omega
    | succ i =>
      obtain ⟨s', hs', hdiff⟩ := ih (by simpa using hplace) hs
      refine ⟨v * weight index + s', ?_, ?_⟩
      · rw [List.set_cons_succ, weightedSum, hv, hs']
        rfl
      · rw [show index + (i + 1) = index + 1 + i by omega]
        omega

theorem weight_cases (index : ℕ) : weight index = 7 ∨ weight index = 3 ∨ weight index = 1 := by
  unfold weight
  split_ifs
  · exact Or.inl rfl
  · exact Or.inr (Or.inl rfl)
  · exact Or.inr (Or.inr rfl)

/-- A digit that is misread does not match the check digit. -/
theorem checkMatches_set {value expected : JsString} {i : ℕ} {digit digit' : UInt16}
    (hdigit : isDecimalDigit digit = true) (hdigit' : isDecimalDigit digit' = true) (hne : digit ≠ digit')
    (hplace : value[i]? = some digit) (h : checkMatches value expected = true) :
    checkMatches (value.set i digit') expected = false := by
  unfold checkMatches computeCheckDigit at h ⊢
  cases hsum : weightedSum 0 value with
  | none => simp [hsum] at h
  | some sum =>
    obtain ⟨sum', hsum', hdiff⟩ := weightedSum_set hdigit hdigit' hplace hsum
    rw [hsum] at h
    rw [hsum', Option.map_some]
    simp only [Option.map_some, beq_iff_eq] at h
    refine beq_eq_false_iff_ne.mpr fun heq ↦ ?_
    have hsame : sum' % 10 = sum % 10 := by
      rw [← numeral_decimal (sum' % 10), heq, ← h, numeral_decimal]
    have hvalues : digit.toNat ≠ digit'.toNat := fun hto ↦ hne (UInt16.toNat_inj.mp hto)
    obtain ⟨_, hlow, hhigh⟩ := characterValue_digit hdigit
    obtain ⟨_, hlow', hhigh'⟩ := characterValue_digit hdigit'
    obtain hw | hw | hw := weight_cases (0 + i)
    all_goals
      rw [hw] at hdiff
      omega

/-- The check digit itself is misread. -/
theorem checkMatches_misread {value : JsString} {digit digit' : UInt16} (hne : digit ≠ digit')
    (h : checkMatches value [digit] = true) : checkMatches value [digit'] = false := by
  unfold checkMatches at h ⊢
  split at h
  · cases h
  · next check hcheck =>
    rw [beq_iff_eq] at h
    rw [h]
    exact beq_eq_false_iff_ne.mpr fun heq ↦ hne (List.cons.inj heq).1

/-! ## One character of a line -/

theorem slice_set_of_mem {line : JsString} {start finish p : ℕ} {u : UInt16} (hstart : start ≤ p) :
    slice (line.set p u) start finish = (slice line start finish).set (p - start) u := by
  rw [slice, slice, List.drop_set, if_neg (Nat.not_lt.mpr hstart), List.take_set]

theorem slice_set_of_notMem {line : JsString} {start finish p : ℕ} {u : UInt16} (h : p < start ∨ finish ≤ p) :
    slice (line.set p u) start finish = slice line start finish := by
  rw [slice, slice, List.drop_set]
  split
  · rfl
  · rw [List.take_set_of_le]
    omega

theorem getElem?_slice {text : JsString} {start finish p : ℕ} (hstart : start ≤ p) (hfinish : p < finish) :
    (slice text start finish)[p - start]? = text[p]? := by
  rw [slice, List.getElem?_take_of_lt (by omega), List.getElem?_drop, Nat.add_sub_cancel' hstart]

theorem slice_of_getElem? {text : JsString} {p : ℕ} {u : UInt16} (h : text[p]? = some u) :
    slice text p (p + 1) = [u] := by
  obtain ⟨hlt, hget⟩ := List.getElem?_eq_some_iff.mp h
  rw [slice, Nat.add_sub_cancel_left, List.drop_eq_getElem_cons hlt, hget]
  rfl

/-- A digit that is misread within a longer text. -/
theorem checkMatches_append_set {x y z expected : JsString} {i : ℕ} {digit digit' : UInt16}
    (hdigit : isDecimalDigit digit = true) (hdigit' : isDecimalDigit digit' = true) (hne : digit ≠ digit')
    (hplace : y[i]? = some digit) (h : checkMatches (x ++ y ++ z) expected = true) :
    checkMatches (x ++ y.set i digit' ++ z) expected = false := by
  obtain ⟨hlt, _⟩ := List.getElem?_eq_some_iff.mp hplace
  have hset : (x ++ y ++ z).set (x.length + i) digit' = x ++ y.set i digit' ++ z := by
    rw [List.set_append_left _ _ (by rw [List.length_append]; omega), List.set_append_right _ _ (Nat.le_add_right _ _),
      Nat.add_sub_cancel_left]
  rw [← hset]
  refine checkMatches_set hdigit hdigit' hne ?_ h
  rw [List.getElem?_append_left (by rw [List.length_append]; omega), List.getElem?_append_right (Nat.le_add_right _ _),
    Nat.add_sub_cancel_left, hplace]

/-! ## The second line -/

/-- A check digit covers this place of the second line. -/
def IsChecked (p : ℕ) : Prop := p < 10 ∨ 13 ≤ p ∧ p < 20 ∨ 21 ≤ p ∧ p < 44

/-- What two lines that are read have passed. -/
structure Passed (line1 line2 : JsString) : Prop where
  length1 : line1.length = td3LineLength
  length2 : line2.length = td3LineLength
  code : line1.head? = some 0x50
  documentNumber : checkMatches (slice line2 0 9) (slice line2 9 10) = true
  birthDate : checkMatches (slice line2 13 19) (slice line2 19 20) = true
  expiryDate : checkMatches (slice line2 21 27) (slice line2 27 28) = true
  composite : checkMatches (compositeText line2) (slice line2 43 44) = true

theorem passed_of_parse {line1 line2 : JsString} {reference : ℤ} {record : MrzRecord}
    (h : parseTd3Lines line1 line2 reference = .ok record) : Passed line1 line2 := by
  unfold parseTd3Lines at h
  split_ifs at h with hlength hcode hnumber hbirth hexpiry hcomposite hbirthDate hexpiryDate
  rw [not_or, not_not, not_not] at hlength
  exact ⟨hlength.1, hlength.2, not_not.mp hcode, by simpa using hnumber, by simpa using hbirth,
    by simpa using hexpiry, by simpa using hcomposite⟩

/-- A checked digit of the second line is misread. -/
theorem not_passed_set {line1 line2 : JsString} {p : ℕ} {digit digit' : UInt16} (h : Passed line1 line2)
    (hp : IsChecked p) (hdigit : isDecimalDigit digit = true) (hdigit' : isDecimalDigit digit' = true)
    (hne : digit ≠ digit') (hplace : line2[p]? = some digit) : ¬Passed line1 (line2.set p digit') := by
  intro h'
  have hcontra : ∀ {value expected : JsString}, checkMatches value expected = true →
      checkMatches value expected = false → False := fun htrue hfalse ↦ by simp [htrue] at hfalse
  -- A digit of a field that has a check digit.
  have hfield : ∀ start finish, start ≤ p → p < finish →
      checkMatches (slice line2 start finish) (slice line2 finish (finish + 1)) = true →
        checkMatches (slice (line2.set p digit') start finish) (slice (line2.set p digit') finish (finish + 1)) =
          true → False := by
    intro start finish hstart hfinish hbefore hafter
    rw [slice_set_of_mem hstart, slice_set_of_notMem (Or.inl hfinish)] at hafter
    exact hcontra hafter (checkMatches_set hdigit hdigit' hne ((getElem?_slice hstart hfinish).trans hplace) hbefore)
  -- A check digit.
  have hcheck : ∀ start, checkMatches (slice line2 start p) (slice line2 p (p + 1)) = true →
      checkMatches (slice (line2.set p digit') start p) (slice (line2.set p digit') p (p + 1)) = true → False := by
    intro start hbefore hafter
    have hset : (line2.set p digit')[p]? = some digit' := by
      obtain ⟨hlt, _⟩ := List.getElem?_eq_some_iff.mp hplace
      exact List.getElem?_set_self hlt
    rw [slice_of_getElem? hplace] at hbefore
    rw [slice_set_of_notMem (Or.inr le_rfl), slice_of_getElem? hset] at hafter
    exact hcontra hafter (checkMatches_misread hne hbefore)
  obtain hp | ⟨hlow, hp⟩ | ⟨hlow, hp⟩ := hp
  · obtain hlt | rfl : p < 9 ∨ p = 9 := by omega
    · exact hfield 0 9 (Nat.zero_le p) hlt h.documentNumber h'.documentNumber
    · exact hcheck 0 h.documentNumber h'.documentNumber
  · obtain hlt | rfl : p < 19 ∨ p = 19 := by omega
    · exact hfield 13 19 hlow hlt h.birthDate h'.birthDate
    · exact hcheck 13 h.birthDate h'.birthDate
  · obtain hlt | rfl | ⟨hlow, hlt⟩ | rfl | rfl :
        p < 27 ∨ p = 27 ∨ (28 ≤ p ∧ p < 42) ∨ p = 42 ∨ p = 43 := by omega
    · exact hfield 21 27 hlow hlt h.expiryDate h'.expiryDate
    · exact hcheck 21 h.expiryDate h'.expiryDate
    · have hcomposite := h'.composite
      have hplace' : (slice line2 28 42)[p - 28]? = some digit := (getElem?_slice hlow hlt).trans hplace
      rw [compositeText, slice_set_of_mem hlow, slice_set_of_notMem (Or.inr (by omega)),
        slice_set_of_notMem (Or.inr (by omega)), slice_set_of_notMem (Or.inr (by omega)),
        slice_set_of_notMem (Or.inr (by omega)), slice_set_of_notMem (Or.inr (by omega)),
        slice_set_of_notMem (Or.inr (by omega)), slice_set_of_notMem (Or.inl (by omega)),
        slice_set_of_notMem (Or.inl (by omega))] at hcomposite
      exact hcontra hcomposite (checkMatches_append_set hdigit hdigit' hne hplace' h.composite)
    · have hcomposite := h'.composite
      have hplace' : (slice line2 42 43)[0]? = some digit := (getElem?_slice le_rfl (by decide)).trans hplace
      have hbefore := h.composite
      rw [compositeText, ← List.append_nil (_ ++ slice line2 42 43)] at hbefore
      rw [compositeText, slice_set_of_mem le_rfl, slice_set_of_notMem (Or.inr (by omega)),
        slice_set_of_notMem (Or.inr (by omega)), slice_set_of_notMem (Or.inr (by omega)),
        slice_set_of_notMem (Or.inr (by omega)), slice_set_of_notMem (Or.inr (by omega)),
        slice_set_of_notMem (Or.inr (by omega)), slice_set_of_notMem (Or.inr le_rfl),
        slice_set_of_notMem (Or.inl (by omega)), ← List.append_nil (_ ++ List.set _ _ _)] at hcomposite
      exact hcontra hcomposite (checkMatches_append_set hdigit hdigit' hne hplace' hbefore)
    · have hset : (line2.set 43 digit')[43]? = some digit' := by
        obtain ⟨hlt, _⟩ := List.getElem?_eq_some_iff.mp hplace
        exact List.getElem?_set_self hlt
      have hbefore := h.composite
      have hafter := h'.composite
      rw [slice_of_getElem? hplace] at hbefore
      rw [compositeText, slice_set_of_notMem (Or.inr (by omega)), slice_set_of_notMem (Or.inr (by omega)),
        slice_set_of_notMem (Or.inr (by omega)), slice_set_of_notMem (Or.inr (by omega)),
        slice_set_of_notMem (Or.inr (by omega)), slice_set_of_notMem (Or.inr (by omega)),
        slice_set_of_notMem (Or.inr (by omega)), slice_set_of_notMem (Or.inr (by omega)),
        slice_of_getElem? hset] at hafter
      exact hcontra hafter (checkMatches_misread hne hbefore)

/-! ## Texts -/

/-- The line of a text that is not ended. -/
def lastLine (text : JsString) : JsString := (splitLines text).getLastD []

/-- The place of a digit between two texts in the second line, if no other line comes after it. -/
def digitPosition (before after : JsString) : Option ℕ :=
  if ((splitLines after).drop 1).all fun line ↦ (normalizeMrzLine line).isEmpty then
    some (normalizeMrzLine (lastLine before)).length
  else none

theorem splitLines_ne_nil (text : JsString) : splitLines text ≠ [] := by
  cases text with
  | nil => exact List.cons_ne_nil _ _
  | cons u rest =>
    rw [splitLines]
    split
    · exact List.cons_ne_nil _ _
    · split
      · exact List.cons_ne_nil _ _
      · exact List.cons_ne_nil _ _

/-- The open line of a text goes on with the first line of the text after it. -/
theorem splitLines_append (x : JsString) :
    ∃ earlier, splitLines x = earlier ++ [lastLine x] ∧
      ∀ y first later, splitLines y = first :: later →
        splitLines (x ++ y) = earlier ++ (lastLine x ++ first) :: later := by
  induction x with
  | nil => exact ⟨[], rfl, fun y first later h ↦ h⟩
  | cons u x ih =>
    obtain ⟨earlier, hx, hnext⟩ := ih
    by_cases hend : isLineEnd u = true
    · have hsplit : ∀ rest, splitLines (u :: rest) = [] :: splitLines rest := fun rest ↦ by
        rw [splitLines, if_pos hend]
      have hlast : lastLine (u :: x) = lastLine x := by
        rw [lastLine, hsplit, hx, List.getLastD_cons, List.getLastD_concat]
      refine ⟨[] :: earlier, ?_, fun y first later hy ↦ ?_⟩
      · rw [hsplit, hx, hlast]
        rfl
      · rw [List.cons_append, hsplit, hnext y first later hy, hlast]
        rfl
    · have hsplit : ∀ {rest line lines}, splitLines rest = line :: lines →
          splitLines (u :: rest) = (u :: line) :: lines := fun h ↦ by
        rw [splitLines, if_neg hend, h]
      cases earlier with
      | nil =>
        have hlast : lastLine (u :: x) = u :: lastLine x := by
          rw [lastLine, hsplit hx]
          rfl
        refine ⟨[], ?_, fun y first later hy ↦ ?_⟩
        · rw [hsplit hx, hlast]
          rfl
        · rw [List.cons_append, hsplit (hnext y first later hy), hlast]
          rfl
      | cons line lines =>
        have hlast : lastLine (u :: x) = lastLine x := by
          rw [lastLine, hsplit hx]
          exact List.getLastD_concat (l := (u :: line) :: lines)
        refine ⟨(u :: line) :: lines, ?_, fun y first later hy ↦ ?_⟩
        · rw [hsplit hx, hlast]
          rfl
        · rw [List.cons_append, hsplit (hnext y first later hy), hlast]
          rfl

theorem normalizeUnit_digit {u : UInt16} (h : isDecimalDigit u = true) : normalizeUnit u = [u] :=
  if_pos (Or.inr (by simpa [isDecimalDigit] using h))

theorem isLineEnd_digit {u : UInt16} (h : isDecimalDigit u = true) : isLineEnd u = false := by
  have hlow := (characterValue_digit h).2.1
  refine Bool.eq_false_iff.mpr fun hend ↦ ?_
  obtain rfl | rfl : u = 0x0D ∨ u = 0x0A := by simpa [isLineEnd] using hend
  · contradiction
  · contradiction

/-- The lines of a text with a digit in a place of its last line. -/
theorem splitMrzLines_digit {before after : JsString} {p : ℕ} (h : digitPosition before after = some p) :
    ∃ earlier a c, a.length = p ∧
      ∀ digit, isDecimalDigit digit = true →
        splitMrzLines (before ++ digit :: after) = earlier ++ [a ++ digit :: c] := by
  unfold digitPosition at h
  split_ifs at h with hlater
  obtain ⟨earlier, _, hnext⟩ := splitLines_append before
  obtain ⟨first, later, hafter⟩ := List.exists_cons_of_ne_nil (splitLines_ne_nil after)
  rw [hafter] at hlater
  refine ⟨(earlier.map normalizeMrzLine).filter fun line ↦ 0 < line.length, normalizeMrzLine (lastLine before),
    normalizeMrzLine first, Option.some.inj h, fun digit hdigit ↦ ?_⟩
  have hsplit : splitLines (digit :: after) = (digit :: first) :: later := by
    rw [splitLines, isLineEnd_digit hdigit, hafter]
    rfl
  have hline : normalizeMrzLine (lastLine before ++ digit :: first) =
      normalizeMrzLine (lastLine before) ++ digit :: normalizeMrzLine first := by
    rw [normalizeMrzLine, List.flatMap_append, List.flatMap_cons, normalizeUnit_digit hdigit]
    rfl
  have hempty : ((later.map normalizeMrzLine).filter fun line ↦ 0 < line.length) = [] := by
    refine List.filter_eq_nil_iff.mpr fun line hline ↦ ?_
    obtain ⟨raw, hraw, rfl⟩ := List.mem_map.mp hline
    have := List.all_eq_true.mp hlater raw hraw
    simpa using this
  rw [splitMrzLines, hnext _ _ _ hsplit, List.map_append, List.map_cons, List.filter_append, List.filter_cons, hline,
    hempty, if_pos (by simp)]

/-- The characters of a choice between two texts. -/
theorem forall_mem_ite {p : Prop} [Decidable p] {P : UInt16 → Prop} {a b : JsString} (ha : p → ∀ v ∈ a, P v)
    (hb : ¬p → ∀ v ∈ b, P v) : ∀ v ∈ if p then a else b, P v := by
  split
  · next h => exact ha h
  · next h => exact hb h

/-- A normalized character is a digit that it was before, a letter or the filler. -/
theorem normalizeUnit_spec (u : UInt16) : ∀ v ∈ normalizeUnit u,
    v = u ∧ isDecimalDigit u = true ∨ (0x41 ≤ v ∧ v ≤ 0x5A) ∨ v = filler := by
  unfold normalizeUnit
  refine forall_mem_ite ?_ fun _ ↦ forall_mem_ite ?_ fun _ ↦ forall_mem_ite ?_ fun _ ↦ ?_
  · rintro (hletter | hdigit) v hmem
    · obtain rfl := List.mem_singleton.mp hmem
      exact Or.inr (Or.inl hletter)
    · obtain rfl := List.mem_singleton.mp hmem
      exact Or.inl ⟨rfl, by simpa [isDecimalDigit] using hdigit⟩
  · exact fun _ v hmem ↦ Or.inr (Or.inr (List.mem_singleton.mp hmem))
  · rintro ⟨hlow, hhigh⟩ v hmem
    obtain rfl := List.mem_singleton.mp hmem
    have hlow' : 0x61 ≤ u.toNat := UInt16.le_iff_toNat_le.mp hlow
    have hhigh' : u.toNat ≤ 0x7A := UInt16.le_iff_toNat_le.mp hhigh
    have hsub := UInt16.toNat_sub_of_le u 0x20 (UInt16.le_iff_toNat_le.mpr (Nat.le_trans (by decide) hlow'))
    have h20 : (0x20 : UInt16).toNat = 32 := rfl
    refine Or.inr (Or.inl ⟨UInt16.le_iff_toNat_le.mpr ?_, UInt16.le_iff_toNat_le.mpr ?_⟩)
    · change 65 ≤ _
      omega
    · change _ ≤ 90
      omega
  · have htext : ∀ {p : Prop} {text : JsString}, (text.all fun v ↦ decide (0x41 ≤ v ∧ v ≤ 0x5A)) = true → p →
        ∀ v ∈ text, v = u ∧ isDecimalDigit u = true ∨ (0x41 ≤ v ∧ v ≤ 0x5A) ∨ v = filler :=
      fun hletters _ v hmem ↦ Or.inr (Or.inl (of_decide_eq_true (List.all_eq_true.mp hletters v hmem)))
    repeat' refine forall_mem_ite (htext (by decide)) fun _ ↦ ?_
    exact fun v hmem ↦ by cases hmem

theorem mem_normalizeUnit {u digit : UInt16} (h : digit ∈ normalizeUnit u) (hdigit : isDecimalDigit digit = true) :
    u = digit := by
  obtain ⟨rfl, _⟩ | ⟨hletter, _⟩ | rfl := normalizeUnit_spec u digit h
  · rfl
  · have hrange := (characterValue_digit hdigit).2.2
    have hlow : 65 ≤ digit.toNat := UInt16.le_iff_toNat_le.mp hletter
    omega
  · contradiction

/-- Each digit of a line comes from a digit of the text before it is normalized. -/
theorem exists_of_normalizeMrzLine {line : JsString} {p : ℕ} {digit : UInt16}
    (h : (normalizeMrzLine line)[p]? = some digit) (hdigit : isDecimalDigit digit = true) :
    ∃ a c, line = a ++ digit :: c ∧ (normalizeMrzLine a).length = p := by
  induction line generalizing p with
  | nil => cases h
  | cons u line ih =>
    rw [normalizeMrzLine, List.flatMap_cons] at h
    by_cases hp : p < (normalizeUnit u).length
    · rw [List.getElem?_append_left hp] at h
      obtain rfl := mem_normalizeUnit (List.mem_of_getElem? h) hdigit
      rw [normalizeUnit_digit hdigit] at hp
      exact ⟨[], line, rfl, (Nat.lt_one_iff.mp hp).symm⟩
    · rw [List.getElem?_append_right (Nat.not_lt.mp hp)] at h
      obtain ⟨a, c, rfl, hlength⟩ := ih h
      refine ⟨u :: a, c, rfl, ?_⟩
      rw [normalizeMrzLine, List.flatMap_cons, List.length_append]
      change _ + (normalizeMrzLine a).length = p
      omega

/-- A unit of a line parts the text before it from the text after it. -/
theorem exists_of_splitLines {input : JsString} {earlier later : List JsString} {a c : JsString} {u : UInt16}
    (h : splitLines input = earlier ++ (a ++ u :: c) :: later) :
    ∃ before after, input = before ++ u :: after ∧ splitLines before = earlier ++ [a] ∧
      splitLines after = c :: later := by
  have hne : ∀ a : JsString, a ++ u :: c ≠ [] := fun a ↦ List.append_ne_nil_of_right_ne_nil a (List.cons_ne_nil u c)
  induction input generalizing earlier a with
  | nil =>
    cases earlier with
    | nil => exact absurd (List.cons.inj h).1.symm (hne a)
    | cons line lines => exact absurd (List.cons.inj h).2.symm (List.append_ne_nil_of_right_ne_nil _ (List.cons_ne_nil _ _))
  | cons v rest ih =>
    by_cases hend : isLineEnd v = true
    · rw [splitLines, if_pos hend] at h
      cases earlier with
      | nil => exact absurd (List.cons.inj h).1.symm (hne a)
      | cons line lines =>
        obtain ⟨rfl, hrest⟩ := List.cons.inj h
        obtain ⟨before, after, rfl, hbefore, hafter⟩ := ih hrest
        refine ⟨v :: before, after, rfl, ?_, hafter⟩
        rw [splitLines, if_pos hend, hbefore]
        rfl
    · obtain ⟨line, lines, hlines⟩ := List.exists_cons_of_ne_nil (splitLines_ne_nil rest)
      rw [splitLines, if_neg hend, hlines] at h
      cases earlier with
      | nil =>
        obtain ⟨hline, rfl⟩ := List.cons.inj h
        cases a with
        | nil =>
          obtain ⟨rfl, rfl⟩ := List.cons.inj hline
          exact ⟨[], rest, rfl, rfl, hlines⟩
        | cons w a =>
          obtain ⟨rfl, rfl⟩ := List.cons.inj hline
          obtain ⟨before, after, rfl, hbefore, hafter⟩ := @ih [] _ hlines
          refine ⟨v :: before, after, rfl, ?_, hafter⟩
          rw [splitLines, if_neg hend, hbefore]
          rfl
      | cons first earlier =>
        obtain ⟨rfl, rfl⟩ := List.cons.inj h
        obtain ⟨before, after, rfl, hbefore, hafter⟩ := @ih (line :: earlier) _ hlines
        refine ⟨v :: before, after, rfl, ?_, hafter⟩
        rw [splitLines, if_neg hend, hbefore]
        rfl

/-- Each digit of the last line of a text stands in one place of the text. -/
theorem exists_digitPosition {input line2 : JsString} {earlier : List JsString} {p : ℕ} {digit : UInt16}
    (hlines : splitMrzLines input = earlier ++ [line2]) (hplace : line2[p]? = some digit)
    (hdigit : isDecimalDigit digit = true) :
    ∃ before after, input = before ++ digit :: after ∧ digitPosition before after = some p := by
  obtain ⟨kept, rest, hsplit, _, hrest⟩ := List.filter_eq_append_iff.mp hlines
  obtain ⟨skipped, later, rfl, _, _, hlater⟩ := List.filter_eq_cons_iff.mp hrest
  rw [← List.append_assoc] at hsplit
  obtain ⟨front, back, hinput, _, hback⟩ := List.map_eq_append_iff.mp hsplit
  obtain ⟨raw, rawLater, rfl, hraw, rfl⟩ := List.map_eq_cons_iff.mp hback
  rw [← hraw] at hplace
  obtain ⟨a, c, rfl, hlength⟩ := exists_of_normalizeMrzLine hplace hdigit
  obtain ⟨before, after, rfl, hbefore, hafter⟩ := exists_of_splitLines hinput
  refine ⟨before, after, rfl, ?_⟩
  have hempty : (rawLater.all fun line ↦ (normalizeMrzLine line).isEmpty) = true := by
    refine List.all_eq_true.mpr fun line hline ↦ ?_
    have := List.filter_eq_nil_iff.mp hlater (normalizeMrzLine line) (List.mem_map_of_mem hline)
    simpa using this
  rw [digitPosition, hafter, List.drop_one, List.tail_cons, if_pos hempty, lastLine, hbefore, List.getLastD_concat,
    hlength]

theorem not_read_misread {before after : JsString} {p : ℕ} {digit digit' : UInt16} {reference : ℤ}
    {record : MrzRecord} (hposition : digitPosition before after = some p) (hchecked : IsChecked p)
    (hdigit : isDecimalDigit digit = true) (hdigit' : isDecimalDigit digit' = true) (hne : digit ≠ digit')
    (hread : parseTd3 (before ++ digit :: after) reference = .ok record) (reference' : ℤ) (record' : MrzRecord) :
    parseTd3 (before ++ digit' :: after) reference' ≠ .ok record' := by
  intro hread'
  obtain ⟨earlier, a, c, rfl, hlines⟩ := splitMrzLines_digit hposition
  rw [parseTd3, hlines digit hdigit, List.reverse_append] at hread
  rw [parseTd3, hlines digit' hdigit', List.reverse_append] at hread'
  cases hearlier : earlier.reverse with
  | nil =>
    rw [hearlier] at hread
    cases hread
  | cons line1 rest =>
    rw [hearlier] at hread hread'
    have hplace : (a ++ digit :: c)[a.length]? = some digit := by simp
    have hset : (a ++ digit :: c).set a.length digit' = a ++ digit' :: c := by simp
    refine not_passed_set (passed_of_parse hread) hchecked hdigit hdigit' hne hplace ?_
    rw [hset]
    exact passed_of_parse hread'

/-- A checked digit of the second line of a text that is read stands in one place of the text, and with any other
digit in this place the text is not read, for any moment of reference. -/
theorem digit_misreads_caught {input line2 : JsString} {earlier : List JsString} {p : ℕ} {digit digit' : UInt16}
    {reference : ℤ} {record : MrzRecord} (hread : parseTd3 input reference = .ok record)
    (hlines : splitMrzLines input = earlier ++ [line2]) (hchecked : IsChecked p) (hplace : line2[p]? = some digit)
    (hdigit : isDecimalDigit digit = true) (hdigit' : isDecimalDigit digit' = true) (hne : digit ≠ digit') :
    (∃ before after, input = before ++ digit :: after ∧ digitPosition before after = some p) ∧
      ∀ before after, input = before ++ digit :: after → digitPosition before after = some p →
        ∀ reference' record', parseTd3 (before ++ digit' :: after) reference' ≠ .ok record' := by
  refine ⟨exists_digitPosition hlines hplace hdigit, ?_⟩
  rintro before after rfl hposition reference' record'
  exact not_read_misread hposition hchecked hdigit hdigit' hne hread reference' record'

/-- The two lines of the specimen. -/
def specimenLines : JsString × JsString :=
  (js "P<UTOERIKSSON<<ANNA<MARIA<<<<<<<<<<<<<<<<<<<", js "L898902C36UTO7408122F1204159ZE184226B<<<<<10")

/-- The specimen is read on 1 June 2010, but not with another check digit of the document number. -/
theorem digit_misreads_caught_specimen :
    parseTd3 (specimenLines.1 ++ 0x0A :: specimenLines.2) 1275350400000 =
        .ok (td3Record specimenLines.1 specimenLines.2) ∧
      ∀ before after, specimenLines.1 ++ 0x0A :: specimenLines.2 = before ++ 0x36 :: after →
        digitPosition before after = some 9 →
          ∀ reference record, parseTd3 (before ++ 0x35 :: after) reference ≠ .ok record :=
  have hread : parseTd3 (specimenLines.1 ++ 0x0A :: specimenLines.2) 1275350400000 =
      .ok (td3Record specimenLines.1 specimenLines.2) := rfl
  ⟨hread, (digit_misreads_caught hread (show _ = [specimenLines.1] ++ [specimenLines.2] from rfl)
    (Or.inl (by decide)) rfl rfl rfl (by decide)).2⟩

end MidnightReferendum.Documents
