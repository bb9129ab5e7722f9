import MidnightReferendum.Documents.CheckDigits

/-!
# Recognizing a passport in a frame

`mrz-recognition.ts`. Of the lines of a frame the recognizer tries one pair: the first line of 44 characters that begins
with `P`, and the next line of 44 characters. Any other such line before a passport hides it.
-/

namespace MidnightReferendum.Documents

open Js

/-! ## The recognizer -/

/-- The first candidate that begins with `P` and has a candidate after it. -/
def firstPair : List JsString → Option (JsString × JsString)
  | first :: second :: candidates =>
    if first.head? = some 0x50 then some (first, second) else firstPair (second :: candidates)
  | _ => none

/-- The lines of a frame. -/
def frameLines (blocks : List JsString) : List JsString := blocks.flatMap splitMrzLines

/-- The two lines that the recognizer tries. -/
def triedLines (blocks : List JsString) : Option (JsString × JsString) :=
  firstPair ((frameLines blocks).filter fun line ↦ line.length = td3LineLength)

/-- `first + '\n' + second` -/
def joinLines (first second : JsString) : JsString := first ++ 0x0A :: second

def findTd3Pair (blocks : List JsString) : Option JsString := (triedLines blocks).map fun pair ↦ joinLines pair.1 pair.2

/-- `recognize` on what the detector found, or on nothing if it threw. A block may have no text. -/
def recognize (detected : Option (List (Option JsString))) (reference : ℤ) : Option MrzRecord := do
  let blocks ← detected
  let pair ← findTd3Pair (blocks.map fun block ↦ block.getD [])
  (parseTd3 pair reference).toOption

/-! ## Normal lines -/

/-- A line that has been normalized. -/
def IsNormal (line : JsString) : Prop := ∀ u ∈ line, normalizeUnit u = [u] ∧ isLineEnd u = false

theorem normal_normalizeUnit {u v : UInt16} (h : v ∈ normalizeUnit u) : normalizeUnit v = [v] ∧ isLineEnd v = false := by
  obtain ⟨rfl, hdigit⟩ | hletter | rfl := normalizeUnit_spec u v h
  · exact ⟨normalizeUnit_digit hdigit, isLineEnd_digit hdigit⟩
  · refine ⟨if_pos (Or.inl hletter), Bool.eq_false_iff.mpr fun hend ↦ ?_⟩
    have hlow : 65 ≤ v.toNat := UInt16.le_iff_toNat_le.mp hletter.1
    obtain rfl | rfl : v = 0x0D ∨ v = 0x0A := by simpa [isLineEnd] using hend
    · contradiction
    · contradiction
  · exact ⟨rfl, rfl⟩

theorem isNormal_of_mem {blocks : List JsString} {line : JsString} (h : line ∈ frameLines blocks) :
    IsNormal line ∧ line ≠ [] := by
  obtain ⟨block, _, hblock⟩ := List.mem_flatMap.mp h
  obtain ⟨hmem, hlength⟩ := List.mem_filter.mp hblock
  obtain ⟨raw, _, rfl⟩ := List.mem_map.mp hmem
  refine ⟨fun v hv ↦ ?_, List.ne_nil_of_length_pos (by simpa using hlength)⟩
  obtain ⟨u, _, hv⟩ := List.mem_flatMap.mp hv
  exact normal_normalizeUnit hv

theorem normalizeMrzLine_of_normal {line : JsString} (h : IsNormal line) : normalizeMrzLine line = line := by
  induction line with
  | nil => rfl
  | cons u line ih =>
    rw [normalizeMrzLine, List.flatMap_cons, (h u List.mem_cons_self).1]
    exact congrArg (u :: ·) (ih fun v hv ↦ h v (List.mem_cons_of_mem u hv))

theorem splitLines_of_normal {line : JsString} (h : IsNormal line) : splitLines line = [line] := by
  induction line with
  | nil => rfl
  | cons u line ih =>
    have hrest := ih fun v hv ↦ h v (List.mem_cons_of_mem u hv)
    rw [splitLines, (h u List.mem_cons_self).2, hrest]
    rfl

/-- Two normal lines are read as they are. -/
theorem parseTd3_joinLines {line1 line2 : JsString} (h1 : IsNormal line1 ∧ line1 ≠ []) (h2 : IsNormal line2 ∧ line2 ≠ [])
    (reference : ℤ) : parseTd3 (joinLines line1 line2) reference = parseTd3Lines line1 line2 reference := by
  obtain ⟨earlier, hsplit, hnext⟩ := splitLines_append line1
  rw [splitLines_of_normal h1.1] at hsplit
  have hlater : splitLines (0x0A :: line2) = [] :: [line2] := by
    rw [splitLines, if_pos (show isLineEnd 0x0A = true from rfl), splitLines_of_normal h2.1]
  have hlines : splitLines (joinLines line1 line2) = [line1, line2] := by
    cases earlier with
    | nil =>
      obtain ⟨hlast, _⟩ := List.cons.inj hsplit
      rw [joinLines, hnext _ _ _ hlater, ← hlast, List.append_nil, List.nil_append]
    | cons first earlier =>
      have hlength := congrArg List.length hsplit
      rw [List.length_append] at hlength
      cases hlength
  have hkeep : ([line1, line2].filter fun line ↦ 0 < line.length) = [line1, line2] := by
    refine List.filter_eq_self.mpr fun line hline ↦ decide_eq_true (List.length_pos_of_ne_nil ?_)
    obtain rfl | hline := List.mem_cons.mp hline
    · exact h1.2
    · rw [List.mem_singleton.mp hline]
      exact h2.2
  rw [parseTd3, splitMrzLines, hlines, List.map_cons, List.map_cons, List.map_nil, normalizeMrzLine_of_normal h1.1,
    normalizeMrzLine_of_normal h2.1, hkeep]
  rfl

/-! ## The tried lines -/

/-- Lines at two places of a frame: the first line of 44 characters that begins with `P`, and the next line of 44
characters. -/
structure FirstCandidates (lines : List JsString) (i j : ℕ) (line1 line2 : JsString) : Prop where
  first : lines[i]? = some line1
  length1 : line1.length = td3LineLength
  code : line1.head? = some 0x50
  second : lines[j]? = some line2
  length2 : line2.length = td3LineLength
  order : i < j
  earlier : ∀ k < i, ∀ line, lines[k]? = some line → line.length = td3LineLength → line.head? ≠ some 0x50
  between : ∀ k, i < k → k < j → ∀ line, lines[k]? = some line → line.length ≠ td3LineLength

theorem firstPair_append {earlier rest : List JsString} {line1 line2 : JsString}
    (hearlier : ∀ line ∈ earlier, line.head? ≠ some 0x50) (hline1 : line1.head? = some 0x50) :
    firstPair (earlier ++ line1 :: line2 :: rest) = some (line1, line2) := by
  induction earlier with
  | nil => rw [List.nil_append, firstPair, if_pos hline1]
  | cons line earlier ih =>
    obtain ⟨hline, hrest⟩ := List.forall_mem_cons.mp hearlier
    have hnext := ih hrest
    cases earlier with
    | nil => rwa [List.cons_append, List.nil_append, firstPair, if_neg hline]
    | cons next earlier => rwa [List.cons_append, List.cons_append, firstPair, if_neg hline]

/-- The pair that is tried comes after candidates that do not begin with `P`. -/
theorem firstPair_eq_some {candidates : List JsString} {line1 line2 : JsString}
    (h : firstPair candidates = some (line1, line2)) :
    ∃ earlier rest, candidates = earlier ++ line1 :: line2 :: rest ∧ (∀ line ∈ earlier, line.head? ≠ some 0x50) ∧
      line1.head? = some 0x50 := by
  induction candidates using firstPair.induct with
  | case1 a b candidates hhead =>
    rw [firstPair, if_pos hhead] at h
    cases h
    exact ⟨[], candidates, rfl, fun _ hmem ↦ (by cases hmem), hhead⟩
  | case2 a b candidates hhead ih =>
    rw [firstPair, if_neg hhead] at h
    obtain ⟨earlier, rest, heq, hearlier, hcode⟩ := ih h
    exact ⟨a :: earlier, rest, by rw [heq, List.cons_append], List.forall_mem_cons.mpr ⟨hhead, hearlier⟩, hcode⟩
  | case3 candidates hne =>
    rw [firstPair] at h
    · cases h
    · exact hne

/-- The places of two lines, from the lines before, between and after them. -/
theorem firstCandidates_of_split {before between after : List JsString} {line1 line2 : JsString}
    (hbefore : ∀ line ∈ before, line.length = td3LineLength → line.head? ≠ some 0x50)
    (hbetween : ∀ line ∈ between, line.length ≠ td3LineLength) (hlength1 : line1.length = td3LineLength)
    (hcode : line1.head? = some 0x50) (hlength2 : line2.length = td3LineLength) :
    FirstCandidates (before ++ line1 :: (between ++ line2 :: after)) before.length
      (before.length + 1 + between.length) line1 line2 where
  first := by simp
  length1 := hlength1
  code := hcode
  second := by
    rw [List.getElem?_append_right (by omega), show before.length + 1 + between.length - before.length =
      between.length + 1 by omega, List.getElem?_cons_succ, List.getElem?_append_right (le_refl _)]
    simp
  length2 := hlength2
  order := by omega
  earlier k hk line hline := by
    rw [List.getElem?_append_left hk] at hline
    exact hbefore line (List.mem_of_getElem? hline)
  between k hik hkj line hline := by
    obtain ⟨l, rfl⟩ : ∃ l, k = before.length + (l + 1) := ⟨k - before.length - 1, by omega⟩
    rw [List.getElem?_append_right (by omega), Nat.add_sub_cancel_left, List.getElem?_cons_succ,
      List.getElem?_append_left (by omega)] at hline
    exact hbetween line (List.mem_of_getElem? hline)

theorem FirstCandidates.split {lines : List JsString} {i j : ℕ} {line1 line2 : JsString}
    (h : FirstCandidates lines i j line1 line2) :
    ∃ before between after, lines = before ++ line1 :: (between ++ line2 :: after) ∧
      (∀ line ∈ before, line.length = td3LineLength → line.head? ≠ some 0x50) ∧
      ∀ line ∈ between, line.length ≠ td3LineLength := by
  obtain ⟨hi, rfl⟩ := List.getElem?_eq_some_iff.mp h.first
  obtain ⟨hj, rfl⟩ := List.getElem?_eq_some_iff.mp h.second
  have horder := h.order
  refine ⟨lines.take i, (lines.drop (i + 1)).take (j - i - 1), lines.drop (j + 1), ?_, ?_, ?_⟩
  · have hrest : (lines.drop (i + 1)).drop (j - i - 1) = lines[j] :: lines.drop (j + 1) := by
      rw [List.drop_drop, show i + 1 + (j - i - 1) = j by omega, List.drop_eq_getElem_cons hj]
    rw [← hrest, List.take_append_drop, ← List.drop_eq_getElem_cons hi, List.take_append_drop]
  · intro line hmem
    obtain ⟨k, hk⟩ := List.mem_iff_getElem?.mp hmem
    obtain ⟨hlt, _⟩ := List.getElem?_eq_some_iff.mp hk
    rw [List.length_take] at hlt
    rw [List.getElem?_take_of_lt (by omega)] at hk
    exact h.earlier k (by omega) line hk
  · intro line hmem
    obtain ⟨k, hk⟩ := List.mem_iff_getElem?.mp hmem
    obtain ⟨hlt, _⟩ := List.getElem?_eq_some_iff.mp hk
    rw [List.length_take] at hlt
    rw [List.getElem?_take_of_lt (by omega), List.getElem?_drop] at hk
    exact h.between (i + 1 + k) (by omega) (by omega) line hk

/-- The recognizer tries the lines at these places. -/
theorem triedLines_eq_some_iff {blocks : List JsString} {line1 line2 : JsString} :
    triedLines blocks = some (line1, line2) ↔ ∃ i j, FirstCandidates (frameLines blocks) i j line1 line2 := by
  constructor
  · intro h
    obtain ⟨earlier, rest, hfilter, hearlier, hcode⟩ := firstPair_eq_some h
    obtain ⟨front, back, hlines, hfront, hback⟩ := List.filter_eq_append_iff.mp hfilter
    obtain ⟨skipped, tail, rfl, hskipped, hlength1, htail⟩ := List.filter_eq_cons_iff.mp hback
    obtain ⟨between, after, rfl, hbetween, hlength2, _⟩ := List.filter_eq_cons_iff.mp htail
    rw [hlines, ← List.append_assoc]
    refine ⟨_, _, firstCandidates_of_split (fun line hmem hlength ↦ ?_) (fun line hmem ↦ ?_)
      (of_decide_eq_true hlength1) hcode (of_decide_eq_true hlength2)⟩
    · obtain hmem | hmem := List.mem_append.mp hmem
      · apply hearlier line
        rw [← hfront, List.mem_filter]
        exact ⟨hmem, decide_eq_true hlength⟩
      · exact absurd (decide_eq_true hlength) (hskipped line hmem)
    · exact fun hlength ↦ hbetween line hmem (decide_eq_true hlength)
  · rintro ⟨i, j, h⟩
    obtain ⟨before, between, after, hlines, hbefore, hbetween⟩ := h.split
    have hnone : (between.filter fun line ↦ line.length = td3LineLength) = [] := by
      rw [List.filter_eq_nil_iff]
      exact fun line hmem hlength ↦ hbetween line hmem (of_decide_eq_true hlength)
    rw [triedLines, hlines, List.filter_append, List.filter_cons, if_pos (decide_eq_true h.length1), List.filter_append,
      hnone, List.nil_append, List.filter_cons, if_pos (decide_eq_true h.length2)]
    apply firstPair_append _ h.code
    intro line hline
    obtain ⟨hmem, hlength⟩ := List.mem_filter.mp hline
    exact hbefore line hmem (of_decide_eq_true hlength)

theorem mem_frameLines_of_tried {blocks : List JsString} {line1 line2 : JsString}
    (h : triedLines blocks = some (line1, line2)) : line1 ∈ frameLines blocks ∧ line2 ∈ frameLines blocks := by
  obtain ⟨i, j, hplaces⟩ := triedLines_eq_some_iff.mp h
  exact ⟨List.mem_of_getElem? hplaces.first, List.mem_of_getElem? hplaces.second⟩

/-- What the recognizer returns is the record of the tried lines. -/
theorem recognize_eq_some {blocks : List JsString} {reference : ℤ} {record : MrzRecord} :
    recognize (some (blocks.map some)) reference = some record ↔
      ∃ line1 line2, triedLines blocks = some (line1, line2) ∧ parseTd3Lines line1 line2 reference = .ok record := by
  have hblocks : ((blocks.map some).map fun block ↦ block.getD []) = blocks := by
    rw [List.map_map]
    exact List.map_id blocks
  change (findTd3Pair ((blocks.map some).map fun block ↦ block.getD [])).bind
    (fun pair ↦ (parseTd3 pair reference).toOption) = some record ↔ _
  rw [hblocks, findTd3Pair]
  cases htried : triedLines blocks with
  | none => simp
  | some pair =>
    obtain ⟨line1, line2⟩ := pair
    obtain ⟨h1, h2⟩ := mem_frameLines_of_tried htried
    rw [Option.map_some, Option.bind_some, parseTd3_joinLines (isNormal_of_mem h1) (isNormal_of_mem h2)]
    cases hparse : parseTd3Lines line1 line2 reference with
    | error failure => simp [Except.toOption, hparse]
    | ok record' => simp [Except.toOption, hparse]

/-! ## Readable passports -/

/-- The lines of a frame at two places in a row are read. -/
def ReadAt (blocks : List JsString) (reference : ℤ) (i : ℕ) (record : MrzRecord) : Prop :=
  ∃ line1 line2, (frameLines blocks)[i]? = some line1 ∧ (frameLines blocks)[i + 1]? = some line2 ∧
    parseTd3 (joinLines line1 line2) reference = .ok record

/-- If some lines of the frame are read, such lines are found, and the only ones where there are no others; and what
is found has passed all checks. -/
structure Finds (blocks : List JsString) (reference : ℤ) : Prop where
  found : (∃ i record, ReadAt blocks reference i record) →
    ∃ i record, ReadAt blocks reference i record ∧ recognize (some (blocks.map some)) reference = some record
  only : ∀ i record, ReadAt blocks reference i record → (∀ j record', ReadAt blocks reference j record' → j = i) →
    recognize (some (blocks.map some)) reference = some record
  passed : ∀ record, recognize (some (blocks.map some)) reference = some record →
    ∃ line1 ∈ frameLines blocks, ∃ line2 ∈ frameLines blocks, Passed line1 line2 ∧ record = td3Record line1 line2

/-- If some lines of the frame are read, then so are the first line of 44 characters that begins with `P` and the next
line of 44 characters, as two lines in a row are. -/
def FirstReadable (blocks : List JsString) (reference : ℤ) : Prop :=
  (∃ k record, ReadAt blocks reference k record) →
    ∃ i j line1 line2 record, FirstCandidates (frameLines blocks) i j line1 line2 ∧
      parseTd3 (joinLines line1 line2) reference = .ok record ∧ ∃ k, ReadAt blocks reference k record

theorem record_of_parse {line1 line2 : JsString} {reference : ℤ} {record : MrzRecord}
    (h : parseTd3Lines line1 line2 reference = .ok record) : record = td3Record line1 line2 := by
  unfold parseTd3Lines at h
  split_ifs at h
  exact (Except.ok.inj h).symm

theorem ReadAt.unique {blocks : List JsString} {reference : ℤ} {i : ℕ} {record record' : MrzRecord}
    (h : ReadAt blocks reference i record) (h' : ReadAt blocks reference i record') : record = record' := by
  obtain ⟨line1, line2, h1, h2, hparse⟩ := h
  obtain ⟨line1', line2', h1', h2', hparse'⟩ := h'
  obtain rfl := Option.some.inj (h1.symm.trans h1')
  obtain rfl := Option.some.inj (h2.symm.trans h2')
  exact Except.ok.inj (hparse.symm.trans hparse')

/-- The recognizer finds the passports of a frame if and only if the first line of 44 characters that begins with `P` is
read with the next line of 44 characters whenever some lines are read. -/
theorem finds_iff (blocks : List JsString) (reference : ℤ) :
    Finds blocks reference ↔ FirstReadable blocks reference := by
  have hjoin : ∀ {line1 line2 record}, triedLines blocks = some (line1, line2) →
      (parseTd3 (joinLines line1 line2) reference = .ok record ↔
        parseTd3Lines line1 line2 reference = .ok record) := by
    intro line1 line2 record htried
    obtain ⟨h1, h2⟩ := mem_frameLines_of_tried htried
    rw [parseTd3_joinLines (isNormal_of_mem h1) (isNormal_of_mem h2)]
  constructor
  · intro h hsome
    obtain ⟨i, record, hread, hfound⟩ := h.found hsome
    obtain ⟨line1, line2, htried, hparse⟩ := recognize_eq_some.mp hfound
    obtain ⟨first, second, hplaces⟩ := triedLines_eq_some_iff.mp htried
    exact ⟨first, second, line1, line2, record, hplaces, (hjoin htried).mpr hparse, i, hread⟩
  · intro h
    have hfound : (∃ i record, ReadAt blocks reference i record) →
        ∃ i record, ReadAt blocks reference i record ∧
          recognize (some (blocks.map some)) reference = some record := by
      intro hsome
      obtain ⟨first, second, line1, line2, record, hplaces, hparse, i, hread⟩ := h hsome
      have htried := triedLines_eq_some_iff.mpr ⟨first, second, hplaces⟩
      exact ⟨i, record, hread, recognize_eq_some.mpr ⟨line1, line2, htried, (hjoin htried).mp hparse⟩⟩
    refine ⟨hfound, fun i record hread honly ↦ ?_, fun record hrecord ↦ ?_⟩
    · obtain ⟨j, record', hread', hrecognize⟩ := hfound ⟨i, record, hread⟩
      obtain rfl := honly j record' hread'
      rw [hread.unique hread', hrecognize]
    · obtain ⟨line1, line2, htried, hparse⟩ := recognize_eq_some.mp hrecord
      obtain ⟨h1, h2⟩ := mem_frameLines_of_tried htried
      exact ⟨line1, h1, line2, h2, passed_of_parse hparse, record_of_parse hparse⟩

/-- A frame in which the first line of the specimen is seen twice. -/
def doubledFrame : List JsString := [specimenLines.1, specimenLines.1, specimenLines.2]

/-- The passport is in the frame, and nothing is found. -/
theorem doubled_line_hides_passport :
    ReadAt doubledFrame 1275350400000 1 (td3Record specimenLines.1 specimenLines.2) ∧
      recognize (some (doubledFrame.map some)) 1275350400000 = none ∧ ¬Finds doubledFrame 1275350400000 := by
  have hread : ReadAt doubledFrame 1275350400000 1 (td3Record specimenLines.1 specimenLines.2) :=
    ⟨specimenLines.1, specimenLines.2, rfl, rfl, rfl⟩
  have hnone : recognize (some (doubledFrame.map some)) 1275350400000 = none := rfl
  refine ⟨hread, hnone, fun h ↦ ?_⟩
  obtain ⟨i, record, _, hfound⟩ := h.found ⟨1, _, hread⟩
  rw [hnone] at hfound
  cases hfound

end MidnightReferendum.Documents
