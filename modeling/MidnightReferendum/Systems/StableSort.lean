import Mathlib.Data.List.Sort

/-!
# Stable sorting

Insertion sort keeps the order of entries that compare equal, so that a part of a list can be sorted
first, and entries that come in order stay as they are.
-/

namespace MidnightReferendum.StableSort

variable {α : Type*} (r : α → α → Prop) [DecidableRel r] [Std.Total r] [IsTrans α r]

theorem orderedInsert_comm {a b : α} (h : ¬r a b) (l : List α) :
    (l.orderedInsert r a).orderedInsert r b = (l.orderedInsert r b).orderedInsert r a := by
  have hba : r b a := (total_of r a b).resolve_left h
  induction l with
  | nil => simp [h, hba]
  | cons c l ih =>
    by_cases hac : r a c
    · have hbc : r b c := trans_of r hba hac
      simp [hac, hbc, h, hba]
    · by_cases hbc : r b c
      · simp [hac, hbc, h]
      · simp [hac, hbc, ih]

/-- Sorting a part first does not change the sorted list. -/
theorem insertionSort_append (l m : List α) :
    (l.insertionSort r ++ m).insertionSort r = (l ++ m).insertionSort r := by
  have hinsert : ∀ (a : α) (l : List α),
      (l.orderedInsert r a ++ m).insertionSort r = ((l ++ m).insertionSort r).orderedInsert r a := by
    intro a l
    induction l with
    | nil => simp
    | cons b l ih =>
      by_cases hab : r a b
      · simp [hab]
      · rw [List.orderedInsert_cons, if_neg hab, List.cons_append, List.insertionSort_cons, ih,
          orderedInsert_comm r hab, List.cons_append, List.insertionSort_cons]
  induction l with
  | nil => rfl
  | cons a l ih => rw [List.insertionSort_cons, hinsert, ih, List.cons_append, List.insertionSort_cons]

omit [Std.Total r] [IsTrans α r] in
/-- Sorting keeps the order of the entries that are sorted among themselves. -/
theorem filter_insertionSort {p : α → Bool} {l : List α} (h : (l.filter p).Pairwise r) :
    (l.insertionSort r).filter p = l.filter p := by
  have hsublist : (l.filter p).Sublist ((l.insertionSort r).filter p) := by
    simpa using (List.sublist_insertionSort h List.filter_sublist).filter p
  exact (hsublist.eq_of_length ((List.perm_insertionSort r l).filter p).length_eq.symm).symm

end MidnightReferendum.StableSort
