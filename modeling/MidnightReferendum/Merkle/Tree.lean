import Mathlib.Data.Finset.Insert
import Mathlib.Tactic.Ring

/-!
# Append-only Merkle trees of fixed depth

A tree of depth `n` holds at most `2 ^ n` leaves, filled from the left. Its root is computed from
three digest functions: one for leaves, one for inner nodes and one for the empty subtree of each
height. When these functions do not collide, an opening path of length `n` that ends in the root
starts at a leaf of the tree, whatever siblings its author chose, and two leaf lists with one root
are equal. Conversely every leaf has such a path.
-/

namespace MidnightReferendum.Merkle

variable {α δ : Type*}

/-- The digest functions of a tree with leaves in `α`. -/
structure TreeHash (α δ : Type*) where
  leaf : α → δ
  node : δ → δ → δ
  empty : ℕ → δ

/-- No two digests collide, and only empty subtrees have an empty digest. The last field holds
both when an empty subtree is hashed from two smaller ones and when its digest is a constant
outside the range of `node`. -/
structure TreeHash.Sound (H : TreeHash α δ) : Prop where
  leaf_injective : Function.Injective H.leaf
  node_injective : ∀ {a b c d : δ}, H.node a b = H.node c d → a = c ∧ b = d
  leaf_ne_empty : ∀ x, H.leaf x ≠ H.empty 0
  node_eq_empty : ∀ {a b : δ} {n : ℕ}, H.node a b = H.empty (n + 1) → a = H.empty n ∧ b = H.empty n

/-- The root of a leaf list in a tree of the given depth. -/
def root (H : TreeHash α δ) : ℕ → List α → δ
  | 0, [] => H.empty 0
  | 0, x :: _ => H.leaf x
  | n + 1, [] => H.empty (n + 1)
  | n + 1, x :: xs =>
    H.node (root H n ((x :: xs).take (2 ^ n))) (root H n ((x :: xs).drop (2 ^ n)))

@[simp]
theorem root_nil (H : TreeHash α δ) (n : ℕ) : root H n [] = H.empty n := by
  cases n <;> rfl

theorem length_take_le (n : ℕ) (xs : List α) : (xs.take (2 ^ n)).length ≤ 2 ^ n :=
  List.length_take_le _ _

theorem length_drop_le {n : ℕ} {xs : List α} (h : xs.length ≤ 2 ^ (n + 1)) :
    (xs.drop (2 ^ n)).length ≤ 2 ^ n := by
  rw [List.length_drop]
  have hpow : 2 ^ (n + 1) = 2 ^ n + 2 ^ n := by ring
  omega

theorem take_ne_nil (n : ℕ) (x : α) (xs : List α) : (x :: xs).take (2 ^ n) ≠ [] := by
  have hpos := Nat.two_pow_pos n
  simp only [ne_eq, List.take_eq_nil_iff, reduceCtorEq, or_false]
  omega

/-- Only the empty list has the empty digest as its root. -/
theorem eq_nil_of_root_eq_empty {H : TreeHash α δ} (hH : H.Sound) {n : ℕ} {xs : List α}
    (h : root H n xs = H.empty n) : xs = [] := by
  induction n generalizing xs with
  | zero =>
    cases xs with
    | nil => rfl
    | cons x xs => exact absurd h (hH.leaf_ne_empty x)
  | succ n ih =>
    cases xs with
    | nil => rfl
    | cons x xs =>
      have htake := ih (hH.node_eq_empty h).1
      exact absurd htake (take_ne_nil n x xs)

/-- A root determines the leaves below it and their order. -/
theorem root_injective {H : TreeHash α δ} (hH : H.Sound) {n : ℕ} {xs ys : List α}
    (hxs : xs.length ≤ 2 ^ n) (hys : ys.length ≤ 2 ^ n) (h : root H n xs = root H n ys) :
    xs = ys := by
  induction n generalizing xs ys with
  | zero =>
    cases xs with
    | nil => exact (eq_nil_of_root_eq_empty hH (n := 0) (h.symm.trans (root_nil H 0))).symm
    | cons x xs =>
      cases ys with
      | nil => exact eq_nil_of_root_eq_empty hH (n := 0) h
      | cons y ys =>
        have hxy : x = y := hH.leaf_injective h
        simp only [List.length_cons, pow_zero] at hxs hys
        rw [hxy, List.length_eq_zero_iff.mp (by omega : xs.length = 0),
          List.length_eq_zero_iff.mp (by omega : ys.length = 0)]
  | succ n ih =>
    cases xs with
    | nil => exact (eq_nil_of_root_eq_empty hH (h.symm.trans (root_nil H (n + 1)))).symm
    | cons x xs =>
      cases ys with
      | nil => exact eq_nil_of_root_eq_empty hH h
      | cons y ys =>
        obtain ⟨hleft, hright⟩ := hH.node_injective h
        have htake := ih (length_take_le n _) (length_take_le n _) hleft
        have hdrop := ih (length_drop_le hxs) (length_drop_le hys) hright
        rw [← List.take_append_drop (2 ^ n) (x :: xs), htake, hdrop, List.take_append_drop]

/-! ## Opening paths -/

/-- One level of a path: the digest next to it and whether the path is the left child. -/
structure PathEntry (δ : Type*) where
  sibling : δ
  goesLeft : Bool
  deriving DecidableEq

/-- A path from a leaf to the root of a tree of the given depth, lowest level first. -/
structure Path (α δ : Type*) (depth : ℕ) where
  leaf : α
  path : List (PathEntry δ)
  length_path : path.length = depth

/-- The digest above one level of a path. -/
def entryRoot (H : TreeHash α δ) (digest : δ) (entry : PathEntry δ) : δ :=
  if entry.goesLeft then H.node digest entry.sibling else H.node entry.sibling digest

def foldPath (H : TreeHash α δ) (digest : δ) (path : List (PathEntry δ)) : δ :=
  path.foldl (entryRoot H) digest

/-- The root that a path claims for its leaf. -/
def pathRoot (H : TreeHash α δ) {depth : ℕ} (p : Path α δ depth) : δ :=
  foldPath H (H.leaf p.leaf) p.path

theorem foldPath_concat (H : TreeHash α δ) (digest : δ) (path : List (PathEntry δ))
    (entry : PathEntry δ) :
    foldPath H digest (path ++ [entry]) = entryRoot H (foldPath H digest path) entry := by
  simp only [foldPath, List.foldl_append, List.foldl_cons, List.foldl_nil]

/-- An entry whose digest is the node `a b` continues the path at `a` or at `b`. -/
theorem entryRoot_eq_node {H : TreeHash α δ} (hH : H.Sound) {digest a b : δ}
    {entry : PathEntry δ} (h : entryRoot H digest entry = H.node a b) : digest = a ∨ digest = b := by
  unfold entryRoot at h
  split at h
  · exact Or.inl (hH.node_injective h).1
  · exact Or.inr (hH.node_injective h).2

theorem entryRoot_eq_empty {H : TreeHash α δ} (hH : H.Sound) {digest : δ} {entry : PathEntry δ}
    {n : ℕ} (h : entryRoot H digest entry = H.empty (n + 1)) : digest = H.empty n := by
  unfold entryRoot at h
  split at h
  · exact (hH.node_eq_empty h).1
  · exact (hH.node_eq_empty h).2

/-- **Path soundness.** A path of full length that ends in the root starts at a leaf of the tree,
for every choice of siblings and directions. -/
theorem mem_of_foldPath_eq_root {H : TreeHash α δ} (hH : H.Sound) {n : ℕ} {x : α}
    {path : List (PathEntry δ)} {xs : List α} (hpath : path.length = n)
    (h : foldPath H (H.leaf x) path = root H n xs) : x ∈ xs := by
  induction n generalizing path xs with
  | zero =>
    rw [List.length_eq_zero_iff.mp hpath] at h
    cases xs with
    | nil => exact absurd h (hH.leaf_ne_empty x)
    | cons y ys => exact List.mem_cons.mpr (Or.inl (hH.leaf_injective h))
  | succ n ih =>
    obtain rfl | ⟨init, entry, rfl⟩ := List.eq_nil_or_concat path
    · simp at hpath
    rw [List.concat_eq_append] at hpath h
    rw [List.length_append, List.length_singleton, Nat.add_right_cancel_iff] at hpath
    rw [foldPath_concat] at h
    cases xs with
    | nil =>
      have hnil := ih hpath ((entryRoot_eq_empty hH h).trans (root_nil H n).symm)
      exact absurd hnil List.not_mem_nil
    | cons y ys =>
      rcases entryRoot_eq_node hH h with hleft | hright
      · exact List.mem_of_mem_take (ih hpath hleft)
      · exact List.mem_of_mem_drop (ih hpath hright)

/-- The path of the first occurrence of a leaf. -/
def findPath [DecidableEq α] (H : TreeHash α δ) (x : α) : ℕ → List α → Option (List (PathEntry δ))
  | _, [] => none
  | 0, y :: _ => if y = x then some [] else none
  | n + 1, y :: ys =>
    match findPath H x n ((y :: ys).take (2 ^ n)) with
    | some path => some (path ++ [⟨root H n ((y :: ys).drop (2 ^ n)), true⟩])
    | none =>
      (findPath H x n ((y :: ys).drop (2 ^ n))).map
        (· ++ [⟨root H n ((y :: ys).take (2 ^ n)), false⟩])

theorem findPath_nil [DecidableEq α] (H : TreeHash α δ) (x : α) (n : ℕ) :
    findPath H x n [] = none := by
  cases n <;> rfl

/-- A found path has full length and ends in the root. -/
theorem findPath_eq_some [DecidableEq α] {H : TreeHash α δ} {x : α} {n : ℕ} {xs : List α}
    {path : List (PathEntry δ)} (h : findPath H x n xs = some path) :
    path.length = n ∧ foldPath H (H.leaf x) path = root H n xs := by
  induction n generalizing xs path with
  | zero =>
    cases xs with
    | nil => simp [findPath] at h
    | cons y ys =>
      simp only [findPath, Option.ite_none_right_eq_some, Option.some.injEq] at h
      rw [← h.2, ← h.1]
      exact ⟨rfl, rfl⟩
  | succ n ih =>
    cases xs with
    | nil => simp [findPath_nil] at h
    | cons y ys =>
      simp only [findPath] at h
      split at h
      · next left hleft =>
        obtain ⟨hlength, hroot⟩ := ih hleft
        rw [← Option.some.inj h, foldPath_concat, hroot, List.length_append, hlength]
        exact ⟨rfl, rfl⟩
      · obtain ⟨right, hright, rfl⟩ := Option.map_eq_some_iff.mp h
        obtain ⟨hlength, hroot⟩ := ih hright
        rw [foldPath_concat, hroot, List.length_append, hlength]
        exact ⟨rfl, rfl⟩

/-- The opening path of a leaf, as the drivers look it up in the ledger. -/
def findPathForLeaf [DecidableEq α] (H : TreeHash α δ) (depth : ℕ) (xs : List α) (x : α) :
    Option (Path α δ depth) :=
  match h : findPath H x depth xs with
  | some path => some ⟨x, path, (findPath_eq_some h).1⟩
  | none => none

/-- Every leaf of a tree that fits its depth has a path. -/
theorem exists_findPath [DecidableEq α] (H : TreeHash α δ) {x : α} {n : ℕ} {xs : List α}
    (hlength : xs.length ≤ 2 ^ n) (hx : x ∈ xs) : ∃ path, findPath H x n xs = some path := by
  induction n generalizing xs with
  | zero =>
    cases xs with
    | nil => simp at hx
    | cons y ys =>
      have hys : ys = [] := by simpa using hlength
      subst hys
      rw [List.mem_singleton] at hx
      exact ⟨[], by simp [findPath, hx]⟩
  | succ n ih =>
    cases xs with
    | nil => simp at hx
    | cons y ys =>
      rw [← List.take_append_drop (2 ^ n) (y :: ys), List.mem_append] at hx
      simp only [findPath]
      split
      · exact ⟨_, rfl⟩
      · next hnone =>
        rcases hx with hleft | hright
        · obtain ⟨path, hpath⟩ := ih (length_take_le n (y :: ys)) hleft
          rw [hnone] at hpath
          exact absurd hpath (by simp)
        · obtain ⟨path, hpath⟩ := ih (length_drop_le hlength) hright
          rw [hpath]
          exact ⟨_, rfl⟩

/-- The looked up path of a leaf starts at the leaf and ends in the root. -/
theorem exists_findPathForLeaf [DecidableEq α] (H : TreeHash α δ) {x : α} {n : ℕ} {xs : List α}
    (hlength : xs.length ≤ 2 ^ n) (hx : x ∈ xs) :
    ∃ p, findPathForLeaf H n xs x = some p ∧ p.leaf = x ∧ pathRoot H p = root H n xs := by
  obtain ⟨path, hpath⟩ := exists_findPath H hlength hx
  unfold findPathForLeaf
  split
  · next path' hpath' => exact ⟨_, rfl, rfl, (findPath_eq_some hpath').2⟩
  · next hnone =>
    rw [hpath] at hnone
    cases hnone

/-! ## Trees with a capacity -/

/-- The leaves of a tree, which never exceed its capacity. -/
structure Tree (α : Type*) (depth : ℕ) where
  leaves : List α
  length_le : leaves.length ≤ 2 ^ depth

namespace Tree

variable {depth : ℕ}

def empty (α : Type*) (depth : ℕ) : Tree α depth := ⟨[], by simp⟩

/-- The next free position lies outside the tree. -/
def isFull (t : Tree α depth) : Bool := decide (2 ^ depth ≤ t.leaves.length)

/-- Append a leaf at the next free position, if there is one. -/
def insert? (t : Tree α depth) (x : α) : Option (Tree α depth) :=
  if h : t.leaves.length < 2 ^ depth then
    some ⟨t.leaves ++ [x], by rw [List.length_append, List.length_singleton]; omega⟩
  else none

def root (H : TreeHash α δ) (t : Tree α depth) : δ := Merkle.root H depth t.leaves

@[simp]
theorem leaves_empty : (empty α depth).leaves = [] := rfl

theorem isFull_eq_false {t : Tree α depth} : t.isFull = false ↔ t.leaves.length < 2 ^ depth := by
  simp [isFull]

theorem leaves_insert? {t t' : Tree α depth} {x : α} (h : t.insert? x = some t') :
    t'.leaves = t.leaves ++ [x] := by
  unfold insert? at h
  split at h
  · rw [← Option.some.inj h]
  · simp at h

/-- Two trees with one root have the same leaves in the same order. -/
theorem leaves_eq_of_root_eq {H : TreeHash α δ} (hH : H.Sound) {t u : Tree α depth}
    (h : t.root H = u.root H) : t.leaves = u.leaves :=
  root_injective hH t.length_le u.length_le h

/-- A leaf `x` opens the root `r`: some path of full length leads from `x` to `r`. -/
def Opens (H : TreeHash α δ) (depth : ℕ) (x : α) (r : δ) : Prop :=
  ∃ p : Path α δ depth, p.leaf = x ∧ pathRoot H p = r

/-- Exactly the leaves of a tree open its root. -/
theorem opens_root_iff {H : TreeHash α δ} (hH : H.Sound) {t : Tree α depth} {x : α} :
    Opens H depth x (t.root H) ↔ x ∈ t.leaves := by
  classical
  constructor
  · rintro ⟨p, rfl, hp⟩
    exact mem_of_foldPath_eq_root hH p.length_path hp
  · intro hx
    obtain ⟨p, _, hleaf, hroot⟩ := exists_findPathForLeaf H t.length_le hx
    exact ⟨p, hleaf, hroot⟩

end Tree

/-! ## Trees that remember their earlier roots -/

/-- A tree together with the roots of all its earlier states. -/
structure HistoricTree (H : TreeHash α δ) (depth : ℕ) extends Tree α depth where
  roots : Finset δ
  mem_roots : ∀ r, r ∈ roots ↔ ∃ xs, xs <+: leaves ∧ Merkle.root H depth xs = r

namespace HistoricTree

variable {H : TreeHash α δ} {depth : ℕ}

def empty (H : TreeHash α δ) (depth : ℕ) : HistoricTree H depth where
  toTree := Tree.empty α depth
  roots := {H.empty depth}
  mem_roots := by simp [eq_comm]

theorem isPrefix_concat_iff {xs ys : List α} {x : α} : ys <+: xs ++ [x] ↔ ys <+: xs ∨ ys = xs ++ [x] := by
  rw [List.prefix_concat_iff, or_comm]

variable [DecidableEq δ]

/-- Append a leaf and record the new root. -/
def insert? (t : HistoricTree H depth) (x : α) : Option (HistoricTree H depth) :=
  if h : t.leaves.length < 2 ^ depth then
    some {
      leaves := t.leaves ++ [x]
      length_le := by rw [List.length_append, List.length_singleton]; omega
      roots := insert (Merkle.root H depth (t.leaves ++ [x])) t.roots
      mem_roots := by
        intro r
        rw [Finset.mem_insert, t.mem_roots]
        simp only [isPrefix_concat_iff, or_and_right, exists_or, exists_eq_left]
        rw [or_comm, eq_comm] }
  else none

/-- The given root is the root of this tree or of an earlier state of it. -/
def checkRoot (t : HistoricTree H depth) (r : δ) : Bool := decide (r ∈ t.roots)

theorem leaves_insert? {t t' : HistoricTree H depth} {x : α} (h : t.insert? x = some t') :
    t'.leaves = t.leaves ++ [x] := by
  unfold insert? at h
  split at h
  · rw [← Option.some.inj h]
  · simp at h

theorem exists_insert? {t : HistoricTree H depth} {x : α} (h : t.leaves.length < 2 ^ depth) :
    ∃ t', t.insert? x = some t' := by
  unfold insert?
  rw [dif_pos h]
  exact ⟨_, rfl⟩

/-- A leaf that opens a root of the history is a leaf of the tree. -/
theorem mem_leaves_of_checkRoot (hH : H.Sound) {t : HistoricTree H depth} {p : Path α δ depth}
    (h : t.checkRoot (pathRoot H p) = true) : p.leaf ∈ t.leaves := by
  obtain ⟨xs, hinit, hroot⟩ := (t.mem_roots _).mp (of_decide_eq_true h)
  exact hinit.subset (mem_of_foldPath_eq_root hH p.length_path hroot.symm)

/-- Every leaf has a path that passes `checkRoot`. -/
theorem exists_path_of_mem (hH : H.Sound) {t : HistoricTree H depth} {x : α} (hx : x ∈ t.leaves) :
    ∃ p : Path α δ depth, p.leaf = x ∧ t.checkRoot (pathRoot H p) = true := by
  obtain ⟨p, hleaf, hroot⟩ := (Tree.opens_root_iff hH (t := t.toTree)).mpr hx
  exact ⟨p, hleaf, decide_eq_true ((t.mem_roots _).mpr ⟨_, List.prefix_rfl, hroot.symm⟩)⟩

end HistoricTree

end MidnightReferendum.Merkle
