import MidnightReferendum.Compact.Runtime

/-!
# The symbolic hash functions

Hashing in the free term algebra: a hash value is the term that was hashed. No two terms collide,
so the assumption `Hashing.CollisionFree` has a model, and in this model every circuit can be
evaluated on concrete inputs.
-/

namespace MidnightReferendum.Compact

/-- A symbolic 32-byte value. -/
inductive Term where
  | text (text : String)
  | uint (value : ℕ)
  | nil
  | cons (head tail : Term)
  | hash (preimage : Term)
  | commit (value opening : Term)
  | commitEnum (ordinal : ℕ) (opening : Term)
  deriving DecidableEq

/-- A symbolic Merkle digest. -/
inductive Digest where
  | leaf (value : Term)
  | node (left right : Digest)
  | empty (height : ℕ)
  deriving DecidableEq

/-- The preimage of a vector. -/
def Term.ofList : List Term → Term
  | [] => .nil
  | t :: ts => .cons t (ofList ts)

theorem Term.ofList_injective : Function.Injective Term.ofList := by
  intro ts us h
  induction ts generalizing us with
  | nil =>
    cases us with
    | nil => rfl
    | cons u us => simp [Term.ofList] at h
  | cons t ts ih =>
    cases us with
    | nil => simp [Term.ofList] at h
    | cons u us =>
      simp only [Term.ofList, Term.cons.injEq] at h
      rw [h.1, ih h.2]

def symbolic : Hashing Term Digest where
  persistentHash ts := .hash (.ofList ts)
  persistentCommit ts opening := .commit (.ofList ts) opening
  persistentCommitEnum := .commitEnum
  pad := .text
  asBytes32 := .uint
  leafHash := .leaf
  transientHash := .node
  emptySubtree := .empty
  defaultDigest := .empty 0

theorem symbolic_tree_sound : symbolic.tree.Sound where
  leaf_injective _ _ h := Digest.leaf.inj h
  node_injective h := Digest.node.inj h
  leaf_ne_empty _ h := nomatch h
  node_eq_empty h := nomatch h

theorem symbolic_collisionFree : symbolic.CollisionFree where
  persistentHash_injective _ _ h := Term.ofList_injective (Term.hash.inj h)
  persistentCommit_injective h := ⟨Term.ofList_injective (Term.commit.inj h).1, (Term.commit.inj h).2⟩
  persistentCommitEnum_injective h := Term.commitEnum.inj h
  asBytes32_injective _ _ h := Term.uint.inj h
  tree_sound := symbolic_tree_sound

/-- The path of a leaf, or a path to nowhere when the leaves do not hold it. -/
def symbolicPath (depth : ℕ) (leaves : List Term) (leaf : Term) : Merkle.Path Term Digest depth :=
  (Merkle.findPathForLeaf symbolic.tree depth leaves leaf).getD
    ⟨leaf, List.replicate depth ⟨.empty 0, true⟩, List.length_replicate⟩

end MidnightReferendum.Compact
