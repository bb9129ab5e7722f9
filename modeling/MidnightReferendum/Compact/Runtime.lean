import MidnightReferendum.Merkle.Tree

/-!
# The Compact runtime used by the contracts

The contracts hash with the runtime's `persistentHash`, `persistentCommit` and Merkle digests.
These are parameters of the model: `Hashing` collects them over a type `B` of 32-byte values and a
type `D` of Merkle digests, and `Hashing.CollisionFree` is the assumption that they do not collide.

A circuit runs on the ledger state and either ends or fails in an assertion. The state that a
failing circuit has reached is kept in its result, so that writes made before a failing assertion
are visible in the model; `transact` is the transaction around the circuit, which drops them.
-/

namespace MidnightReferendum.Compact

/-- Hash functions and conversions of the runtime over 32-byte values `B` and digests `D`. -/
structure Hashing (B D : Type) where
  /-- `persistentHash<Vector<n, Bytes<32>>>` -/
  persistentHash : List B → B
  /-- `persistentCommit<Vector<n, Bytes<32>>>`, with the opening last -/
  persistentCommit : List B → B → B
  /-- `persistentCommit` of an enumeration value, given by its ordinal -/
  persistentCommitEnum : ℕ → B → B
  /-- `pad(32, text)` -/
  pad : String → B
  /-- the cast of a field or unsigned value to `Bytes<32>` -/
  asBytes32 : ℕ → B
  /-- `degradeToTransient(persistentHash({ domain_sep: "mdn:lh", data }))` -/
  leafHash : B → D
  /-- `transientHash([left, right])` -/
  transientHash : D → D → D
  /-- the digest of the empty subtree of a height -/
  emptySubtree : ℕ → D
  /-- the default `MerkleTreeDigest` -/
  defaultDigest : D

variable {B D : Type}

/-- The Merkle trees of the ledger hash with the runtime's digests. -/
def Hashing.tree (H : Hashing B D) : Merkle.TreeHash B D where
  leaf := H.leafHash
  node := H.transientHash
  empty := H.emptySubtree

/-- The hash functions do not collide, and the cast to `Bytes<32>` keeps 64-bit values apart. -/
structure Hashing.CollisionFree (H : Hashing B D) : Prop where
  persistentHash_injective : Function.Injective H.persistentHash
  persistentCommit_injective : ∀ {v v' : List B} {r r' : B},
    H.persistentCommit v r = H.persistentCommit v' r' → v = v' ∧ r = r'
  persistentCommitEnum_injective : ∀ {m n : ℕ} {r r' : B},
    H.persistentCommitEnum m r = H.persistentCommitEnum n r' → m = n ∧ r = r'
  asBytes32_injective : ∀ {m n : ℕ}, m < 2 ^ 64 → n < 2 ^ 64 →
    H.asBytes32 m = H.asBytes32 n → m = n
  tree_sound : H.tree.Sound

/-! ## Block time -/

/-- `blockTimeLt(bound)` in a block of time `now`. -/
def blockTimeLt (now bound : UInt64) : Bool := decide (now < bound)

/-- `blockTimeGte(bound)` in a block of time `now`. -/
def blockTimeGte (now bound : UInt64) : Bool := !blockTimeLt now bound

@[simp]
theorem blockTimeLt_eq_true {now bound : UInt64} :
    blockTimeLt now bound = true ↔ now < bound := by
  simp [blockTimeLt]

@[simp]
theorem blockTimeGte_eq_true {now bound : UInt64} :
    blockTimeGte now bound = true ↔ bound ≤ now := by
  simp [blockTimeGte, blockTimeLt]

/-! ## Circuits -/

/-- A circuit over the ledger state `σ`; a failure carries its message and the state reached. -/
abbrev Circuit (σ α : Type) := EStateM String σ α

variable {σ α β : Type}

/-- `assert(condition, message)` -/
def assert (p : Prop) [Decidable p] (message : String) : Circuit σ Unit :=
  if p then pure () else throw message

/-- `if (condition) { body }` -/
def onlyIf (condition : Bool) (body : Circuit σ Unit) : Circuit σ Unit :=
  if condition then body else pure ()

/-- A ledger operation that the runtime may refuse. -/
def ofOption (message : String) : Option α → Circuit σ α
  | some a => pure a
  | none => throw message

/-- The runtime's refusal to insert into a Merkle tree without a free position. -/
def treeFull : String := "no free position in the Merkle tree"

/-- The runtime's refusal of a cast to a smaller unsigned type. -/
def castFailed : String := "cast from Field or Uint value to smaller Uint value failed"

/-- `value as Uint<32>` -/
def asUint32 (value : ℕ) : Option UInt32 :=
  if value ≤ 4294967295 then some (UInt32.ofNat value) else none

theorem asUint32_of_le {value : ℕ} (h : value ≤ 4294967295) :
    asUint32 value = some (UInt32.ofNat value) := if_pos h

theorem toNat_of_asUint32 {value : ℕ} {u : UInt32} (h : asUint32 value = some u) :
    u.toNat = value := by
  unfold asUint32 at h
  split at h
  · next hle =>
    rw [← Option.some.inj h, UInt32.toNat_ofNat']
    omega
  · simp at h

/-- The transaction of one circuit call: a failed call has no effect on the ledger. -/
def transact (c : Circuit σ Unit) (s : σ) : Except String σ :=
  match c.run s with
  | .ok _ s' => .ok s'
  | .error message _ => .error message

/-! ## What an accepted circuit has passed -/

/-- The circuit ends in `s'` with value `a` when it starts in `s`. -/
def Accepts (c : Circuit σ α) (s : σ) (a : α) (s' : σ) : Prop := c.run s = .ok a s'

theorem transact_eq_ok {c : Circuit σ Unit} {s s' : σ} :
    transact c s = .ok s' ↔ Accepts c s () s' := by
  unfold transact Accepts
  cases h : c.run s <;> simp

/-- Writes before the failing assertion do not reach the ledger. -/
theorem transact_of_error {c : Circuit σ Unit} {s t : σ} {message : String}
    (h : c.run s = .error message t) : transact c s = .error message := by
  simp only [transact, h]

theorem accepts_bind {x : Circuit σ α} {k : α → Circuit σ β} {s s' : σ} {b : β} :
    Accepts (x >>= k) s b s' ↔ ∃ a t, Accepts x s a t ∧ Accepts (k a) t b s' := by
  change EStateM.bind x k s = _ ↔ ∃ a t, x s = _ ∧ _
  unfold EStateM.bind Accepts
  cases h : x s <;> simp [EStateM.run]

@[simp]
theorem accepts_pure {a b : α} {s s' : σ} :
    Accepts (pure a : Circuit σ α) s b s' ↔ a = b ∧ s = s' := by
  simp [Accepts]

theorem not_accepts_throw {message : String} {a : α} {s s' : σ} :
    ¬ Accepts (throw message : Circuit σ α) s a s' := by
  intro h
  change EStateM.Result.error message s = .ok a s' at h
  cases h

@[simp]
theorem accepts_get_bind {k : σ → Circuit σ α} {s s' : σ} {a : α} :
    Accepts (get >>= k) s a s' ↔ Accepts (k s) s a s' := Iff.rfl

@[simp]
theorem accepts_modify {g : σ → σ} {s s' : σ} {u : PUnit} :
    Accepts (modify g : Circuit σ PUnit) s u s' ↔ g s = s' := by
  change EStateM.Result.ok PUnit.unit (g s) = .ok u s' ↔ g s = s'
  simp

@[simp]
theorem accepts_modify_bind {g : σ → σ} {k : PUnit → Circuit σ α} {s s' : σ} {a : α} :
    Accepts (modify g >>= k) s a s' ↔ Accepts (k ⟨⟩) (g s) a s' := Iff.rfl

theorem accepts_assert {p : Prop} [Decidable p] {message : String} {s s' : σ} {u : Unit} :
    Accepts (assert p message) s u s' ↔ p ∧ s = s' := by
  unfold assert
  by_cases h : p
  · simp [h]
  · simp [h, not_accepts_throw]

@[simp]
theorem accepts_assert_bind {p : Prop} [Decidable p] {message : String}
    {k : Unit → Circuit σ β} {s s' : σ} {b : β} :
    Accepts (assert p message >>= k) s b s' ↔ p ∧ Accepts (k ()) s b s' := by
  rw [accepts_bind]
  simp only [accepts_assert]
  constructor
  · rintro ⟨_, t, ⟨hp, rfl⟩, hk⟩
    exact ⟨hp, hk⟩
  · rintro ⟨hp, hk⟩
    exact ⟨(), s, ⟨hp, rfl⟩, hk⟩

@[simp]
theorem accepts_onlyIf_bind {condition : Bool} {p : Prop} [Decidable p] {message : String}
    {k : Unit → Circuit σ β} {s s' : σ} {b : β} :
    Accepts (onlyIf condition (assert p message) >>= k) s b s' ↔
      (condition = true → p) ∧ Accepts (k ()) s b s' := by
  unfold onlyIf
  cases condition with
  | false => simp
  | true => rw [if_pos rfl, accepts_assert_bind]; simp

@[simp]
theorem accepts_ofOption_bind {message : String} {o : Option α} {k : α → Circuit σ β}
    {s s' : σ} {b : β} :
    Accepts (ofOption message o >>= k) s b s' ↔ ∃ a, o = some a ∧ Accepts (k a) s b s' := by
  rw [accepts_bind]
  cases o with
  | none => simp [ofOption, not_accepts_throw]
  | some a => simp [ofOption]

/-! ## How far a circuit runs -/

theorem run_get_bind {k : σ → Circuit σ α} {s : σ} : (get >>= k).run s = (k s).run s := rfl

theorem run_modify_bind {g : σ → σ} {k : PUnit → Circuit σ α} {s : σ} :
    (modify g >>= k).run s = (k ⟨⟩).run (g s) := rfl

theorem run_assert_bind {p : Prop} [Decidable p] {message : String} {k : Unit → Circuit σ α}
    {s : σ} : (assert p message >>= k).run s = if p then (k ()).run s else .error message s := by
  unfold assert
  split <;> rfl

theorem run_ofOption_bind {message : String} {o : Option α} {a : α} {k : α → Circuit σ β} {s : σ}
    (h : o = some a) : (ofOption message o >>= k).run s = (k a).run s := by
  rw [h]
  rfl

theorem run_modify {g : σ → σ} {s : σ} : (modify g : Circuit σ PUnit).run s = .ok ⟨⟩ (g s) := rfl

end MidnightReferendum.Compact
