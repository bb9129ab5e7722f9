import MidnightReferendum.Compact.Runtime
import MidnightReferendum.Systems.Register

/-!
# Commit-and-reveal ballots

The enumerations that both referendum contracts declare, and the ballot box that both of them keep: a
tree of ballot commitments, a register of the revealed ones and a tally of the revealed choices.
-/

namespace MidnightReferendum.Compact

inductive Choice where
  | yes
  | no
  | abstain
  deriving DecidableEq

inductive Phase where
  | commit
  | reveal
  | finalized
  deriving DecidableEq

/-- The enumeration value as a field element. -/
def Choice.ordinal : Choice → ℕ
  | .yes => 0
  | .no => 1
  | .abstain => 2

/-- An opened ballot: the choice and its salt. -/
abbrev Opening (B : Type) := Choice × B

variable {B : Type}

/-- The number of openings with a given choice. -/
def votesFor (os : List (Opening B)) (c : Choice) : ℕ := os.countP fun o ↦ o.1 = c

/-- The number of counted ballots. -/
def tallyTotal (tally : Choice → UInt32) : ℕ :=
  (tally .yes).toNat + (tally .no).toNat + (tally .abstain).toNat

theorem ordinal_injective : Function.Injective Choice.ordinal := by
  intro c c' h
  cases c <;> cases c' <;> simp_all [Choice.ordinal]

theorem ordinal_lt (c : Choice) : c.ordinal < 2 ^ 64 := by
  cases c <;> decide

theorem votesFor_total (os : List (Opening B)) :
    votesFor os .yes + votesFor os .no + votesFor os .abstain = os.length := by
  induction os with
  | nil => rfl
  | cons o os ih =>
    obtain ⟨choice, salt⟩ := o
    simp only [votesFor] at ih ⊢
    cases choice <;> simp <;> omega

theorem votesFor_le (os : List (Opening B)) (c : Choice) : votesFor os c ≤ os.length :=
  List.countP_le_length

/-- One more opening counts for its choice, as the tally does after the increment. -/
theorem votesFor_concat {os : List (Opening B)} {tally : Choice → UInt32} {choice : Choice} {salt : B}
    {next : UInt32} (htally : ∀ c, (tally c).toNat = votesFor os c)
    (hnext : asUint32 ((tally choice).toNat + 1) = some next) (c : Choice) :
    (Function.update tally choice next c).toNat = votesFor (os ++ [(choice, salt)]) c := by
  rw [votesFor, List.countP_append, ← votesFor, ← htally]
  by_cases hc : choice = c
  · subst hc
    simp [toNat_of_asUint32 hnext]
  · simp [hc, Function.update_of_ne (Ne.symm hc)]

/-- The ballot box after the votes `casts` and the reveals `reveals`. -/
structure Counted (commit : Opening B → B) (casts reveals : List (Opening B)) (leaves : List B)
    (revealed : Finset B) (tally : Choice → UInt32) : Prop where
  leaves_eq : leaves = casts.map commit
  revealed_register : Register commit reveals revealed
  revealed_cast : ∀ o ∈ reveals, o ∈ casts
  tally_eq : ∀ c, (tally c).toNat = votesFor reveals c

namespace Counted

variable {commit : Opening B → B} {casts reveals : List (Opening B)} {leaves : List B}
  {revealed : Finset B} {tally : Choice → UInt32}

theorem empty (commit : Opening B → B) : Counted commit [] [] [] ∅ fun _ ↦ 0 where
  leaves_eq := rfl
  revealed_register := Register.empty commit
  revealed_cast _ ho := ho
  tally_eq _ := rfl

/-- A vote adds its commitment to the tree. -/
theorem cast (h : Counted commit casts reveals leaves revealed tally) (o : Opening B) :
    Counted commit (casts ++ [o]) reveals (leaves ++ [commit o]) revealed tally where
  leaves_eq := by rw [h.leaves_eq, List.map_append, List.map_singleton]
  revealed_register := h.revealed_register
  revealed_cast o' ho := List.mem_append_left _ (h.revealed_cast o' ho)
  tally_eq := h.tally_eq

theorem mem_casts (hcommit : Function.Injective commit)
    (h : Counted commit casts reveals leaves revealed tally) {o : Opening B}
    (ho : commit o ∈ leaves) : o ∈ casts := by
  rw [h.leaves_eq] at ho
  exact (List.mem_map_of_injective hcommit).mp ho

/-- A reveal of a committed ballot that has not been revealed is counted. -/
theorem reveal [DecidableEq B] (hcommit : Function.Injective commit)
    (h : Counted commit casts reveals leaves revealed tally) {choice : Choice} {salt : B}
    {next : UInt32} (hmem : commit (choice, salt) ∈ leaves)
    (hfresh : commit (choice, salt) ∉ revealed)
    (hnext : asUint32 ((tally choice).toNat + 1) = some next) :
    Counted commit casts (reveals ++ [(choice, salt)]) leaves (insert (commit (choice, salt)) revealed)
      (Function.update tally choice next) where
  leaves_eq := h.leaves_eq
  revealed_register := h.revealed_register.concat hfresh
  revealed_cast o ho := by
    rcases List.mem_append.mp ho with ho | ho
    · exact h.revealed_cast o ho
    · rw [List.mem_singleton.mp ho]
      exact h.mem_casts hcommit hmem
  tally_eq := votesFor_concat h.tally_eq hnext

theorem mem_revealed (h : Counted commit casts reveals leaves revealed tally) {x : B}
    (hx : x ∈ revealed) : ∃ o ∈ casts, commit o = x := by
  obtain ⟨o, ho, rfl⟩ := List.mem_map.mp ((h.revealed_register.mem_iff x).mp hx)
  exact ⟨o, h.revealed_cast o ho, rfl⟩

/-- The revealed commitments are distinct leaves, so there are at most as many as leaves. -/
theorem card_revealed_le (h : Counted commit casts reveals leaves revealed tally) :
    revealed.card ≤ leaves.length := by
  classical
  have hsubset : revealed ⊆ leaves.toFinset := by
    intro x hx
    obtain ⟨o, ho, rfl⟩ := h.mem_revealed hx
    rw [List.mem_toFinset, h.leaves_eq]
    exact List.mem_map_of_mem ho
  calc
    revealed.card ≤ leaves.toFinset.card := Finset.card_le_card hsubset
    _ ≤ leaves.length := List.toFinset_card_le _

theorem tallyTotal_eq (h : Counted commit casts reveals leaves revealed tally) :
    tallyTotal tally = revealed.card := by
  rw [tallyTotal, h.tally_eq, h.tally_eq, h.tally_eq, votesFor_total, h.revealed_register.card_eq]

theorem tally_le (h : Counted commit casts reveals leaves revealed tally) (c : Choice) :
    (tally c).toNat ≤ leaves.length := by
  calc
    (tally c).toNat = votesFor reveals c := h.tally_eq c
    _ ≤ reveals.length := votesFor_le _ c
    _ = revealed.card := h.revealed_register.card_eq.symm
    _ ≤ leaves.length := h.card_revealed_le

/-- The tally of a choice counts the revealed commitments that open to it. -/
theorem tally_eq_ncard (hcommit : Function.Injective commit)
    (h : Counted commit casts reveals leaves revealed tally) (c : Choice) :
    (tally c).toNat = {x | x ∈ revealed ∧ ∃ salt, commit (c, salt) = x}.ncard := by
  rw [h.tally_eq, votesFor, h.revealed_register.countP_eq_ncard hcommit]
  congr 1
  ext x
  simp only [Set.mem_ofPred_eq, Prod.exists, decide_eq_true_eq, exists_and_left, exists_eq_left]

end Counted

end MidnightReferendum.Compact
