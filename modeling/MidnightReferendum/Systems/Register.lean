import Mathlib.Data.Set.Card

/-!
# Registers of used keys

A ledger set that refuses a key it already holds records the keys of the accepted entries, and no two
of them have the same key. So the set counts the entries, and it counts those with a property.
-/

namespace MidnightReferendum

variable {ω κ : Type*}

/-- The set `keys` holds the keys of the entries, which are pairwise distinct. -/
structure Register (key : ω → κ) (entries : List ω) (keys : Finset κ) : Prop where
  mem_iff : ∀ x, x ∈ keys ↔ x ∈ entries.map key
  nodup : (entries.map key).Nodup

namespace Register

variable {key : ω → κ} {entries : List ω} {keys : Finset κ}

theorem empty (key : ω → κ) : Register key [] ∅ :=
  ⟨fun _ ↦ by simp, List.nodup_nil⟩

/-- A new entry whose key is not registered yet. -/
theorem concat [DecidableEq κ] (h : Register key entries keys) {o : ω} (hfresh : key o ∉ keys) :
    Register key (entries ++ [o]) (insert (key o) keys) := by
  constructor
  · intro x
    rw [Finset.mem_insert, List.map_append, List.mem_append, List.map_singleton, List.mem_singleton,
      ← h.mem_iff, or_comm]
  · rw [List.map_append, List.map_singleton, ← List.concat_eq_append]
    exact h.nodup.concat fun hmem ↦ hfresh ((h.mem_iff _).mpr hmem)

theorem eq_toFinset [DecidableEq κ] (h : Register key entries keys) :
    keys = (entries.map key).toFinset := by
  ext x
  rw [List.mem_toFinset, h.mem_iff]

theorem card_eq (h : Register key entries keys) : keys.card = entries.length := by
  classical
  rw [h.eq_toFinset, List.toFinset_card_of_nodup h.nodup, List.length_map]

theorem entries_nodup (h : Register key entries keys) : entries.Nodup := List.Nodup.of_map _ h.nodup

/-- The register counts the entries with a property, if the key determines the entry. -/
theorem countP_eq_ncard (hkey : Function.Injective key) (h : Register key entries keys) (p : ω → Bool) :
    entries.countP p = {x | x ∈ keys ∧ ∃ o, p o = true ∧ key o = x}.ncard := by
  classical
  have hset : {x | x ∈ keys ∧ ∃ o, p o = true ∧ key o = x} =
      ↑((entries.filter p).map key).toFinset := by
    ext x
    simp only [Set.mem_ofPred_eq, h.mem_iff, List.coe_toFinset, List.mem_map, List.mem_filter]
    constructor
    · rintro ⟨⟨o, ho, rfl⟩, o', hp, heq⟩
      exact ⟨o, ⟨ho, hkey heq ▸ hp⟩, rfl⟩
    · rintro ⟨o, ⟨ho, hp⟩, rfl⟩
      exact ⟨⟨o, ho, rfl⟩, o, hp, rfl⟩
  have hnodup : ((entries.filter p).map key).Nodup := h.nodup.sublist (List.filter_sublist.map _)
  rw [hset, Set.ncard_coe_finset, List.toFinset_card_of_nodup hnodup, List.length_map,
    ← List.countP_eq_length_filter]

/-- Entries in distinct positions differ in everything that determines the key. -/
theorem nodup_map {γ : Type*} (h : Register key entries keys) {g : ω → γ}
    (hg : ∀ v ∈ entries, ∀ w ∈ entries, g v = g w → key v = key w) : (entries.map g).Nodup := by
  apply List.pairwise_map.mpr
  apply List.Pairwise.imp_of_mem _ (List.pairwise_map.mp h.nodup)
  intro v w hv hw hne hsame
  exact hne (hg v hv w hw hsame)

end Register

end MidnightReferendum
