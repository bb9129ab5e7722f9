import Mathlib.Data.List.Forall2
import Mathlib.Data.List.Nodup

/-!
# Keyed lists

A list whose entries have pairwise distinct keys, in the order of their first insertion. Setting an
entry replaces the entry of the same key in place or appends it, as `Map.prototype.set` does.
-/

namespace MidnightReferendum

/-- Entries with pairwise distinct keys. -/
structure KeyedList {α κ : Type*} (key : α → κ) where
  entries : List α
  nodup : (entries.map key).Nodup

namespace KeyedList

variable {α κ : Type*} {key : α → κ}

def empty (key : α → κ) : KeyedList key := ⟨[], List.nodup_nil⟩

@[ext]
theorem ext {l l' : KeyedList key} (h : l.entries = l'.entries) : l = l' := by
  cases l
  cases l'
  congr

@[simp]
theorem entries_empty : (empty key).entries = [] := rfl

variable [DecidableEq κ]

/-- The entry of a key. -/
def get? (l : KeyedList key) (k : κ) : Option α := l.entries.find? fun a ↦ key a = k

theorem map_key_replace (l : List α) (a : α) :
    (l.map fun b ↦ if key b = key a then a else b).map key = l.map key := by
  rw [List.map_map]
  apply List.map_congr_left
  intro b _
  by_cases h : key b = key a
  · simp [h]
  · simp [h]

/-- Replace the entry of the same key, or append a new one. -/
def set (l : KeyedList key) (a : α) : KeyedList key :=
  if h : key a ∈ l.entries.map key then
    ⟨l.entries.map fun b ↦ if key b = key a then a else b, by rw [map_key_replace]; exact l.nodup⟩
  else
    ⟨l.entries ++ [a], by
      rw [List.map_append, List.map_singleton, ← List.concat_eq_append]
      exact l.nodup.concat h⟩

@[simp]
theorem get?_empty (k : κ) : (empty key).get? k = none := rfl

theorem key_of_get? {l : KeyedList key} {k : κ} {a : α} (h : l.get? k = some a) : key a = k := by
  simpa using List.find?_some h

theorem mem_of_get? {l : KeyedList key} {k : κ} {a : α} (h : l.get? k = some a) : a ∈ l.entries :=
  List.mem_of_find?_eq_some h

omit [DecidableEq κ] in
theorem eq_of_mem {l : KeyedList key} {a b : α} (ha : a ∈ l.entries) (hb : b ∈ l.entries)
    (h : key a = key b) : a = b :=
  List.inj_on_of_nodup_map l.nodup ha hb h

theorem get?_eq_some {l : KeyedList key} {k : κ} {a : α} :
    l.get? k = some a ↔ a ∈ l.entries ∧ key a = k := by
  constructor
  · exact fun h ↦ ⟨mem_of_get? h, key_of_get? h⟩
  · rintro ⟨ha, rfl⟩
    cases hfind : l.get? (key a) with
    | none => simpa using List.find?_eq_none.mp hfind a ha
    | some b => rw [eq_of_mem (mem_of_get? hfind) ha (key_of_get? hfind)]

theorem get?_eq_none {l : KeyedList key} {k : κ} : l.get? k = none ↔ k ∉ l.entries.map key := by
  simp [get?]

theorem entries_set_of_mem {l : KeyedList key} {a : α} (h : key a ∈ l.entries.map key) :
    (l.set a).entries = l.entries.map fun b ↦ if key b = key a then a else b := by
  rw [set, dif_pos h]

theorem entries_set_of_not_mem {l : KeyedList key} {a : α} (h : key a ∉ l.entries.map key) :
    (l.set a).entries = l.entries ++ [a] := by
  rw [set, dif_neg h]

theorem mem_set {l : KeyedList key} {a b : α} :
    b ∈ (l.set a).entries ↔ b = a ∨ b ∈ l.entries ∧ key b ≠ key a := by
  by_cases h : key a ∈ l.entries.map key
  · rw [entries_set_of_mem h, List.mem_map]
    constructor
    · rintro ⟨c, hc, rfl⟩
      by_cases hkey : key c = key a
      · simp [hkey]
      · simp [hkey, hc]
    · rintro (rfl | ⟨hb, hkey⟩)
      · obtain ⟨c, hc, hsame⟩ := List.mem_map.mp h
        exact ⟨c, hc, by simp [hsame]⟩
      · exact ⟨b, hb, by simp [hkey]⟩
  · rw [entries_set_of_not_mem h, List.mem_append, List.mem_singleton, or_comm]
    have hne : b ∈ l.entries → key b ≠ key a := fun hb hkey ↦ h (hkey ▸ List.mem_map_of_mem hb)
    exact or_congr_right (iff_self_and.mpr hne)

/-- The value of a key after setting an entry. -/
theorem get?_set (l : KeyedList key) (a : α) (k : κ) :
    (l.set a).get? k = if key a = k then some a else l.get? k := by
  by_cases hk : key a = k
  · rw [if_pos hk, get?_eq_some]
    exact ⟨mem_set.mpr (Or.inl rfl), hk⟩
  · rw [if_neg hk]
    ext b
    simp only [get?_eq_some, mem_set]
    constructor
    · rintro ⟨rfl | ⟨hb, _⟩, hkey⟩
      · exact absurd hkey hk
      · exact ⟨hb, hkey⟩
    · rintro ⟨hb, rfl⟩
      exact ⟨Or.inr ⟨hb, Ne.symm hk⟩, rfl⟩

@[simp]
theorem get?_set_self (l : KeyedList key) (a : α) : (l.set a).get? (key a) = some a := by
  rw [get?_set, if_pos rfl]

theorem get?_set_of_ne {l : KeyedList key} {a : α} {k : κ} (h : key a ≠ k) :
    (l.set a).get? k = l.get? k := by
  rw [get?_set, if_neg h]

/-- Another property of the entries stays distinct if a new entry has a new value and a replaced one its
old value. -/
theorem nodup_map_set {γ : Type*} {g : α → γ} {l : KeyedList key} {a : α}
    (h : (l.entries.map g).Nodup) (hnew : l.get? (key a) = none → g a ∉ l.entries.map g)
    (hold : ∀ b, l.get? (key a) = some b → g b = g a) : ((l.set a).entries.map g).Nodup := by
  by_cases hmem : key a ∈ l.entries.map key
  · have hsame : (l.set a).entries.map g = l.entries.map g := by
      rw [entries_set_of_mem hmem, List.map_map]
      refine List.map_congr_left fun b hb ↦ ?_
      by_cases hkey : key b = key a
      · simp [hkey, hold b (get?_eq_some.mpr ⟨hb, hkey⟩)]
      · simp [hkey]
    rw [hsame]
    exact h
  · rw [entries_set_of_not_mem hmem, List.map_append, List.map_singleton, ← List.concat_eq_append]
    exact h.concat (hnew (get?_eq_none.mpr hmem))

/-- The entries of which a distinct property has a given value. -/
theorem filter_eq_find? {γ : Type*} [DecidableEq γ] {g : α → γ} {l : List α} (h : (l.map g).Nodup)
    (c : γ) : l.filter (fun a ↦ g a = c) = (l.find? fun a ↦ g a = c).toList := by
  induction l with
  | nil => rfl
  | cons a l ih =>
    rw [List.map_cons, List.nodup_cons] at h
    by_cases ha : g a = c
    · have hnone : l.filter (fun a ↦ g a = c) = [] := by
        rw [List.filter_eq_nil_iff]
        intro b hb hkey
        exact h.1 (ha.trans (of_decide_eq_true hkey).symm ▸ List.mem_map_of_mem hb)
      simp [ha, hnone]
    · simp [ha, ih h.2]

/-! ## Related lists -/

section Related

variable {β : Type*} {key' : β → κ} {R : α → β → Prop} {l : KeyedList key} {l' : KeyedList key'}

omit [DecidableEq κ] in
/-- The first entries that satisfy a property are related. -/
theorem rel_find? {as : List α} {bs : List β} (h : List.Forall₂ R as bs) {p : α → Bool} {q : β → Bool}
    (hpq : ∀ {a b}, R a b → p a = q b) : Option.Rel R (as.find? p) (bs.find? q) := by
  induction h with
  | nil => exact .none
  | @cons a b as bs hab _ ih =>
    rw [List.find?_cons, List.find?_cons, ← hpq hab]
    cases p a with
    | true => exact .some hab
    | false => exact ih

omit [DecidableEq κ] in
theorem rel_any {as : List α} {bs : List β} (h : List.Forall₂ R as bs) {p : α → Bool} {q : β → Bool}
    (hpq : ∀ {a b}, R a b → p a = q b) : as.any p = bs.any q := by
  induction h with
  | nil => rfl
  | cons hab _ ih => rw [List.any_cons, List.any_cons, hpq hab, ih]

omit [DecidableEq κ] in
theorem rel_mem {as : List α} {bs : List β} (h : List.Forall₂ R as bs) {b : β} (hb : b ∈ bs) :
    ∃ a ∈ as, R a b := by
  induction h with
  | nil => simp at hb
  | @cons a c as bs hac _ ih =>
    obtain rfl | hb := List.mem_cons.mp hb
    · exact ⟨a, List.mem_cons_self, hac⟩
    · obtain ⟨d, hd, hdb⟩ := ih hb
      exact ⟨d, List.mem_cons_of_mem a hd, hdb⟩

omit [DecidableEq κ] in
/-- Related lists are ordered by related orders. -/
theorem rel_pairwise {as : List α} {bs : List β} (h : List.Forall₂ R as bs) {P : α → α → Prop}
    {Q : β → β → Prop} (hPQ : ∀ {a a' b b'}, R a b → R a' b' → P a a' → Q b b') (has : as.Pairwise P) :
    bs.Pairwise Q := by
  induction h with
  | nil => exact .nil
  | cons hab hrest ih =>
    obtain ⟨hhead, htail⟩ := List.pairwise_cons.mp has
    refine List.pairwise_cons.mpr ⟨fun b' hb' ↦ ?_, ih htail⟩
    obtain ⟨a', ha', hab'⟩ := rel_mem hrest hb'
    exact hPQ hab hab' (hhead a' ha')

theorem rel_get? (h : List.Forall₂ R l.entries l'.entries) (hkey : ∀ {a b}, R a b → key a = key' b)
    (k : κ) : Option.Rel R (l.get? k) (l'.get? k) :=
  rel_find? h fun hab ↦ by rw [hkey hab]

omit [DecidableEq κ] in
theorem rel_map_eq {γ : Type*} {as : List α} {bs : List β} (h : List.Forall₂ R as bs) {f : α → γ}
    {g : β → γ} (hfg : ∀ {a b}, R a b → f a = g b) : as.map f = bs.map g :=
  List.forall₂_eq_eq_eq ▸ List.rel_map (fun _ _ hab ↦ hfg hab) h

/-- Setting related entries keeps lists related. -/
theorem rel_set (h : List.Forall₂ R l.entries l'.entries) (hkey : ∀ {a b}, R a b → key a = key' b)
    {a : α} {b : β} (hab : R a b) : List.Forall₂ R (l.set a).entries (l'.set b).entries := by
  have hmap := rel_map_eq h hkey
  by_cases hmem : key a ∈ l.entries.map key
  · have hmem' : key' b ∈ l'.entries.map key' := by rwa [← hmap, ← hkey hab]
    rw [entries_set_of_mem hmem, entries_set_of_mem hmem']
    refine List.rel_map (fun c d hcd ↦ ?_) h
    rw [← hkey hcd, ← hkey hab]
    split
    · exact hab
    · exact hcd
  · have hmem' : key' b ∉ l'.entries.map key' := by rwa [← hmap, ← hkey hab]
    rw [entries_set_of_not_mem hmem, entries_set_of_not_mem hmem']
    exact List.rel_append h (.cons hab .nil)

end Related

end KeyedList

end MidnightReferendum
