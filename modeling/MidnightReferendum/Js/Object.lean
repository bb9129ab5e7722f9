import MidnightReferendum.Js.Text
import MidnightReferendum.Systems.KeyedList
import MidnightReferendum.Systems.StableSort

/-!
# Plain objects

An object that serves as a map. Its own properties come in property order: first the array indices in
ascending order, then the other names in the order of their creation. A name that is not an own property
is looked up on `Object.prototype`.
-/

namespace MidnightReferendum.Js

/-! ## Property order -/

/-- The decimal numeral of a number. -/
def decimal (n : ℕ) : JsString := (Nat.toDigits 10 n).flatMap utf16

/-- The number of a decimal numeral. -/
def numeral (name : JsString) : ℕ := name.foldl (fun n u ↦ n * 10 + (u.toNat - 0x30)) 0

/-- The index of a name that is the numeral of a number below `2 ^ 32 - 1`. -/
def arrayIndex? (name : JsString) : Option ℕ :=
  if numeral name < 4294967295 ∧ decimal (numeral name) = name then some (numeral name) else none

/-- The place of a name in property order, where all names that are not an index share the last place. -/
def propertyRank (name : JsString) : ℕ := (arrayIndex? name).getD 4294967295

example : (["b", "10", "2", "01", "-1", "4294967294", "4294967295"].map fun name ↦ propertyRank (js name)) =
    [4294967295, 10, 2, 4294967295, 4294967295, 4294967294, 4294967295] := by decide +kernel

section Order

variable {α : Type*} (key : α → JsString)

/-- One entry can come before another in property order. -/
def Before (a b : α) : Prop := propertyRank (key a) ≤ propertyRank (key b)

instance : DecidableRel (Before key) := fun _ _ ↦ inferInstanceAs (Decidable (_ ≤ _))

instance : Std.Total (Before key) := ⟨fun _ _ ↦ le_total (α := ℕ) _ _⟩

instance : IsTrans α (Before key) := ⟨fun _ _ _ ↦ le_trans (α := ℕ)⟩

/-- Entries in the order of their creation, brought into property order. -/
def propertyOrder (l : List α) : List α := l.insertionSort (Before key)

theorem propertyOrder_perm (l : List α) : (propertyOrder key l).Perm l :=
  List.perm_insertionSort (Before key) l

theorem propertyOrder_pairwise (l : List α) : (propertyOrder key l).Pairwise (Before key) :=
  List.pairwise_insertionSort (Before key) l

theorem mem_propertyOrder {l : List α} {a : α} : a ∈ propertyOrder key l ↔ a ∈ l :=
  (propertyOrder_perm key l).mem_iff

theorem propertyOrder_eq_self {l : List α} (h : l.Pairwise (Before key)) : propertyOrder key l = l :=
  h.insertionSort_eq

theorem propertyOrder_append (l m : List α) :
    propertyOrder key (propertyOrder key l ++ m) = propertyOrder key (l ++ m) :=
  StableSort.insertionSort_append (Before key) l m

theorem propertyOrder_filter {p : α → Bool} {l : List α} (h : (l.filter p).Pairwise (Before key)) :
    (propertyOrder key l).filter p = l.filter p :=
  StableSort.filter_insertionSort (Before key) h

/-- The order depends on the names only. -/
theorem propertyOrder_map {β : Type*} {key' : β → JsString} {f : α → β} (hf : ∀ a, key' (f a) = key a)
    (l : List α) : propertyOrder key' (l.map f) = (propertyOrder key l).map f := by
  refine (List.map_insertionSort (r := Before key) (s := Before key') f l fun a _ b _ ↦ ?_).symm
  rw [Before, Before, hf, hf]

end Order

/-! ## Objects -/

/-- The names of `Object.prototype`. Each is a function or an object, so it is truthy. -/
def prototypeNames : List JsString :=
  ["constructor", "__defineGetter__", "__defineSetter__", "hasOwnProperty", "__lookupGetter__",
    "__lookupSetter__", "isPrototypeOf", "propertyIsEnumerable", "toString", "valueOf", "__proto__",
    "toLocaleString"].map js

/-- What a property access gives. -/
inductive Property (α : Type*) where
  | own (value : α)
  | inherited
  | undefined

/-- The own properties of an object, where an entry holds its name. -/
structure PlainObject {α : Type*} (key : α → JsString) extends KeyedList key where
  ordered : entries.Pairwise (Before key)

namespace PlainObject

variable {α : Type*} {key : α → JsString}

@[ext]
theorem ext {o o' : PlainObject key} (h : o.entries = o'.entries) : o = o' := by
  obtain ⟨⟨_, _⟩, _⟩ := o
  obtain ⟨⟨_, _⟩, _⟩ := o'
  obtain rfl : _ = _ := h
  rfl

/-- The object to which the entries were added in turn. -/
def ofKeyed (l : KeyedList key) : PlainObject key where
  entries := propertyOrder key l.entries
  nodup := ((propertyOrder_perm key l.entries).map key).nodup_iff.mpr l.nodup
  ordered := propertyOrder_pairwise key l.entries

/-- `{}` -/
def empty (key : α → JsString) : PlainObject key := ofKeyed (KeyedList.empty key)

theorem get?_empty (name : JsString) : (empty key).get? name = none := by
  rw [empty, KeyedList.get?_eq_none]
  exact List.not_mem_nil

/-- `object[name]` -/
def property (o : PlainObject key) (name : JsString) : Property α :=
  match o.get? name with
  | some value => .own value
  | none => if name ∈ prototypeNames then .inherited else .undefined

/-- `object[name] = value`. An assignment to `__proto__` sets the prototype and adds no own property. -/
def assign (o : PlainObject key) (a : α) : PlainObject key :=
  if key a = js "__proto__" then o else ofKeyed (o.set a)

@[simp]
theorem entries_ofKeyed (l : KeyedList key) : (ofKeyed l).entries = propertyOrder key l.entries := rfl

@[simp]
theorem get?_ofKeyed (l : KeyedList key) (name : JsString) : (ofKeyed l).get? name = l.get? name := by
  ext a
  rw [KeyedList.get?_eq_some, KeyedList.get?_eq_some, entries_ofKeyed, mem_propertyOrder]

theorem property_of_get? {l : KeyedList key} {name : JsString} {a : α} (h : l.get? name = some a) :
    (ofKeyed l).property name = .own a := by
  rw [property, get?_ofKeyed, h]

theorem property_of_not_get? {l : KeyedList key} {name : JsString} (h : l.get? name = none) :
    (ofKeyed l).property name = if name ∈ prototypeNames then .inherited else .undefined := by
  rw [property, get?_ofKeyed, h]

theorem proto_mem : js "__proto__" ∈ prototypeNames := by decide +kernel

/-- An assignment to an object is one to the map of its entries. -/
theorem assign_ofKeyed (l : KeyedList key) {a : α} (h : key a ∉ prototypeNames) :
    (ofKeyed l).assign a = ofKeyed (l.set a) := by
  have hne : key a ≠ js "__proto__" := fun heq ↦ h (heq ▸ proto_mem)
  have hkeys : key a ∈ (ofKeyed l).entries.map key ↔ key a ∈ l.entries.map key :=
    ((propertyOrder_perm key l.entries).map key).mem_iff
  rw [assign, if_neg hne]
  ext1
  by_cases hmem : key a ∈ l.entries.map key
  · rw [entries_ofKeyed, entries_ofKeyed, KeyedList.entries_set_of_mem hmem,
      KeyedList.entries_set_of_mem (hkeys.mpr hmem), entries_ofKeyed]
    have hkey : ∀ b, key (if key b = key a then a else b) = key b := by
      intro b
      split
      · next heq => exact heq.symm
      · rfl
    rw [propertyOrder_map key hkey, propertyOrder_map key hkey,
      propertyOrder_eq_self key (propertyOrder_pairwise key l.entries)]
  · rw [entries_ofKeyed, entries_ofKeyed, KeyedList.entries_set_of_not_mem hmem,
      KeyedList.entries_set_of_not_mem fun h ↦ hmem (hkeys.mp h), entries_ofKeyed, propertyOrder_append]

/-- The value of a name after an assignment. -/
theorem get?_assign (o : PlainObject key) {a : α} (h : key a ∉ prototypeNames) (name : JsString) :
    (o.assign a).get? name = if key a = name then some a else o.get? name := by
  have hne : key a ≠ js "__proto__" := fun heq ↦ h (heq ▸ proto_mem)
  rw [assign, if_neg hne, get?_ofKeyed, KeyedList.get?_set]

/-- An assignment to a new name that comes last. -/
theorem entries_assign {o : PlainObject key} {a : α} (hproto : key a ∉ prototypeNames)
    (hnew : key a ∉ o.entries.map key) (hlast : (o.entries ++ [a]).Pairwise (Before key)) :
    (o.assign a).entries = o.entries ++ [a] := by
  have hne : key a ≠ js "__proto__" := fun heq ↦ hproto (heq ▸ proto_mem)
  rw [assign, if_neg hne, entries_ofKeyed, KeyedList.entries_set_of_not_mem hnew,
    propertyOrder_eq_self key hlast]

/-- A loop that assigns the entries of an object in turn builds the object. -/
theorem foldlM_assign {β ε : Type*} {write : α → β} {load : PlainObject key → β → Except ε (PlainObject key)}
    {o : PlainObject key} (hload : ∀ a ∈ o.entries, ∀ acc, load acc (write a) = .ok (acc.assign a))
    (hname : ∀ a ∈ o.entries, key a ∉ prototypeNames) :
    (o.entries.map write).foldlM load (empty key) = .ok o := by
  have hloop : ∀ (post : List α) (acc : PlainObject key), o.entries = acc.entries ++ post →
      (post.map write).foldlM load acc = .ok o := by
    intro post
    induction post with
    | nil =>
      intro acc hentries
      have hacc : acc = o := ext (by rw [hentries, List.append_nil])
      rw [hacc]
      rfl
    | cons a post ih =>
      intro acc hentries
      have hmem : a ∈ o.entries := by simp [hentries]
      have hnew : key a ∉ acc.entries.map key := by
        have hnodup := o.nodup
        rw [hentries, List.map_append, List.nodup_append] at hnodup
        intro h
        exact hnodup.2.2 (key a) h (key a) (by simp) rfl
      have hlast : (acc.entries ++ [a]).Pairwise (Before key) := by
        have hsublist : [a].Sublist (a :: post) := (List.nil_sublist post).cons_cons a
        exact (hentries ▸ o.ordered).sublist (hsublist.append_left acc.entries)
      have hassign := entries_assign (hname a hmem) hnew hlast
      rw [List.map_cons, List.foldlM_cons, hload a hmem]
      exact ih (acc.assign a) (by rw [hassign, hentries, List.append_assoc, List.singleton_append])
  exact hloop o.entries (empty key) rfl

end PlainObject

end MidnightReferendum.Js
