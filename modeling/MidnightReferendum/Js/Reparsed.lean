import MidnightReferendum.Js.Values

/-!
# Values that are written and parsed

A value without `undefined` fields comes back as it was, with `null` for what is no JSON number, and has the same stable
text. A field `undefined` makes the stable text longer than that of the value that comes back.
-/

namespace MidnightReferendum.Js.JsValue

/-! ## What comes back -/

mutual

/-- The value with `null` for `NaN` and the infinities. -/
def finite : JsValue → JsValue
  | .undefined => .undefined
  | .null => .null
  | .bool value => .bool value
  | .number (some value) => .number (some value)
  | .number none => .null
  | .string value => .string value
  | .array items => .array (finiteItems items)
  | .object fields => .object (finiteFields fields)

def finiteItems : List JsValue → List JsValue
  | [] => []
  | item :: items => item.finite :: finiteItems items

def finiteFields : List (JsString × JsValue) → List (JsString × JsValue)
  | [] => []
  | (name, value) :: fields => (name, value.finite) :: finiteFields fields

end

theorem finiteItems_eq (items : List JsValue) : finiteItems items = items.map finite := by
  induction items with
  | nil => rfl
  | cons item items ih => rw [finiteItems, ih, List.map_cons]

theorem finiteFields_eq (fields : List (JsString × JsValue)) :
    finiteFields fields = fields.map fun field ↦ (field.1, field.2.finite) := by
  induction fields with
  | nil => rfl
  | cons field fields ih => rw [finiteFields, ih, List.map_cons]

theorem lookup_finiteFields (fields : List (JsString × JsValue)) (name : JsString) :
    (finiteFields fields).lookup name = (fields.lookup name).map finite := by
  induction fields with
  | nil => rfl
  | cons field fields ih =>
    rw [finiteFields, List.lookup_cons, List.lookup_cons, ih]
    cases name == field.1 <;> rfl

theorem get_finite (v : JsValue) (name : JsString) : v.finite.get name = (v.get name).finite := by
  cases v with
  | object fields =>
    rw [finite, get, get, lookup_finiteFields]
    cases fields.lookup name <;> rfl
  | number value => cases value <;> rfl
  | _ => rfl

theorem finite_eq_undefined {v : JsValue} : v.finite = .undefined ↔ v = .undefined := by
  cases v with
  | number value => cases value <;> simp [finite]
  | _ => simp [finite]

/-! ## Fields that are left out -/

theorem toJsonItems_eq (items : List JsValue) : toJsonItems items = items.map toJson := by
  induction items with
  | nil => rfl
  | cons item items ih => rw [toJsonItems, ih, List.map_cons]

theorem ofJsonItems_eq (items : List Json) : ofJsonItems items = items.map ofJson := by
  induction items with
  | nil => rfl
  | cons item items ih => rw [ofJsonItems, ih, List.map_cons]

theorem toJsonFields_cons {value : JsValue} (h : value ≠ .undefined) (name : JsString)
    (fields : List (JsString × JsValue)) :
    toJsonFields ((name, value) :: fields) = (name, value.toJson) :: toJsonFields fields := by
  cases value with
  | undefined => exact absurd rfl h
  | _ => rfl

/-- The fields are a part of those of the value, in the same order. -/
theorem names_toJsonFields (fields : List (JsString × JsValue)) :
    ((toJsonFields fields).map Prod.fst).Sublist (fields.map Prod.fst) := by
  induction fields with
  | nil => exact List.Sublist.refl _
  | cons field fields ih =>
    obtain ⟨name, value⟩ := field
    by_cases hvalue : value = .undefined
    · rw [hvalue]
      exact ih.cons name
    · rw [toJsonFields_cons hvalue]
      exact ih.cons_cons name

theorem Defined.ne_undefined {v : JsValue} (h : v.Defined) : v ≠ .undefined := by
  cases h <;> exact JsValue.noConfusion

theorem reparsed_object (fields : List (JsString × JsValue)) :
    (JsValue.object fields).reparsed = .object (ofJsonFields (toJsonFields fields)) := rfl

theorem reparsed_array (items : List JsValue) : (JsValue.array items).reparsed = .array (items.map reparsed) := by
  rw [reparsed, toJson, ofJson, toJsonItems_eq, ofJsonItems_eq, List.map_map]
  rfl

theorem reparsed_eq_finite {v : JsValue} (h : v.Defined) : v.reparsed = v.finite := by
  induction h with
  | null => rfl
  | bool => rfl
  | number value => cases value <;> rfl
  | string => rfl
  | @array items h ih => rw [reparsed_array, finite, finiteItems_eq, List.map_congr_left ih]
  | @object fields h ih =>
    rw [reparsed_object, finite]
    congr 1
    induction fields with
    | nil => rfl
    | cons field fields ihfields =>
      have hfield := ih field List.mem_cons_self
      rw [toJsonFields_cons (h field List.mem_cons_self).ne_undefined, ofJsonFields, finiteFields, ← hfield,
        ihfields (fun field hf ↦ h field (List.mem_cons_of_mem _ hf))
          (fun field hf ↦ ih field (List.mem_cons_of_mem _ hf))]
      rfl

/-! ## JSON values -/

mutual

theorem toJson_ofJson {w : Json} (h : w.Valid) : (ofJson w).toJson = w := by
  cases w with
  | null => rfl
  | bool => rfl
  | number value =>
    cases h
    rfl
  | string => rfl
  | array items =>
    cases h with
    | array h => rw [ofJson, toJson, toJsonItems_ofJsonItems h]
  | object fields =>
    cases h with
    | object _ _ h => rw [ofJson, toJson, toJsonFields_ofJsonFields h]

theorem toJsonItems_ofJsonItems {items : List Json} (h : ∀ item ∈ items, item.Valid) :
    toJsonItems (ofJsonItems items) = items := by
  cases items with
  | nil => rfl
  | cons item items =>
    rw [ofJsonItems, toJsonItems, toJson_ofJson (h item List.mem_cons_self),
      toJsonItems_ofJsonItems fun item hitem ↦ h item (List.mem_cons_of_mem _ hitem)]

theorem toJsonFields_ofJsonFields {fields : List (JsString × Json)} (h : ∀ field ∈ fields, field.2.Valid) :
    toJsonFields (ofJsonFields fields) = fields := by
  cases fields with
  | nil => rfl
  | cons field fields =>
    have hne : ofJson field.2 ≠ .undefined := by
      cases field.2 with
      | number value => cases value <;> exact JsValue.noConfusion
      | _ => exact JsValue.noConfusion
    rw [ofJsonFields, toJsonFields_cons hne, toJson_ofJson (h field List.mem_cons_self),
      toJsonFields_ofJsonFields fun field hfield ↦ h field (List.mem_cons_of_mem _ hfield)]

end

theorem names_ofJsonFields (fields : List (JsString × Json)) :
    (ofJsonFields fields).map Prod.fst = fields.map Prod.fst := by
  induction fields with
  | nil => rfl
  | cons field fields ih => rw [ofJsonFields, List.map_cons, List.map_cons, ih]

theorem mem_toJsonFields {fields : List (JsString × JsValue)} {field : JsString × Json}
    (h : field ∈ toJsonFields fields) :
    ∃ value, (field.1, value) ∈ fields ∧ value ≠ .undefined ∧ field.2 = value.toJson := by
  induction fields with
  | nil => cases h
  | cons first fields ih =>
    obtain ⟨name, value⟩ := first
    by_cases hvalue : value = .undefined
    · rw [hvalue] at h
      obtain ⟨value', hmem, hrest⟩ := ih h
      exact ⟨value', List.mem_cons_of_mem _ hmem, hrest⟩
    · rw [toJsonFields_cons hvalue] at h
      obtain rfl | h := List.mem_cons.mp h
      · exact ⟨value, List.mem_cons_self, hvalue, rfl⟩
      · obtain ⟨value', hmem, hrest⟩ := ih h
        exact ⟨value', List.mem_cons_of_mem _ hmem, hrest⟩

theorem Valid.toJson {v : JsValue} (h : v.Valid) : v.toJson.Valid := by
  induction h with
  | null => exact .null
  | bool value => exact .bool value
  | number h => exact .number h
  | nonfinite => exact .null
  | string value => exact .string value
  | array h ih =>
    rw [JsValue.toJson, toJsonItems_eq]
    exact .array (List.forall_mem_map.mpr ih)
  | @object fields hnodup hordered h ih =>
    have hsublist := names_toJsonFields fields
    have hranks : (fields.map Prod.fst).Pairwise fun a b ↦ propertyRank a ≤ propertyRank b :=
      List.pairwise_map.mpr hordered
    have hnames := List.pairwise_map.mp (hranks.sublist hsublist)
    refine .object (hsublist.nodup hnodup) hnames fun field hfield ↦ ?_
    obtain ⟨value, hmem, hvalue, heq⟩ := mem_toJsonFields hfield
    rw [heq]
    exact ih _ hmem hvalue

mutual

theorem valid_ofJson {w : Json} (h : w.Valid) : (ofJson w).Valid := by
  cases w with
  | null => exact .null
  | bool value => exact .bool value
  | number value =>
    cases h with
    | number h => exact .number h
  | string value => exact .string value
  | array items =>
    cases h with
    | array h => exact .array (valid_ofJsonItems h)
  | object fields =>
    cases h with
    | object hnodup hordered h =>
      have hnames : (ofJsonFields fields).map Prod.fst = fields.map Prod.fst := names_ofJsonFields fields
      have hranks : (fields.map Prod.fst).Pairwise fun a b ↦ propertyRank a ≤ propertyRank b :=
        List.pairwise_map.mpr hordered
      rw [← hnames] at hnodup hranks
      have hback := List.pairwise_map.mp hranks
      exact .object hnodup hback fun field hfield _ ↦ valid_ofJsonFields h field hfield

theorem valid_ofJsonItems {items : List Json} (h : ∀ item ∈ items, item.Valid) :
    ∀ item ∈ ofJsonItems items, item.Valid := by
  cases items with
  | nil => exact fun item hitem ↦ by cases hitem
  | cons item items =>
    rw [ofJsonItems, List.forall_mem_cons]
    exact ⟨valid_ofJson (h item List.mem_cons_self),
      valid_ofJsonItems fun item hitem ↦ h item (List.mem_cons_of_mem _ hitem)⟩

theorem valid_ofJsonFields {fields : List (JsString × Json)} (h : ∀ field ∈ fields, field.2.Valid) :
    ∀ field ∈ ofJsonFields fields, field.2.Valid := by
  cases fields with
  | nil => exact fun field hfield ↦ by cases hfield
  | cons field fields =>
    rw [ofJsonFields, List.forall_mem_cons]
    exact ⟨valid_ofJson (h field List.mem_cons_self),
      valid_ofJsonFields fun field hfield ↦ h field (List.mem_cons_of_mem _ hfield)⟩

end

theorem Valid.reparsed {v : JsValue} (h : v.Valid) : v.reparsed.Valid := valid_ofJson h.toJson

/-- The value comes back from its indented text. -/
theorem parse_pretty {v : JsValue} (h : v.Valid) :
    (Json.parse (v.toJson.pretty 0 ++ [0x0A])).map ofJson = some v.reparsed := by
  rw [Json.parse_pretty h.toJson]
  rfl

/-! ## Stable texts -/

theorem stableItems_eq {items : List JsValue} (h : ∀ item ∈ items, item ≠ .undefined) :
    stableItems items = items.map stableJson := by
  induction items with
  | nil => rfl
  | cons item items ih =>
    rw [List.map_cons, ← ih fun item hitem ↦ h item (List.mem_cons_of_mem _ hitem)]
    cases item with
    | undefined => exact absurd rfl (h _ List.mem_cons_self)
    | _ => rfl

theorem stableFields_eq (fields : List (JsString × JsValue)) :
    stableFields fields = fields.map fun field ↦ (field.1, field.2.stableJson) := by
  induction fields with
  | nil => rfl
  | cons field fields ih => rw [stableFields, ih, List.map_cons]

theorem stableJson_finite {v : JsValue} (h : v.Defined) : v.finite.stableJson = v.stableJson := by
  induction h with
  | null => rfl
  | bool => rfl
  | number value => cases value <;> rfl
  | string => rfl
  | @array items h ih =>
    have hne : ∀ item ∈ items, item ≠ .undefined := fun item hitem ↦ (h item hitem).ne_undefined
    have hfinite : ∀ item ∈ items.map finite, item ≠ .undefined :=
      List.forall_mem_map.mpr fun item hitem heq ↦ hne item hitem (finite_eq_undefined.mp heq)
    have hmap : items.map (stableJson ∘ finite) = items.map stableJson := List.map_congr_left ih
    rw [finite, stableJson, stableJson, finiteItems_eq, stableItems_eq hne, stableItems_eq hfinite, List.map_map, hmap]
  | @object fields h ih =>
    rw [finite, stableJson, stableJson, finiteFields_eq, stableFields_eq, stableFields_eq, List.map_map]
    congr 1
    exact List.map_congr_left fun field hfield ↦ congrArg (Prod.mk field.1) (ih field hfield)

theorem stableJson_reparsed {v : JsValue} (h : v.Defined) : v.reparsed.stableJson = v.stableJson := by
  rw [reparsed_eq_finite h, stableJson_finite h]

/-! ## Lengths -/

/-- What a part takes with its comma. -/
def itemsLength (texts : List JsString) : ℕ := (texts.map fun text ↦ text.length + 1).sum

theorem length_intercalate (texts : List JsString) :
    ((js ",").intercalate texts).length + 2 = max 2 (itemsLength texts + 1) := by
  have hcomma : js "," = [0x2C] := by decide
  rw [hcomma]
  induction texts with
  | nil => rfl
  | cons text texts ih =>
    cases texts with
    | nil => simp [itemsLength, List.intercalate]
    | cons next texts =>
      simp only [List.intercalate, itemsLength, List.intersperse, List.flatten_cons, List.length_append, List.map_cons,
        List.sum_cons, List.length_singleton] at ih ⊢
      omega

theorem itemsLength_perm {texts texts' : List JsString} (h : texts.Perm texts') : itemsLength texts = itemsLength texts' :=
  (h.map _).sum_eq

/-- What a field takes with its comma. -/
def fieldText (field : JsString × JsString) : JsString := quote field.1 ++ js ":" ++ field.2

theorem length_stableObject (fields : List (JsString × JsString)) :
    (stableObject fields).length = max 2 (itemsLength (fields.map fieldText) + 1) := by
  have hsorted := (fields.perm_insertionSort fun a b ↦ a.1 ≤ b.1).map fieldText
  have hbraces : (js "\x7b").length = 1 ∧ (js "\x7d").length = 1 := by decide
  have hlength := length_intercalate ((fields.insertionSort fun a b ↦ a.1 ≤ b.1).map fieldText)
  rw [itemsLength_perm hsorted] at hlength
  rw [stableObject, List.length_append, List.length_append, hbraces.1, hbraces.2, ← hlength, Nat.add_comm 1,
    Nat.add_assoc]
  rfl

theorem length_stableArray (texts : List JsString) :
    (js "[" ++ (js ",").intercalate texts ++ js "]").length = max 2 (itemsLength texts + 1) := by
  have hbrackets : (js "[").length = 1 ∧ (js "]").length = 1 := by decide
  rw [List.length_append, List.length_append, hbrackets.1, hbrackets.2, ← length_intercalate, Nat.add_comm 1,
    Nat.add_assoc]

/-- The text of what comes back, against that of the value. -/
structure Shortens (v : JsValue) : Prop where
  le : v.reparsed.stableJson.length ≤ v.stableJson.length
  lt : ¬v.Defined → v.reparsed.stableJson.length < v.stableJson.length

theorem Shortens.of_defined {v : JsValue} (h : v.Defined) : v.Shortens where
  le := (congrArg List.length (stableJson_reparsed h)).le
  lt hnot := absurd h hnot

theorem ofJson_ne_undefined (w : Json) : ofJson w ≠ .undefined := by
  cases w with
  | number value => cases value <;> exact JsValue.noConfusion
  | _ => exact JsValue.noConfusion

theorem Valid.ne_undefined {v : JsValue} (h : v.Valid) : v ≠ .undefined := by
  cases h <;> exact JsValue.noConfusion

theorem shortens_array {items : List JsValue} (hvalid : ∀ item ∈ items, item.Valid)
    (h : ∀ item ∈ items, item.Shortens) : (JsValue.array items).Shortens := by
  have hitems : (JsValue.array items).stableJson.length = max 2 (itemsLength (items.map stableJson) + 1) := by
    rw [stableJson, length_stableArray, stableItems_eq fun item hitem ↦ (hvalid item hitem).ne_undefined]
  have hback : (JsValue.array items).reparsed.stableJson.length =
      max 2 (itemsLength (items.map fun item ↦ item.reparsed.stableJson) + 1) := by
    rw [reparsed_array, stableJson, length_stableArray, stableItems_eq, List.map_map]
    · rfl
    · exact List.forall_mem_map.mpr fun item _ ↦ ofJson_ne_undefined _
  simp only [itemsLength, List.map_map, Function.comp_def] at hitems hback
  have hle : (items.map fun item ↦ item.reparsed.stableJson.length + 1).sum ≤
      (items.map fun item ↦ item.stableJson.length + 1).sum :=
    List.sum_le_sum fun item hitem ↦ Nat.succ_le_succ (h item hitem).le
  constructor
  · omega
  · intro hnot
    obtain ⟨item, hitem, hundefined⟩ : ∃ item ∈ items, ¬item.Defined := by
      by_contra hall
      push Not at hall
      exact hnot (.array hall)
    have hlt : (items.map fun item ↦ item.reparsed.stableJson.length + 1).sum <
        (items.map fun item ↦ item.stableJson.length + 1).sum :=
      List.sum_lt_sum _ _ (fun item hitem ↦ Nat.succ_le_succ (h item hitem).le)
        ⟨item, hitem, Nat.succ_lt_succ ((h item hitem).lt hundefined)⟩
    have hpos : item.reparsed.stableJson.length + 1 ≤ (items.map fun item ↦ item.reparsed.stableJson.length + 1).sum :=
      List.le_sum_of_mem (List.mem_map_of_mem hitem)
    omega

/-- What the fields of an object take with their commas. -/
def fieldsLength (fields : List (JsString × JsValue)) : ℕ := itemsLength ((stableFields fields).map fieldText)

theorem fieldsLength_cons (name : JsString) (value : JsValue) (fields : List (JsString × JsValue)) :
    fieldsLength ((name, value) :: fields) =
      ((quote name).length + (js ":").length + value.stableJson.length + 1) + fieldsLength fields := by
  rw [fieldsLength, fieldsLength, itemsLength, stableFields, List.map_cons, List.map_cons, List.sum_cons, fieldText,
    List.length_append, List.length_append]
  rfl

/-- A field that is left out or comes back shorter makes the whole shorter. -/
theorem fieldsLength_reparsed {fields : List (JsString × JsValue)}
    (h : ∀ field ∈ fields, field.2 ≠ .undefined → field.2.Shortens) :
    fieldsLength (ofJsonFields (toJsonFields fields)) ≤ fieldsLength fields ∧
      (¬(∀ field ∈ fields, field.2.Defined) →
        fieldsLength (ofJsonFields (toJsonFields fields)) < fieldsLength fields) := by
  induction fields with
  | nil => exact ⟨le_rfl, fun hnot ↦ absurd (fun field hfield ↦ by cases hfield) hnot⟩
  | cons field fields ih =>
    obtain ⟨name, value⟩ := field
    obtain ⟨hle, hlt⟩ := ih fun field hfield ↦ h field (List.mem_cons_of_mem _ hfield)
    by_cases hvalue : value = .undefined
    · have hdrop : toJsonFields ((name, value) :: fields) = toJsonFields fields := by rw [hvalue, toJsonFields]
      rw [hdrop, fieldsLength_cons]
      exact ⟨by omega, fun _ ↦ by omega⟩
    · have hshort := h _ List.mem_cons_self hvalue
      have hfield : (ofJson value.toJson).stableJson.length ≤ value.stableJson.length := hshort.le
      rw [toJsonFields_cons hvalue, ofJsonFields, fieldsLength_cons, fieldsLength_cons]
      refine ⟨by omega, fun hnot ↦ ?_⟩
      by_cases hdefined : value.Defined
      · have hrest := hlt fun hall ↦ hnot (List.forall_mem_cons.mpr ⟨hdefined, hall⟩)
        omega
      · have hless : (ofJson value.toJson).stableJson.length < value.stableJson.length := hshort.lt hdefined
        omega

theorem shortens_object {fields : List (JsString × JsValue)}
    (h : ∀ field ∈ fields, field.2 ≠ .undefined → field.2.Shortens) : (JsValue.object fields).Shortens := by
  obtain ⟨hle, hlt⟩ := fieldsLength_reparsed h
  have hfields (fs : List (JsString × JsValue)) :
      (JsValue.object fs).stableJson.length = max 2 (fieldsLength fs + 1) := by
    rw [stableJson, length_stableObject, fieldsLength]
  constructor
  · rw [reparsed_object, hfields, hfields]
    omega
  · intro hnot
    have hless := hlt fun hall ↦ hnot (.object hall)
    have hlarge : 2 ≤ fieldsLength fields := by
      cases fields with
      | nil => exact absurd hless (Nat.not_lt_zero _)
      | cons field fields =>
        rw [fieldsLength_cons, quote, List.length_append, List.length_append, List.length_singleton]
        omega
    rw [reparsed_object, hfields, hfields]
    omega

theorem Valid.shortens {v : JsValue} (h : v.Valid) : v.Shortens := by
  induction h with
  | null => exact .of_defined .null
  | bool value => exact .of_defined (.bool value)
  | @number value _ => exact .of_defined (.number (some value))
  | nonfinite => exact .of_defined (.number none)
  | string value => exact .of_defined (.string value)
  | array h ih => exact shortens_array h ih
  | object _ _ _ ih => exact shortens_object ih

/-- The stable text survives writing and parsing if and only if no field is `undefined`. -/
theorem Valid.stableJson_reparsed_iff {v : JsValue} (h : v.Valid) :
    v.reparsed.stableJson = v.stableJson ↔ v.Defined := by
  refine ⟨fun heq ↦ ?_, stableJson_reparsed⟩
  by_contra hnot
  exact absurd (congrArg List.length heq) (h.shortens.lt hnot).ne

/-! ## Names -/

mutual

theorem names_reparsed (v : JsValue) : v.reparsed.names.Sublist v.names := by
  cases v with
  | array items =>
    rw [reparsed, JsValue.toJson, ofJson, names, names]
    exact namesOfItems_reparsed items
  | object fields =>
    rw [reparsed, JsValue.toJson, ofJson, names, names]
    exact namesOfFields_reparsed fields
  | number value => cases value <;> exact List.Sublist.refl _
  | _ => exact List.Sublist.refl _

theorem namesOfItems_reparsed (items : List JsValue) :
    (namesOfItems (ofJsonItems (toJsonItems items))).Sublist (namesOfItems items) := by
  cases items with
  | nil => exact List.Sublist.refl _
  | cons item items =>
    rw [toJsonItems, ofJsonItems, namesOfItems, namesOfItems]
    exact (names_reparsed item).append (namesOfItems_reparsed items)

theorem namesOfFields_reparsed (fields : List (JsString × JsValue)) :
    (namesOfFields (ofJsonFields (toJsonFields fields))).Sublist (namesOfFields fields) := by
  cases fields with
  | nil => exact List.Sublist.refl _
  | cons field fields =>
    obtain ⟨name, value⟩ := field
    by_cases hvalue : value = .undefined
    · have hrest := namesOfFields_reparsed fields
      rw [hvalue, toJsonFields, namesOfFields]
      exact (hrest.trans (List.sublist_append_right _ _)).cons name
    · rw [toJsonFields_cons hvalue, ofJsonFields, namesOfFields, namesOfFields]
      exact ((names_reparsed value).append (namesOfFields_reparsed fields)).cons_cons name

end

/-! ## A field of its own -/

theorem reparsed_without (v : JsValue) (name : JsString) : (v.without name).reparsed = v.reparsed.without name := by
  cases v with
  | object fields =>
    rw [without, reparsed_object, reparsed_object, without]
    congr 1
    induction fields with
    | nil => rfl
    | cons field fields ih =>
      obtain ⟨name', value⟩ := field
      by_cases hvalue : value = .undefined
      · rw [hvalue, toJsonFields, ← ih, List.filter_cons]
        split <;> rfl
      · rw [toJsonFields_cons hvalue, ofJsonFields, List.filter_cons, List.filter_cons, ← ih]
        simp only [decide_eq_true_eq]
        split
        · rw [toJsonFields_cons hvalue, ofJsonFields]
        · rfl
  | number value => cases value <;> rfl
  | _ => rfl

theorem Valid.without {v : JsValue} (h : v.Valid) (name : JsString) : (v.without name).Valid := by
  cases h with
  | object hnodup hordered h =>
    have hsublist : ∀ fields : List (JsString × JsValue), (fields.filter fun field ↦ field.1 ≠ name).Sublist fields :=
      fun fields ↦ List.filter_sublist
    exact .object (((hsublist _).map Prod.fst).nodup hnodup) (hordered.sublist (hsublist _)) fun field hfield ↦
      h field (List.mem_of_mem_filter hfield)
  | null => exact .null
  | bool value => exact .bool value
  | number h => exact .number h
  | nonfinite => exact .nonfinite
  | string value => exact .string value
  | array h => exact .array h

theorem mem_of_lookup {fields : List (JsString × JsValue)} {name : JsString} {value : JsValue}
    (h : fields.lookup name = some value) : (name, value) ∈ fields := by
  obtain ⟨before, after, heq, -⟩ := List.lookup_eq_some_iff.mp h
  rw [heq]
  exact List.mem_append_right before List.mem_cons_self

theorem defined_get {v : JsValue} {name other : JsString} (h : (v.without other).Defined) (hne : name ≠ other) :
    v.get name = .undefined ∨ (v.get name).Defined := by
  cases v with
  | object fields =>
    cases h with
    | object h =>
      cases hlookup : fields.lookup name with
      | none => exact Or.inl (by rw [get, hlookup, Option.getD_none])
      | some value =>
        rw [get, hlookup, Option.getD_some]
        have hmem := mem_of_lookup hlookup
        exact Or.inr (h _ (List.mem_filter.mpr ⟨hmem, decide_eq_true hne⟩))
  | _ => exact Or.inl rfl

theorem lookup_reparsed {fields : List (JsString × JsValue)} {name : JsString} {value : JsValue}
    (h : fields.lookup name = some value) (hvalue : value ≠ .undefined) :
    (ofJsonFields (toJsonFields fields)).lookup name = some value.reparsed := by
  induction fields with
  | nil => cases h
  | cons field fields ih =>
    obtain ⟨name', first⟩ := field
    rw [List.lookup_cons] at h
    cases hname : name == name' with
    | true =>
      rw [hname] at h
      obtain rfl : first = value := Option.some.inj h
      rw [toJsonFields_cons hvalue, ofJsonFields, List.lookup_cons, hname]
      rfl
    | false =>
      rw [hname] at h
      by_cases hfirst : first = .undefined
      · rw [hfirst, toJsonFields]
        exact ih h
      · rw [toJsonFields_cons hfirst, ofJsonFields, List.lookup_cons, hname]
        exact ih h

theorem lookup_left_out {fields : List (JsString × JsValue)} (hnodup : (fields.map Prod.fst).Nodup) {name : JsString}
    (h : (name, .undefined) ∈ fields ∨ name ∉ fields.map Prod.fst) :
    (ofJsonFields (toJsonFields fields)).lookup name = none := by
  rw [List.lookup_eq_none_iff]
  intro field hfield
  have hname : field.1 ∈ (toJsonFields fields).map Prod.fst := by
    rw [← names_ofJsonFields]
    exact List.mem_map_of_mem hfield
  obtain ⟨written, hwritten, hfst⟩ := List.mem_map.mp hname
  obtain ⟨value, hmem, hvalue, -⟩ := mem_toJsonFields hwritten
  rw [bne_iff_ne]
  rintro rfl
  rw [hfst] at hmem
  obtain hundefined | hnot := h
  · exact hvalue (congrArg Prod.snd (List.inj_on_of_nodup_map hnodup hmem hundefined rfl))
  · exact hnot (List.mem_map.mpr ⟨_, hmem, rfl⟩)

/-- A field that holds no `undefined` comes back. -/
theorem get_reparsed {v : JsValue} (h : v.Valid) {name : JsString}
    (hname : v.get name = .undefined ∨ (v.get name).Defined) : v.reparsed.get name = (v.get name).finite := by
  cases h with
  | @object fields hnodup _ _ =>
    rw [reparsed_object]
    cases hlookup : fields.lookup name with
    | none =>
      have hnot : name ∉ fields.map Prod.fst := by
        intro hmem
        obtain ⟨field, hfield, rfl⟩ := List.mem_map.mp hmem
        exact absurd (List.lookup_eq_none_iff.mp hlookup field hfield) (by simp)
      rw [get, get, lookup_left_out hnodup (Or.inr hnot), hlookup]
      rfl
    | some value =>
      rw [get, hlookup, Option.getD_some] at hname
      obtain rfl | hdefined := hname
      · rw [get, get, lookup_left_out hnodup (Or.inl (mem_of_lookup hlookup)), hlookup]
        rfl
      · rw [get, get, lookup_reparsed hlookup hdefined.ne_undefined, hlookup, Option.getD_some, Option.getD_some,
          reparsed_eq_finite hdefined]
  | _ => rfl

end MidnightReferendum.Js.JsValue
