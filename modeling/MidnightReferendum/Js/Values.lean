import MidnightReferendum.Js.PrettyText

/-!
# Values in memory

A value as a program holds it, before it is written as JSON: a field may be there with the value `undefined`, and a number
may be no JSON number. `JSON.stringify` leaves such fields out and writes such numbers as `null`.
-/

namespace MidnightReferendum.Js

inductive JsValue where
  | undefined
  | null
  | bool (value : Bool)
  /-- No number stands for `NaN` and the infinities. -/
  | number (value : Option ℚ)
  | string (value : JsString)
  | array (items : List JsValue)
  | object (fields : List (JsString × JsValue))

namespace JsValue

/-! ## Fields -/

/-- `value[name]` of an object -/
def get (v : JsValue) (name : JsString) : JsValue :=
  match v with
  | .object fields => (fields.lookup name).getD .undefined
  | _ => .undefined

/-- The object without a field. -/
def without (v : JsValue) (name : JsString) : JsValue :=
  match v with
  | .object fields => .object (fields.filter fun field ↦ field.1 ≠ name)
  | v => v

mutual

/-- The names of the fields at every depth of a value. -/
def names : JsValue → List JsString
  | .array items => namesOfItems items
  | .object fields => namesOfFields fields
  | _ => []

def namesOfItems : List JsValue → List JsString
  | [] => []
  | item :: items => item.names ++ namesOfItems items

def namesOfFields : List (JsString × JsValue) → List JsString
  | [] => []
  | (name, value) :: fields => name :: (value.names ++ namesOfFields fields)

end

/-! ## Conversions -/

mutual

/-- What `JSON.stringify` writes: `undefined` stands in an array as `null`, and a field with it is left out. -/
def toJson : JsValue → Json
  | .undefined => .null
  | .null => .null
  | .bool value => .bool value
  | .number (some value) => .number (.finite value)
  | .number none => .null
  | .string value => .string value
  | .array items => .array (toJsonItems items)
  | .object fields => .object (toJsonFields fields)

def toJsonItems : List JsValue → List Json
  | [] => []
  | item :: items => item.toJson :: toJsonItems items

def toJsonFields : List (JsString × JsValue) → List (JsString × Json)
  | [] => []
  | (_, .undefined) :: fields => toJsonFields fields
  | (name, value) :: fields => (name, value.toJson) :: toJsonFields fields

end

mutual

/-- A parsed value. A numeral that is too large is an infinity. -/
def ofJson : Json → JsValue
  | .null => .null
  | .bool value => .bool value
  | .number (.finite value) => .number (some value)
  | .number (.infinite _) => .number none
  | .string value => .string value
  | .array items => .array (ofJsonItems items)
  | .object fields => .object (ofJsonFields fields)

def ofJsonItems : List Json → List JsValue
  | [] => []
  | item :: items => ofJson item :: ofJsonItems items

def ofJsonFields : List (JsString × Json) → List (JsString × JsValue)
  | [] => []
  | (name, value) :: fields => (name, ofJson value) :: ofJsonFields fields

end

/-- The value after it was written and parsed. -/
def reparsed (v : JsValue) : JsValue := ofJson v.toJson

/-- A value as the language has it, without holes: a finite number is a double, and the names of an object are distinct
and in property order. -/
inductive Valid : JsValue → Prop
  | null : Valid .null
  | bool (value : Bool) : Valid (.bool value)
  | number {value : ℚ} (h : IsDouble value) : Valid (.number (some value))
  | nonfinite : Valid (.number none)
  | string (value : JsString) : Valid (.string value)
  | array {items : List JsValue} (h : ∀ item ∈ items, Valid item) : Valid (.array items)
  | object {fields : List (JsString × JsValue)} (hnodup : (fields.map Prod.fst).Nodup)
      (hordered : fields.Pairwise (Before Prod.fst)) (h : ∀ field ∈ fields, field.2 ≠ .undefined → Valid field.2) :
      Valid (.object fields)

/-- No field of the value, or of a value in it, is there with the value `undefined`. -/
inductive Defined : JsValue → Prop
  | null : Defined .null
  | bool (value : Bool) : Defined (.bool value)
  | number (value : Option ℚ) : Defined (.number value)
  | string (value : JsString) : Defined (.string value)
  | array {items : List JsValue} (h : ∀ item ∈ items, Defined item) : Defined (.array items)
  | object {fields : List (JsString × JsValue)} (h : ∀ field ∈ fields, Defined field.2) : Defined (.object fields)

/-! ## Decisions -/

mutual

def isDefined : JsValue → Bool
  | .undefined => false
  | .null => true
  | .bool _ => true
  | .number _ => true
  | .string _ => true
  | .array items => isDefinedItems items
  | .object fields => isDefinedFields fields

def isDefinedItems : List JsValue → Bool
  | [] => true
  | item :: items => item.isDefined && isDefinedItems items

def isDefinedFields : List (JsString × JsValue) → Bool
  | [] => true
  | (_, value) :: fields => value.isDefined && isDefinedFields fields

end

mutual

theorem isDefined_iff (v : JsValue) : v.isDefined = true ↔ v.Defined := by
  cases v with
  | undefined => exact ⟨fun h ↦ (by cases h), fun h ↦ (by cases h)⟩
  | null => exact ⟨fun _ ↦ .null, fun _ ↦ rfl⟩
  | bool value => exact ⟨fun _ ↦ .bool value, fun _ ↦ rfl⟩
  | number value => exact ⟨fun _ ↦ .number value, fun _ ↦ rfl⟩
  | string value => exact ⟨fun _ ↦ .string value, fun _ ↦ rfl⟩
  | array items =>
    rw [isDefined, isDefinedItems_iff items]
    exact ⟨.array, fun | .array h => h⟩
  | object fields =>
    rw [isDefined, isDefinedFields_iff fields]
    exact ⟨.object, fun | .object h => h⟩

theorem isDefinedItems_iff (items : List JsValue) : isDefinedItems items = true ↔ ∀ item ∈ items, item.Defined := by
  cases items with
  | nil => exact ⟨fun _ _ h ↦ (by cases h), fun _ ↦ rfl⟩
  | cons item items =>
    rw [isDefinedItems, Bool.and_eq_true, List.forall_mem_cons, isDefined_iff item, isDefinedItems_iff items]

theorem isDefinedFields_iff (fields : List (JsString × JsValue)) :
    isDefinedFields fields = true ↔ ∀ field ∈ fields, field.2.Defined := by
  cases fields with
  | nil => exact ⟨fun _ _ h ↦ (by cases h), fun _ ↦ rfl⟩
  | cons field fields =>
    rw [isDefinedFields, Bool.and_eq_true, List.forall_mem_cons, isDefined_iff field.2, isDefinedFields_iff fields]

end

instance (v : JsValue) : Decidable v.Defined := decidable_of_iff _ (isDefined_iff v)

mutual

def isValid : JsValue → Bool
  | .undefined => false
  | .null => true
  | .bool _ => true
  | .number none => true
  | .number (some value) => toDouble value = .finite value
  | .string _ => true
  | .array items => isValidItems items
  | .object fields =>
    (fields.map Prod.fst).Nodup && fields.Pairwise (Before Prod.fst) && isValidFields fields

def isValidItems : List JsValue → Bool
  | [] => true
  | item :: items => item.isValid && isValidItems items

def isValidFields : List (JsString × JsValue) → Bool
  | [] => true
  | (_, .undefined) :: fields => isValidFields fields
  | (_, value) :: fields => value.isValid && isValidFields fields

end

mutual

theorem valid_of_isValid {v : JsValue} (h : v.isValid = true) : v.Valid := by
  cases v with
  | undefined => cases h
  | null => exact .null
  | bool value => exact .bool value
  | number value =>
    cases value with
    | none => exact .nonfinite
    | some value => exact .number (of_decide_eq_true h)
  | string value => exact .string value
  | array items => exact .array (validItems_of_isValid h)
  | object fields =>
    rw [isValid, Bool.and_eq_true, Bool.and_eq_true] at h
    exact .object (of_decide_eq_true h.1.1) (of_decide_eq_true h.1.2) (validFields_of_isValid h.2)

theorem validItems_of_isValid {items : List JsValue} (h : isValidItems items = true) : ∀ item ∈ items, item.Valid := by
  cases items with
  | nil => exact fun _ h ↦ by cases h
  | cons item items =>
    rw [isValidItems, Bool.and_eq_true] at h
    exact List.forall_mem_cons.mpr ⟨valid_of_isValid h.1, validItems_of_isValid h.2⟩

theorem validFields_of_isValid {fields : List (JsString × JsValue)} (h : isValidFields fields = true) :
    ∀ field ∈ fields, field.2 ≠ .undefined → field.2.Valid := by
  cases fields with
  | nil => exact fun _ h ↦ by cases h
  | cons field fields =>
    obtain ⟨name, value⟩ := field
    by_cases hvalue : value = .undefined
    · rw [hvalue] at h ⊢
      exact List.forall_mem_cons.mpr ⟨fun hne ↦ absurd rfl hne, validFields_of_isValid h⟩
    · rw [isValidFields, Bool.and_eq_true] at h
      · exact List.forall_mem_cons.mpr ⟨fun _ ↦ valid_of_isValid h.1, validFields_of_isValid h.2⟩
      · exact hvalue

end

/-! ## Stable texts -/

mutual

/-- `stableJson`, with sorted keys. In an object `undefined` is written as this word, in an array as nothing. -/
def stableJson : JsValue → JsString
  | .undefined => js "undefined"
  | .array items => js "[" ++ (js ",").intercalate (stableItems items) ++ js "]"
  | .object fields => stableObject (stableFields fields)
  | .null => Json.null.stringify
  | .bool value => (Json.bool value).stringify
  | .number (some value) => (Json.number (.finite value)).stringify
  | .number none => Json.null.stringify
  | .string value => (Json.string value).stringify

def stableItems : List JsValue → List JsString
  | [] => []
  | .undefined :: items => [] :: stableItems items
  | item :: items => item.stableJson :: stableItems items

def stableFields : List (JsString × JsValue) → List (JsString × JsString)
  | [] => []
  | (name, value) :: fields => (name, value.stableJson) :: stableFields fields

end

end JsValue

end MidnightReferendum.Js
