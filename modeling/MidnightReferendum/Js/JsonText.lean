import MidnightReferendum.Js.Numbers
import MidnightReferendum.Js.Object
import MidnightReferendum.Js.Quotation

/-!
# JSON texts

`JSON.stringify` and `JSON.parse`. What is written for a value is parsed as this value.
-/

namespace MidnightReferendum.Js

/-! ## Writing -/

mutual

/-- `JSON.stringify` -/
def Json.stringify : Json → JsString
  | .null => js "null"
  | .bool true => js "true"
  | .bool false => js "false"
  | .number (.finite value) => numberText value
  | .number (.infinite _) => js "null"
  | .string value => quote value
  | .array items => js "[" ++ stringifyItems items ++ js "]"
  | .object fields => js "\x7b" ++ stringifyFields fields ++ js "\x7d"

def stringifyItems : List Json → JsString
  | [] => []
  | [item] => item.stringify
  | item :: next :: rest => item.stringify ++ js "," ++ stringifyItems (next :: rest)

def stringifyFields : List (JsString × Json) → JsString
  | [] => []
  | [(name, value)] => quote name ++ js ":" ++ value.stringify
  | (name, value) :: next :: rest =>
    quote name ++ js ":" ++ value.stringify ++ js "," ++ stringifyFields (next :: rest)

end

/-! ## Reading -/

/-- The white space of a JSON text. -/
def isJsonSpace (u : UInt16) : Bool := u == 0x20 || u == 0x09 || u == 0x0A || u == 0x0D

def skipSpace (text : JsString) : JsString := text.dropWhile isJsonSpace

/-- The text after a unit that is expected. -/
def expect (u : UInt16) (text : JsString) : Option JsString :=
  match skipSpace text with
  | [] => none
  | v :: rest => if v == u then some rest else none

def readWord (word : JsString) (value : Json) (text : JsString) : Option (Json × JsString) :=
  if word.isPrefixOf text then some (value, text.drop word.length) else none

/-- The object to which the fields are added in turn. -/
def objectOf (fields : List (JsString × Json)) : Json :=
  .object (propertyOrder Prod.fst (fields.foldl KeyedList.set (KeyedList.empty Prod.fst)).entries)

mutual

/-- A value at the head of a text. Each call consumes a unit or is followed by one that does. -/
def readValue : ℕ → JsString → Option (Json × JsString)
  | 0, _ => none
  | fuel + 1, text =>
    match skipSpace text with
    | [] => none
    | u :: rest =>
      if u == 0x22 then (readString rest).map fun r ↦ (.string r.1, r.2)
      else if u == 0x5B then
        match expect 0x5D rest with
        | some rest => some (.array [], rest)
        | none => (readItems fuel rest).map fun r ↦ (.array r.1, r.2)
      else if u == 0x7B then
        match expect 0x7D rest with
        | some rest => some (.object [], rest)
        | none => (readFields fuel rest).map fun r ↦ (objectOf r.1, r.2)
      else if u == 0x6E then readWord (js "null") .null (u :: rest)
      else if u == 0x74 then readWord (js "true") (.bool true) (u :: rest)
      else if u == 0x66 then readWord (js "false") (.bool false) (u :: rest)
      else (readNumber (u :: rest)).map fun r ↦ (.number r.1, r.2)

/-- The items of an array up to its closing bracket. -/
def readItems : ℕ → JsString → Option (List Json × JsString)
  | 0, _ => none
  | fuel + 1, text =>
    (readValue fuel text).bind fun item ↦
      match skipSpace item.2 with
      | [] => none
      | u :: rest =>
        if u == 0x2C then (readItems fuel rest).map fun r ↦ (item.1 :: r.1, r.2)
        else if u == 0x5D then some ([item.1], rest)
        else none

/-- The fields of an object up to its closing brace. -/
def readFields : ℕ → JsString → Option (List (JsString × Json) × JsString)
  | 0, _ => none
  | fuel + 1, text =>
    (expect 0x22 text).bind fun text ↦ (readString text).bind fun name ↦
      (expect 0x3A name.2).bind fun text ↦ (readValue fuel text).bind fun value ↦
        match skipSpace value.2 with
        | [] => none
        | u :: rest =>
          if u == 0x2C then (readFields fuel rest).map fun r ↦ ((name.1, value.1) :: r.1, r.2)
          else if u == 0x7D then some ([(name.1, value.1)], rest)
          else none

end

/-- `JSON.parse`, which throws for a text that is not JSON. -/
def Json.parse (text : JsString) : Option Json :=
  match readValue (2 * text.length + 2) text with
  | some (value, rest) => if skipSpace rest = [] then some value else none
  | none => none

/-! ## Values that are written and read back -/

/-- A value as the language has it: a number is a finite double, and the names of an object are distinct and in
property order. -/
inductive Json.Valid : Json → Prop
  | null : Valid .null
  | bool (value : Bool) : Valid (.bool value)
  | number {value : ℚ} (h : IsDouble value) : Valid (.number (.finite value))
  | string (value : JsString) : Valid (.string value)
  | array {items : List Json} (h : ∀ item ∈ items, Valid item) : Valid (.array items)
  | object {fields : List (JsString × Json)} (hnodup : (fields.map Prod.fst).Nodup)
      (hordered : fields.Pairwise (Before Prod.fst)) (h : ∀ field ∈ fields, Valid field.2) :
      Valid (.object fields)

/-- The value of a field whose name is the only one of its kind. -/
theorem lookup_of_mem {α : Type} {fields : List (JsString × α)} (hnodup : (fields.map Prod.fst).Nodup)
    {field : JsString × α} (h : field ∈ fields) : fields.lookup field.1 = some field.2 := by
  obtain ⟨before, after, rfl⟩ := List.append_of_mem h
  rw [List.map_append, List.nodup_append] at hnodup
  refine List.lookup_eq_some_iff.mpr ⟨before, after, rfl, fun other hother ↦ ?_⟩
  rw [bne_iff_ne]
  exact (hnodup.2.2 other.1 (List.mem_map_of_mem hother) field.1 (List.mem_map_of_mem List.mem_cons_self)).symm

theorem objectOf_fields {fields : List (JsString × Json)} (hnodup : (fields.map Prod.fst).Nodup)
    (hordered : fields.Pairwise (Before Prod.fst)) : objectOf fields = .object fields := by
  have hloop : ∀ (post : List (JsString × Json)) (acc : KeyedList (Prod.fst : JsString × Json → JsString)),
      ((acc.entries ++ post).map Prod.fst).Nodup → (post.foldl KeyedList.set acc).entries = acc.entries ++ post := by
    intro post
    induction post with
    | nil => exact fun acc _ ↦ (List.append_nil _).symm
    | cons field post ih =>
      intro acc hnodup
      have hnew : field.1 ∉ acc.entries.map Prod.fst := by
        rw [List.map_append, List.nodup_append] at hnodup
        exact fun hmem ↦ hnodup.2.2 _ hmem field.1 List.mem_cons_self rfl
      have hset := KeyedList.entries_set_of_not_mem hnew
      rw [List.foldl_cons, ih (acc.set field) (by rwa [hset, List.append_assoc, List.singleton_append]), hset,
        List.append_assoc, List.singleton_append]
  rw [objectOf, hloop fields (KeyedList.empty Prod.fst) hnodup]
  exact congrArg Json.object (propertyOrder_eq_self Prod.fst hordered)

/-- The value is read back before any text that does not go on with a number. -/
def ReadsBack (v : Json) : Prop :=
  ∀ fuel rest, 2 * v.stringify.length ≤ fuel + 1 → EndsNumber rest →
    readValue (fuel + 1) (v.stringify ++ rest) = some (v, rest)

theorem skipSpace_cons {u : UInt16} (h : isJsonSpace u = false) (rest : JsString) :
    skipSpace (u :: rest) = u :: rest :=
  List.dropWhile_cons_of_neg (by simp [h])

theorem expect_cons {u : UInt16} (h : isJsonSpace u = false) (rest : JsString) :
    expect u (u :: rest) = some rest := by
  simp [expect, skipSpace_cons h]

theorem expect_of_ne {u v : UInt16} (h : isJsonSpace v = false) (hne : v ≠ u) (rest : JsString) :
    expect u (v :: rest) = none := by
  simp [expect, skipSpace_cons h, hne]

/-- A unit with which a number begins. -/
def startsNumber (u : UInt16) : Bool := isDecimalDigit u || u == 0x2D

theorem ne_of_startsNumber {u v : UInt16} (hu : startsNumber u) (hv : startsNumber v = false) :
    ¬(u == v) = true := by
  intro heq
  rw [beq_iff_eq.mp heq, hv] at hu
  contradiction

theorem head_numberText {x : ℚ} (h : IsDouble x) : ∃ u rest, numberText x = u :: rest ∧ startsNumber u := by
  have hplain : ∀ {text : JsString}, StandsFor text x → ∃ u rest, text = u :: rest ∧ startsNumber u := by
    intro text hstands
    obtain ⟨u, rest, htext, hu⟩ := hstands.head
    exact ⟨u, rest, htext, by rw [startsNumber, hu, Bool.true_or]⟩
  unfold numberText
  split
  · next hzero => exact hplain (hzero ▸ standsFor_zero)
  split
  · exact ⟨0x2D, positiveText (-x), by rw [show js "-" = [0x2D] by decide]; rfl, rfl⟩
  · next hzero hneg => exact hplain (standsFor_positiveText (lt_of_le_of_ne (not_lt.mp hneg) (Ne.symm hzero)) h)

theorem Json.Valid.head {v : Json} (h : v.Valid) :
    ∃ u rest, v.stringify = u :: rest ∧ isJsonSpace u = false ∧ u ≠ 0x5D := by
  cases h with
  | null => exact ⟨0x6E, js "ull", by decide +kernel⟩
  | bool value =>
    cases value with
    | false => exact ⟨0x66, js "alse", by decide +kernel⟩
    | true => exact ⟨0x74, js "rue", by decide +kernel⟩
  | number h =>
    obtain ⟨u, rest, htext, hu⟩ := head_numberText h
    refine ⟨u, rest, by rw [stringify, htext], ?_, fun heq ↦ ne_of_startsNumber hu (v := 0x5D) rfl (beq_iff_eq.mpr heq)⟩
    have hne := fun v hv ↦ Bool.eq_false_iff.mpr (ne_of_startsNumber hu (v := v) hv)
    rw [isJsonSpace, hne 0x20 rfl, hne 0x09 rfl, hne 0x0A rfl, hne 0x0D rfl]
    rfl
  | string value => exact ⟨0x22, quoteUnits value ++ [0x22], rfl, rfl, by decide⟩
  | array => exact ⟨0x5B, _, by rw [stringify, show js "[" = [0x5B] by decide]; rfl, rfl, by decide⟩
  | object => exact ⟨0x7B, _, by rw [stringify, show js "\x7b" = [0x7B] by decide]; rfl, rfl, by decide⟩

theorem endsNumber_of_mem {u : UInt16} (h : u ∈ [0x2C, 0x5D, 0x7D]) (rest : JsString) :
    EndsNumber (u :: rest) := by
  have hall : ([0x2C, 0x5D, 0x7D].all fun u : UInt16 ↦
      decide (isDecimalDigit u = false ∧ u ≠ 0x2E ∧ u ≠ 0x65 ∧ u ≠ 0x45)) = true := by
    decide
  intro v hv
  obtain rfl := Option.some.inj hv
  exact of_decide_eq_true (List.all_eq_true.mp hall _ h)

theorem readsBack_number {x : ℚ} (h : IsDouble x) : ReadsBack (.number (.finite x)) := by
  intro fuel rest _ hrest
  obtain ⟨u, tail, htext, hu⟩ := head_numberText h
  have hread := readNumber_numberText h hrest
  have hspace : isJsonSpace u = false := by
    have hne := fun v hv ↦ Bool.eq_false_iff.mpr (ne_of_startsNumber hu (v := v) hv)
    rw [isJsonSpace, hne 0x20 rfl, hne 0x09 rfl, hne 0x0A rfl, hne 0x0D rfl]
    rfl
  rw [htext] at hread
  rw [Json.stringify, htext, List.cons_append, readValue, skipSpace_cons hspace]
  simp only
  rw [if_neg (ne_of_startsNumber hu rfl), if_neg (ne_of_startsNumber hu rfl), if_neg (ne_of_startsNumber hu rfl),
    if_neg (ne_of_startsNumber hu rfl), if_neg (ne_of_startsNumber hu rfl), if_neg (ne_of_startsNumber hu rfl),
    ← List.cons_append, hread]
  rfl

theorem readsBack_string (s : JsString) : ReadsBack (.string s) := by
  intro fuel rest _ _
  rw [Json.stringify, quote, List.append_assoc, List.append_assoc, List.singleton_append, readValue,
    skipSpace_cons rfl]
  simp only
  rw [if_pos (by decide), List.singleton_append, readString_quoteUnits]
  rfl

theorem readsBack_word {v : Json} (h : v = .null ∨ ∃ value, v = .bool value) : ReadsBack v := by
  intro fuel rest _ _
  have hnull : js "null" = [0x6E, 0x75, 0x6C, 0x6C] := by decide
  have htrue : js "true" = [0x74, 0x72, 0x75, 0x65] := by decide
  have hfalse : js "false" = [0x66, 0x61, 0x6C, 0x73, 0x65] := by decide
  obtain rfl | ⟨value, rfl⟩ := h
  · simp [Json.stringify, readValue, skipSpace_cons, isJsonSpace, readWord, hnull]
  · cases value with
    | false => simp [Json.stringify, readValue, skipSpace_cons, isJsonSpace, readWord, hfalse]
    | true => simp [Json.stringify, readValue, skipSpace_cons, isJsonSpace, readWord, htrue]

theorem stringifyItems_cons (item : Json) (items : List Json) :
    ∃ after, stringifyItems (item :: items) = item.stringify ++ after := by
  cases items with
  | nil => exact ⟨[], (List.append_nil _).symm⟩
  | cons next items => exact ⟨_, by rw [stringifyItems, List.append_assoc]⟩

theorem readItems_stringify {items : List Json} (hne : items ≠ []) (h : ∀ item ∈ items, ReadsBack item)
    (fuel : ℕ) (rest : JsString) (hfuel : 2 * (stringifyItems items).length ≤ fuel)
    (hpos : ∀ item ∈ items, item.stringify ≠ []) :
    readItems (fuel + 1) (stringifyItems items ++ 0x5D :: rest) = some (items, rest) := by
  have hcomma : js "," = [0x2C] := by decide
  induction items generalizing fuel with
  | nil => exact absurd rfl hne
  | cons item items ih =>
  cases items with
  | nil =>
    have hlength := List.length_pos_iff.mpr (hpos item List.mem_cons_self)
    obtain ⟨fuel, rfl⟩ : ∃ f, fuel = f + 1 := ⟨fuel - 1, by rw [stringifyItems] at hfuel; omega⟩
    have hread := h item List.mem_cons_self fuel (0x5D :: rest) (by rwa [stringifyItems] at hfuel)
      (endsNumber_of_mem (by decide) rest)
    rw [stringifyItems, readItems, hread, Option.bind_some, skipSpace_cons rfl]
    rfl
  | cons next items =>
    have hlength := List.length_pos_iff.mpr (hpos item List.mem_cons_self)
    rw [stringifyItems, hcomma, List.length_append, List.length_append, List.length_singleton] at hfuel
    obtain ⟨fuel, rfl⟩ : ∃ f, fuel = f + 1 := ⟨fuel - 1, by omega⟩
    have hread := h item List.mem_cons_self fuel (0x2C :: (stringifyItems (next :: items) ++ 0x5D :: rest))
      (by omega) (endsNumber_of_mem (by decide) _)
    have hrest := ih (List.cons_ne_nil _ _) (fun v hv ↦ h v (List.mem_cons_of_mem _ hv)) fuel (by omega)
      fun v hv ↦ hpos v (List.mem_cons_of_mem _ hv)
    rw [stringifyItems, hcomma, List.append_assoc, List.append_assoc, List.singleton_append, readItems, hread,
      Option.bind_some, skipSpace_cons rfl]
    simp only
    rw [if_pos (by decide), hrest]
    rfl

theorem stringifyFields_cons (name : JsString) (value : Json) (fields : List (JsString × Json)) :
    ∃ after, stringifyFields ((name, value) :: fields) = quote name ++ after := by
  cases fields with
  | nil => exact ⟨_, by rw [stringifyFields, List.append_assoc]⟩
  | cons next fields => exact ⟨_, by rw [stringifyFields, List.append_assoc, List.append_assoc, List.append_assoc]⟩

theorem readFields_stringify {fields : List (JsString × Json)} (hne : fields ≠ [])
    (h : ∀ field ∈ fields, ReadsBack field.2) (fuel : ℕ) (rest : JsString)
    (hfuel : 2 * (stringifyFields fields).length ≤ fuel) :
    readFields (fuel + 1) (stringifyFields fields ++ 0x7D :: rest) = some (fields, rest) := by
  have hcomma : js "," = [0x2C] := by decide
  have hcolon : js ":" = [0x3A] := by decide
  have hname : ∀ (name text : JsString), expect 0x22 (quote name ++ text) = some (quoteUnits name ++ 0x22 :: text) := by
    intro name text
    rw [quote, List.append_assoc, List.append_assoc, List.singleton_append, expect_cons rfl, List.singleton_append]
  have hsize : ∀ name : JsString, 2 ≤ (quote name).length := fun name ↦ by simp [quote]
  induction fields generalizing fuel with
  | nil => exact absurd rfl hne
  | cons field fields ih =>
  obtain ⟨name, value⟩ := field
  cases fields with
  | nil =>
    have hquote := hsize name
    rw [stringifyFields, hcolon, List.length_append, List.length_append, List.length_singleton] at hfuel
    obtain ⟨fuel, rfl⟩ : ∃ f, fuel = f + 1 := ⟨fuel - 1, by omega⟩
    have hread := h (name, value) List.mem_cons_self fuel (0x7D :: rest) (by simp only; omega)
      (endsNumber_of_mem (by decide) rest)
    rw [stringifyFields, hcolon, List.append_assoc, List.append_assoc, List.singleton_append, readFields, hname,
      Option.bind_some, readString_quoteUnits, Option.bind_some, expect_cons rfl, Option.bind_some, hread,
      Option.bind_some, skipSpace_cons rfl]
    rfl
  | cons next fields =>
    have hquote := hsize name
    rw [stringifyFields, hcolon, hcomma, List.length_append, List.length_append, List.length_append,
      List.length_append, List.length_singleton, List.length_singleton] at hfuel
    obtain ⟨fuel, rfl⟩ : ∃ f, fuel = f + 1 := ⟨fuel - 1, by omega⟩
    have hread := h (name, value) List.mem_cons_self fuel
      (0x2C :: (stringifyFields (next :: fields) ++ 0x7D :: rest)) (by simp only; omega)
      (endsNumber_of_mem (by decide) _)
    have hrest := ih (List.cons_ne_nil _ _) (fun field hf ↦ h field (List.mem_cons_of_mem _ hf)) fuel (by omega)
    rw [stringifyFields, hcolon, hcomma, List.append_assoc, List.append_assoc, List.append_assoc,
      List.append_assoc, List.singleton_append, List.singleton_append, readFields, hname, Option.bind_some,
      readString_quoteUnits, Option.bind_some, expect_cons rfl, Option.bind_some, hread, Option.bind_some,
      skipSpace_cons rfl]
    simp only
    rw [if_pos (by decide), hrest]
    rfl

theorem readsBack_array {items : List Json} (hvalid : ∀ item ∈ items, item.Valid)
    (h : ∀ item ∈ items, ReadsBack item) : ReadsBack (.array items) := by
  intro fuel rest hfuel _
  have hopen : js "[" = [0x5B] := by decide
  have hclose : js "]" = [0x5D] := by decide
  rw [Json.stringify, hopen, hclose, List.length_append, List.length_append, List.length_singleton,
    List.length_singleton] at hfuel
  rw [Json.stringify, hopen, hclose, List.append_assoc, List.append_assoc, List.singleton_append,
    List.singleton_append, readValue, skipSpace_cons rfl]
  simp only
  rw [if_neg (by decide), if_pos (by decide)]
  obtain rfl | hne := eq_or_ne items []
  · rw [stringifyItems, List.nil_append, expect_cons rfl]
  · have hnone : expect 0x5D (stringifyItems items ++ 0x5D :: rest) = none := by
      obtain ⟨item, items, rfl⟩ := List.exists_cons_of_ne_nil hne
      obtain ⟨u, tail, htext, hspace, hbracket⟩ := (hvalid item List.mem_cons_self).head
      obtain ⟨after, hafter⟩ := stringifyItems_cons item items
      rw [hafter, htext, List.cons_append, List.cons_append]
      exact expect_of_ne hspace hbracket _
    obtain ⟨fuel, rfl⟩ : ∃ f, fuel = f + 1 := ⟨fuel - 1, by omega⟩
    have hitems := readItems_stringify hne h fuel rest (by omega) fun item hitem ↦ by
      obtain ⟨u, tail, htext, _⟩ := (hvalid item hitem).head
      rw [htext]
      exact List.cons_ne_nil u tail
    rw [hnone, hitems]
    rfl

theorem readsBack_object {fields : List (JsString × Json)} (hnodup : (fields.map Prod.fst).Nodup)
    (hordered : fields.Pairwise (Before Prod.fst)) (h : ∀ field ∈ fields, ReadsBack field.2) :
    ReadsBack (.object fields) := by
  intro fuel rest hfuel _
  have hopen : js "\x7b" = [0x7B] := by decide
  have hclose : js "\x7d" = [0x7D] := by decide
  rw [Json.stringify, hopen, hclose, List.length_append, List.length_append, List.length_singleton,
    List.length_singleton] at hfuel
  rw [Json.stringify, hopen, hclose, List.append_assoc, List.append_assoc, List.singleton_append,
    List.singleton_append, readValue, skipSpace_cons rfl]
  simp only
  rw [if_neg (by decide), if_neg (by decide), if_pos (by decide)]
  obtain rfl | hne := eq_or_ne fields []
  · rw [stringifyFields, List.nil_append, expect_cons rfl]
  · have hnone : expect 0x7D (stringifyFields fields ++ 0x7D :: rest) = none := by
      obtain ⟨⟨name, value⟩, fields, rfl⟩ := List.exists_cons_of_ne_nil hne
      obtain ⟨after, hafter⟩ := stringifyFields_cons name value fields
      rw [hafter, quote, List.append_assoc, List.append_assoc, List.append_assoc, List.singleton_append]
      exact expect_of_ne rfl (by decide) _
    obtain ⟨fuel, rfl⟩ : ∃ f, fuel = f + 1 := ⟨fuel - 1, by omega⟩
    rw [hnone, readFields_stringify hne h fuel rest (by omega), Option.map_some, objectOf_fields hnodup hordered]

theorem Json.Valid.readsBack {v : Json} (h : v.Valid) : ReadsBack v := by
  induction h with
  | null => exact readsBack_word (Or.inl rfl)
  | bool value => exact readsBack_word (Or.inr ⟨value, rfl⟩)
  | number h => exact readsBack_number h
  | string value => exact readsBack_string value
  | array h ih => exact readsBack_array h ih
  | object hnodup hordered _ ih => exact readsBack_object hnodup hordered ih

/-- What is written for a value is parsed as this value. -/
theorem Json.parse_stringify {v : Json} (h : v.Valid) : Json.parse v.stringify = some v := by
  have hread := h.readsBack (2 * v.stringify.length + 1) [] (by omega) (fun u hu ↦ by cases hu)
  rw [List.append_nil] at hread
  rw [parse, hread]
  rfl

/-- A text stands for one value. -/
theorem Json.stringify_injective {v w : Json} (hv : v.Valid) (hw : w.Valid) (h : v.stringify = w.stringify) :
    v = w := by
  have hparse := congrArg Json.parse h
  rw [parse_stringify hv, parse_stringify hw] at hparse
  exact Option.some.inj hparse

end MidnightReferendum.Js
