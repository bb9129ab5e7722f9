import MidnightReferendum.Js.JsonText

/-!
# Indented JSON texts

`JSON.stringify(value, null, 2)` writes each item and each field on a line of its own. Such a text is parsed as the value
too, as white space between the tokens is skipped.
-/

namespace MidnightReferendum.Js

/-! ## Writing -/

/-- The end of a line and the indentation of the next one. -/
def newline (depth : ℕ) : JsString := 0x0A :: List.replicate (2 * depth) 0x20

mutual

/-- `JSON.stringify(value, null, 2)`, at an indentation -/
def Json.pretty (depth : ℕ) : Json → JsString
  | .array (item :: items) => 0x5B :: (prettyItems (depth + 1) (item :: items) ++ (newline depth ++ [0x5D]))
  | .object (field :: fields) => 0x7B :: (prettyFields (depth + 1) (field :: fields) ++ (newline depth ++ [0x7D]))
  | .array [] => [0x5B, 0x5D]
  | .object [] => [0x7B, 0x7D]
  | .null => Json.null.stringify
  | .bool value => (Json.bool value).stringify
  | .number value => (Json.number value).stringify
  | .string value => (Json.string value).stringify

def prettyItems (depth : ℕ) : List Json → JsString
  | [] => []
  | [item] => newline depth ++ item.pretty depth
  | item :: next :: rest => newline depth ++ (item.pretty depth ++ 0x2C :: prettyItems depth (next :: rest))

def prettyFields (depth : ℕ) : List (JsString × Json) → JsString
  | [] => []
  | [(name, value)] => newline depth ++ (quote name ++ 0x3A :: 0x20 :: value.pretty depth)
  | (name, value) :: next :: rest =>
    newline depth ++
      (quote name ++ 0x3A :: 0x20 :: (value.pretty depth ++ 0x2C :: prettyFields depth (next :: rest)))

end

/-! ## White space -/

theorem skipSpace_append {space : JsString} (h : ∀ u ∈ space, isJsonSpace u = true) (text : JsString) :
    skipSpace (space ++ text) = skipSpace text := List.dropWhile_append_of_pos h

theorem isJsonSpace_newline {depth : ℕ} : ∀ u ∈ newline depth, isJsonSpace u = true := by
  intro u hu
  obtain rfl | hu := List.mem_cons.mp hu
  · rfl
  · rw [List.eq_of_mem_replicate hu]
    rfl

theorem skipSpace_newline (depth : ℕ) (text : JsString) : skipSpace (newline depth ++ text) = skipSpace text :=
  skipSpace_append isJsonSpace_newline text

theorem expect_newline (u : UInt16) (depth : ℕ) (text : JsString) : expect u (newline depth ++ text) = expect u text := by
  rw [expect, skipSpace_newline, expect]

theorem readValue_newline (fuel depth : ℕ) (text : JsString) :
    readValue (fuel + 1) (newline depth ++ text) = readValue (fuel + 1) text := by
  rw [readValue, skipSpace_newline, readValue]

theorem readValue_space (fuel : ℕ) (text : JsString) : readValue (fuel + 1) (0x20 :: text) = readValue (fuel + 1) text := by
  have hskip : skipSpace (0x20 :: text) = skipSpace text := List.dropWhile_cons_of_pos rfl
  rw [readValue, hskip, readValue]

theorem endsNumber_newline (depth : ℕ) (rest : JsString) : EndsNumber (newline depth ++ rest) := by
  intro u hu
  obtain rfl := Option.some.inj hu
  decide

/-! ## Reading -/

/-- The indented text of the value is read back before any text that does not go on with a number. -/
def PrettyReadsBack (v : Json) : Prop :=
  ∀ depth fuel rest, 2 * (v.pretty depth).length ≤ fuel + 1 → EndsNumber rest →
    readValue (fuel + 1) (v.pretty depth ++ rest) = some (v, rest)

/-- The first unit of a text is that of the text without indentation. -/
theorem Json.Valid.pretty_head {v : Json} (h : v.Valid) (depth : ℕ) :
    ∃ u rest, v.pretty depth = u :: rest ∧ isJsonSpace u = false ∧ u ≠ 0x5D := by
  have hhead := h.head
  cases v with
  | array items => cases items <;> exact ⟨0x5B, _, rfl, rfl, by decide⟩
  | object fields => cases fields <;> exact ⟨0x7B, _, rfl, rfl, by decide⟩
  | _ => exact hhead

theorem Json.Valid.pretty_ne_nil {v : Json} (h : v.Valid) (depth : ℕ) : v.pretty depth ≠ [] := by
  obtain ⟨u, rest, htext, _⟩ := h.pretty_head depth
  rw [htext]
  exact List.cons_ne_nil u rest

theorem prettyItems_cons (depth : ℕ) (item : Json) (items : List Json) :
    ∃ after, prettyItems depth (item :: items) = newline depth ++ (item.pretty depth ++ after) := by
  cases items with
  | nil => exact ⟨[], by rw [prettyItems, List.append_nil]⟩
  | cons next items => exact ⟨_, rfl⟩

theorem prettyFields_cons (depth : ℕ) (name : JsString) (value : Json) (fields : List (JsString × Json)) :
    ∃ after, prettyFields depth ((name, value) :: fields) = newline depth ++ (quote name ++ after) := by
  cases fields with
  | nil => exact ⟨_, rfl⟩
  | cons next fields => exact ⟨_, rfl⟩

theorem readItems_pretty {items : List Json} (hne : items ≠ []) (h : ∀ item ∈ items, PrettyReadsBack item)
    (hpos : ∀ item ∈ items, ∀ depth, item.pretty depth ≠ []) (depth outer fuel : ℕ) (rest : JsString)
    (hfuel : 2 * (prettyItems depth items).length ≤ fuel) :
    readItems (fuel + 1) (prettyItems depth items ++ (newline outer ++ 0x5D :: rest)) = some (items, rest) := by
  induction items generalizing fuel with
  | nil => exact absurd rfl hne
  | cons item items ih =>
  have hlength := List.length_pos_iff.mpr (hpos item List.mem_cons_self depth)
  cases items with
  | nil =>
    rw [prettyItems, List.length_append] at hfuel
    obtain ⟨fuel, rfl⟩ : ∃ f, fuel = f + 1 := ⟨fuel - 1, by omega⟩
    have hread := h item List.mem_cons_self depth fuel (newline outer ++ 0x5D :: rest) (by omega)
      (endsNumber_newline outer _)
    rw [prettyItems, List.append_assoc, readItems, readValue_newline, hread, Option.bind_some, skipSpace_newline,
      skipSpace_cons rfl]
    rfl
  | cons next items =>
    rw [prettyItems, List.length_append, List.length_append, List.length_cons] at hfuel
    obtain ⟨fuel, rfl⟩ : ∃ f, fuel = f + 1 := ⟨fuel - 1, by omega⟩
    have hread := h item List.mem_cons_self depth fuel
      (0x2C :: (prettyItems depth (next :: items) ++ (newline outer ++ 0x5D :: rest))) (by omega)
      (endsNumber_of_mem (by decide) _)
    have hrest := ih (List.cons_ne_nil _ _) (fun v hv ↦ h v (List.mem_cons_of_mem _ hv))
      (fun v hv ↦ hpos v (List.mem_cons_of_mem _ hv)) fuel (by omega)
    rw [prettyItems, List.append_assoc, List.append_assoc, readItems, readValue_newline, List.cons_append, hread,
      Option.bind_some, skipSpace_cons rfl]
    simp only
    rw [if_pos (by decide), hrest]
    rfl

theorem expect_quote (name text : JsString) : expect 0x22 (quote name ++ text) = some (quoteUnits name ++ 0x22 :: text) := by
  rw [quote, List.append_assoc, List.append_assoc, List.singleton_append, expect_cons rfl, List.singleton_append]

theorem readFields_pretty {fields : List (JsString × Json)} (hne : fields ≠ [])
    (h : ∀ field ∈ fields, PrettyReadsBack field.2) (depth outer fuel : ℕ) (rest : JsString)
    (hfuel : 2 * (prettyFields depth fields).length ≤ fuel) :
    readFields (fuel + 1) (prettyFields depth fields ++ (newline outer ++ 0x7D :: rest)) = some (fields, rest) := by
  induction fields generalizing fuel with
  | nil => exact absurd rfl hne
  | cons field fields ih =>
  obtain ⟨name, value⟩ := field
  cases fields with
  | nil =>
    rw [prettyFields, List.length_append, List.length_append, List.length_cons, List.length_cons] at hfuel
    obtain ⟨fuel, rfl⟩ : ∃ f, fuel = f + 1 := ⟨fuel - 1, by omega⟩
    have hread := h (name, value) List.mem_cons_self depth fuel (newline outer ++ 0x7D :: rest) (by simp only; omega)
      (endsNumber_newline outer _)
    rw [prettyFields, List.append_assoc, List.append_assoc, readFields, expect_newline, expect_quote, Option.bind_some,
      readString_quoteUnits, Option.bind_some, List.cons_append, List.cons_append, expect_cons rfl, Option.bind_some,
      readValue_space, hread, Option.bind_some, skipSpace_newline, skipSpace_cons rfl]
    rfl
  | cons next fields =>
    rw [prettyFields, List.length_append, List.length_append, List.length_cons, List.length_cons, List.length_append,
      List.length_cons] at hfuel
    obtain ⟨fuel, rfl⟩ : ∃ f, fuel = f + 1 := ⟨fuel - 1, by omega⟩
    have hread := h (name, value) List.mem_cons_self depth fuel
      (0x2C :: (prettyFields depth (next :: fields) ++ (newline outer ++ 0x7D :: rest))) (by simp only; omega)
      (endsNumber_of_mem (by decide) _)
    have hrest := ih (List.cons_ne_nil _ _) (fun field hf ↦ h field (List.mem_cons_of_mem _ hf)) fuel (by omega)
    rw [prettyFields, List.append_assoc, List.append_assoc, readFields, expect_newline, expect_quote, Option.bind_some,
      readString_quoteUnits, Option.bind_some, List.cons_append, List.cons_append, List.append_assoc, expect_cons rfl,
      Option.bind_some, readValue_space, List.cons_append, hread, Option.bind_some, skipSpace_cons rfl]
    simp only
    rw [if_pos (by decide), hrest]
    rfl

theorem prettyReadsBack_array {items : List Json} (hvalid : ∀ item ∈ items, item.Valid)
    (h : ∀ item ∈ items, PrettyReadsBack item) : PrettyReadsBack (.array items) := by
  intro depth fuel rest hfuel _
  cases items with
  | nil =>
    rw [Json.pretty, List.cons_append, readValue, skipSpace_cons rfl]
    simp only
    rw [if_neg (by decide), if_pos (by decide), List.singleton_append, expect_cons rfl]
  | cons item items =>
    rw [Json.pretty, List.length_cons, List.length_append] at hfuel
    obtain ⟨fuel, rfl⟩ : ∃ f, fuel = f + 1 := ⟨fuel - 1, by omega⟩
    have hitems := readItems_pretty (List.cons_ne_nil item items) h
      (fun item hitem ↦ (hvalid item hitem).pretty_ne_nil) (depth + 1) depth fuel rest (by omega)
    have hnone : expect 0x5D (prettyItems (depth + 1) (item :: items) ++ (newline depth ++ 0x5D :: rest)) = none := by
      obtain ⟨u, tail, htext, hspace, hbracket⟩ := (hvalid item List.mem_cons_self).pretty_head (depth + 1)
      obtain ⟨after, hafter⟩ := prettyItems_cons (depth + 1) item items
      rw [hafter, htext, List.append_assoc, expect_newline, List.cons_append, List.cons_append]
      exact expect_of_ne hspace hbracket _
    rw [Json.pretty, List.cons_append, List.append_assoc, List.append_assoc, List.singleton_append, readValue,
      skipSpace_cons rfl]
    simp only
    rw [if_neg (by decide), if_pos (by decide), hnone, hitems]
    rfl

theorem prettyReadsBack_object {fields : List (JsString × Json)} (hnodup : (fields.map Prod.fst).Nodup)
    (hordered : fields.Pairwise (Before Prod.fst)) (h : ∀ field ∈ fields, PrettyReadsBack field.2) :
    PrettyReadsBack (.object fields) := by
  intro depth fuel rest hfuel _
  cases fields with
  | nil =>
    rw [Json.pretty, List.cons_append, readValue, skipSpace_cons rfl]
    simp only
    rw [if_neg (by decide), if_neg (by decide), if_pos (by decide), List.singleton_append, expect_cons rfl]
  | cons field fields =>
    rw [Json.pretty, List.length_cons, List.length_append] at hfuel
    obtain ⟨fuel, rfl⟩ : ∃ f, fuel = f + 1 := ⟨fuel - 1, by omega⟩
    have hfields := readFields_pretty (List.cons_ne_nil field fields) h (depth + 1) depth fuel rest (by omega)
    have hnone : expect 0x7D (prettyFields (depth + 1) (field :: fields) ++ (newline depth ++ 0x7D :: rest)) = none := by
      obtain ⟨name, value⟩ := field
      obtain ⟨after, hafter⟩ := prettyFields_cons (depth + 1) name value fields
      rw [hafter, quote, List.append_assoc, expect_newline, List.append_assoc, List.append_assoc, List.append_assoc,
        List.singleton_append]
      exact expect_of_ne rfl (by decide) _
    rw [Json.pretty, List.cons_append, List.append_assoc, List.append_assoc, List.singleton_append, readValue,
      skipSpace_cons rfl]
    simp only
    rw [if_neg (by decide), if_neg (by decide), if_pos (by decide), hnone, hfields, Option.map_some,
      objectOf_fields hnodup hordered]

theorem Json.Valid.prettyReadsBack {v : Json} (h : v.Valid) : PrettyReadsBack v := by
  induction h with
  | null => exact fun _ ↦ readsBack_word (Or.inl rfl)
  | bool value => exact fun _ ↦ readsBack_word (Or.inr ⟨value, rfl⟩)
  | number h => exact fun _ ↦ readsBack_number h
  | string value => exact fun _ ↦ readsBack_string value
  | array h ih => exact prettyReadsBack_array h ih
  | object hnodup hordered _ ih => exact prettyReadsBack_object hnodup hordered ih

/-- The indented text of a value, with the end of its last line, is parsed as this value. -/
theorem Json.parse_pretty {v : Json} (h : v.Valid) : Json.parse (v.pretty 0 ++ [0x0A]) = some v := by
  have hread := h.prettyReadsBack 0 (2 * (v.pretty 0 ++ [0x0A]).length + 1) [0x0A]
    (by rw [List.length_append]; omega) (endsNumber_newline 0 [])
  rw [parse, hread]
  rfl

end MidnightReferendum.Js
