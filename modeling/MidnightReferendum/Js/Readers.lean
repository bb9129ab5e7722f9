import MidnightReferendum.Js.Reparsed

/-!
# Reading typed values

A reader gives what a value in memory stands for as a value of some type, and nothing for a value that is not of this
type. What a reader gives, it gives of the value with `null` for its numbers that are none.
-/

namespace MidnightReferendum.Js

/-- A value of the type, or nothing. -/
abbrev Reader (α : Type) := JsValue → Option α

namespace Reader

variable {α β : Type}

def text : Reader JsString
  | .string value => some value
  | _ => none

def bool : Reader Bool
  | .bool value => some value
  | _ => none

/-- No number stands for `NaN`, which is written as `null`. -/
def number : Reader (Option ℚ)
  | .number value => some value
  | .null => some none
  | _ => none

/-- One of a list of names. -/
def named (values : List α) (name : α → String) : Reader α
  | .string text => values.find? fun value ↦ js (name value) = text
  | _ => none

/-- A value or `null` -/
def nullable (read : Reader α) : Reader (Option α)
  | .null => some none
  | v => (read v).map some

/-- A value or `undefined` -/
def optional (read : Reader α) : Reader (Option α)
  | .undefined => some none
  | v => (read v).map some

/-- A value, `null` or `undefined` -/
def nullish (read : Reader α) : Reader (Option α)
  | .undefined => some none
  | v => nullable read v

def list (read : Reader α) : Reader (List α)
  | .array items => items.mapM read
  | _ => none

/-- An object whose fields are all of the type. -/
def record (read : Reader α) : Reader (List (JsString × α))
  | .object fields => fields.mapM fun field ↦ (read field.2).map (Prod.mk field.1)
  | _ => none

def field (name : String) (read : Reader α) : Reader α := fun v ↦ read (v.get (js name))

end Reader

open Reader

variable {α β : Type} {read : Reader α}

/-- What is read is also read of the value with `null` for its numbers that are none. -/
class Keeps (read : Reader α) : Prop where
  keeps : ∀ v a, read v = some a → read v.finite = some a

/-- No number is a value of the type that `NaN` stands for, so that `null` is none either. -/
class RefusesNaN (read : Reader α) : Prop where
  refuses : read (.number none) = none

instance : RefusesNaN text := ⟨rfl⟩

instance (a : α) : Keeps fun _ ↦ (pure a : Option α) := ⟨fun _ _ h ↦ h⟩

instance {next : α → Reader β} [Keeps read] [∀ a, Keeps (next a)] : Keeps fun v ↦ read v >>= fun a ↦ next a v where
  keeps v b hread := by
    obtain ⟨a, ha, hb⟩ := Option.bind_eq_some_iff.mp hread
    exact Option.bind_eq_some_iff.mpr ⟨a, Keeps.keeps v a ha, Keeps.keeps v b hb⟩

instance [Keeps read] (name : String) : Keeps (field name read) where
  keeps v a hread := by
    rw [Reader.field, JsValue.get_finite]
    exact Keeps.keeps _ a hread

instance : Keeps text where
  keeps v a hread := by
    cases v with
    | string value => exact hread
    | _ => cases hread

instance : Keeps bool where
  keeps v a hread := by
    cases v with
    | bool value => exact hread
    | _ => cases hread

instance : Keeps number where
  keeps v a hread := by
    cases v with
    | number value => cases value <;> exact hread
    | null => exact hread
    | _ => cases hread

instance (values : List α) (name : α → String) : Keeps (named values name) where
  keeps v a hread := by
    cases v with
    | string value => exact hread
    | _ => cases hread

theorem keeps_map (hkeeps : Keeps read) {v : JsValue} {a : Option α} (h : (read v).map some = some a) :
    (read v.finite).map some = some a := by
  obtain ⟨b, hb, rfl⟩ := Option.map_eq_some_iff.mp h
  rw [hkeeps.keeps v b hb, Option.map_some]

instance [hkeeps : Keeps read] [hnan : RefusesNaN read] : Keeps (nullable read) where
  keeps v a hread := by
    cases v with
    | null => exact hread
    | number value =>
      cases value with
      | none =>
        rw [nullable, hnan.refuses] at hread
        · cases hread
        · exact JsValue.noConfusion
      | some value => exact hread
    | _ => exact keeps_map hkeeps hread

theorem nullish_of_ne {v : JsValue} (h : v ≠ .undefined) : nullish read v = nullable read v := by
  cases v with
  | undefined => exact absurd rfl h
  | _ => rfl

instance [Keeps read] [RefusesNaN read] : Keeps (nullish read) where
  keeps v a hread := by
    by_cases hv : v = .undefined
    · rw [hv] at hread ⊢
      exact hread
    · rw [nullish_of_ne hv] at hread
      rw [nullish_of_ne (mt JsValue.finite_eq_undefined.mp hv)]
      exact Keeps.keeps v a hread

instance [hkeeps : Keeps read] : Keeps (optional read) where
  keeps v a hread := by
    cases v with
    | undefined => exact hread
    | number value => cases value <;> exact keeps_map hkeeps hread
    | _ => exact keeps_map hkeeps hread

theorem mapM_finite {γ : Type} {f : γ → Option β} {g : γ → γ} (h : ∀ c b, f c = some b → f (g c) = some b)
    {items : List γ} {values : List β} (hread : items.mapM f = some values) : (items.map g).mapM f = some values := by
  induction items generalizing values with
  | nil => exact hread
  | cons item items ih =>
    rw [List.mapM_cons] at hread
    obtain ⟨b, hb, hrest⟩ := Option.bind_eq_some_iff.mp hread
    obtain ⟨bs, hbs, heq⟩ := Option.bind_eq_some_iff.mp hrest
    rw [List.map_cons, List.mapM_cons, h item b hb, ih hbs]
    exact heq

instance [hkeeps : Keeps read] : Keeps (list read) where
  keeps v a hread := by
    cases v with
    | array items =>
      rw [JsValue.finite, JsValue.finiteItems_eq]
      exact mapM_finite hkeeps.keeps hread
    | _ => cases hread

instance [hkeeps : Keeps read] : Keeps (record read) where
  keeps v a hread := by
    cases v with
    | object fields =>
      rw [JsValue.finite, JsValue.finiteFields_eq]
      refine mapM_finite (fun field pair hpair ↦ ?_) hread
      obtain ⟨b, hb, rfl⟩ := Option.map_eq_some_iff.mp hpair
      rw [hkeeps.keeps _ b hb, Option.map_some]
    | _ => cases hread

end MidnightReferendum.Js
