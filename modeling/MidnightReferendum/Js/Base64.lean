import MidnightReferendum.Js.Text

/-!
# Base64

The encodings of bytes as text: `btoa` and `atob`, and the base64url of a Node buffer, whose decoder ignores
what it does not need.
-/

namespace MidnightReferendum.Js

/-! ## Groups of six bits -/

/-- The groups of six bits, of which the last is filled with zeros. -/
def sextets : List UInt8 → List ℕ
  | a :: b :: c :: rest =>
    a.toNat / 4 :: (a.toNat % 4 * 16 + b.toNat / 16) :: (b.toNat % 16 * 4 + c.toNat / 64) :: c.toNat % 64 ::
      sextets rest
  | [a, b] => [a.toNat / 4, a.toNat % 4 * 16 + b.toNat / 16, b.toNat % 16 * 4]
  | [a] => [a.toNat / 4, a.toNat % 4 * 16]
  | [] => []

/-- The whole bytes of some groups. What is left is dropped. -/
def bytesOf : List ℕ → List UInt8
  | p :: q :: r :: s :: rest =>
    (p * 4 + q / 16).toUInt8 :: (q % 16 * 16 + r / 4).toUInt8 :: (r % 4 * 64 + s).toUInt8 :: bytesOf rest
  | [p, q, r] => [(p * 4 + q / 16).toUInt8, (q % 16 * 16 + r / 4).toUInt8]
  | [p, q] => [(p * 4 + q / 16).toUInt8]
  | [_] => []
  | [] => []

theorem toUInt8_of_eq {n : ℕ} {a : UInt8} (h : n = a.toNat) : n.toUInt8 = a := by
  rw [h]
  exact UInt8.ofNat_toNat

theorem bytesOf_sextets (bytes : List UInt8) : bytesOf (sextets bytes) = bytes := by
  induction bytes using sextets.induct with
  | case1 a b c rest ih =>
    have hb := b.toNat_lt
    have hc := c.toNat_lt
    rw [sextets, bytesOf, ih, toUInt8_of_eq (a := a) (by omega), toUInt8_of_eq (a := b) (by omega),
      toUInt8_of_eq (a := c) (by omega)]
  | case2 a b =>
    have hb := b.toNat_lt
    rw [sextets, bytesOf, toUInt8_of_eq (a := a) (by omega), toUInt8_of_eq (a := b) (by omega)]
  | case3 a => rw [sextets, bytesOf, toUInt8_of_eq (a := a) (by omega)]
  | case4 => rfl

theorem sextets_lt (bytes : List UInt8) : ∀ n ∈ sextets bytes, n < 64 := by
  induction bytes using sextets.induct with
  | case1 a b c rest ih =>
    have ha := a.toNat_lt
    have hb := b.toNat_lt
    have hc := c.toNat_lt
    simp only [sextets, List.mem_cons, forall_eq_or_imp]
    exact ⟨by omega, by omega, by omega, by omega, ih⟩
  | case2 a b =>
    have ha := a.toNat_lt
    have hb := b.toNat_lt
    simp only [sextets, List.mem_cons, forall_eq_or_imp, List.not_mem_nil, false_imp_iff, implies_true, and_true]
    exact ⟨by omega, by omega, by omega⟩
  | case3 a =>
    have ha := a.toNat_lt
    simp only [sextets, List.mem_cons, forall_eq_or_imp, List.not_mem_nil, false_imp_iff, implies_true, and_true]
    exact ⟨by omega, by omega⟩
  | case4 => exact fun n hn ↦ by cases hn

theorem length_sextets (bytes : List UInt8) : (sextets bytes).length = (4 * bytes.length + 2) / 3 := by
  induction bytes using sextets.induct with
  | case1 a b c rest ih =>
    simp only [sextets, List.length_cons, ih]
    omega
  | case2 => simp [sextets]
  | case3 => simp [sextets]
  | case4 => rfl

/-! ## Characters -/

/-- The character of a group. The last two differ in base64url. -/
def sextetUnit (url : Bool) (n : ℕ) : UInt16 :=
  if n < 26 then (0x41 + n).toUInt16
  else if n < 52 then (0x61 + (n - 26)).toUInt16
  else if n < 62 then (0x30 + (n - 52)).toUInt16
  else if n = 62 then if url then 0x2D else 0x2B
  else if url then 0x5F else 0x2F

/-- The group of a character of either alphabet. -/
def unitSextet? (u : UInt16) : Option ℕ :=
  if 0x41 ≤ u && u ≤ 0x5A then some (u.toNat - 0x41)
  else if 0x61 ≤ u && u ≤ 0x7A then some (u.toNat - 0x61 + 26)
  else if 0x30 ≤ u && u ≤ 0x39 then some (u.toNat - 0x30 + 52)
  else if u == 0x2B || u == 0x2D then some 62
  else if u == 0x2F || u == 0x5F then some 63
  else none

theorem unitSextet?_sextetUnit (url : Bool) {n : ℕ} (h : n < 64) : unitSextet? (sextetUnit url n) = some n := by
  have hall : ∀ url, ∀ n : Fin 64, unitSextet? (sextetUnit url n.val) = some n.val := by decide
  exact hall url ⟨n, h⟩

/-! ## Node buffers -/

/-- `Buffer.from(bytes).toString('base64url')` -/
def base64url (bytes : List UInt8) : JsString := (sextets bytes).map (sextetUnit true)

/-- `Buffer.from(text, 'base64url')`. Characters outside the two alphabets are ignored, and so are the bits that
do not fill a byte. -/
def fromBase64url (text : JsString) : List UInt8 := bytesOf (text.filterMap unitSextet?)

theorem fromBase64url_base64url (bytes : List UInt8) : fromBase64url (base64url bytes) = bytes := by
  have hgroups : ((sextets bytes).map (sextetUnit true)).filterMap unitSextet? = sextets bytes := by
    have hlt := sextets_lt bytes
    generalize sextets bytes = groups at hlt
    induction groups with
    | nil => rfl
    | cons n groups ih =>
      rw [List.map_cons, List.filterMap_cons_some (unitSextet?_sextetUnit true (hlt n List.mem_cons_self)),
        ih fun m hm ↦ hlt m (List.mem_cons_of_mem n hm)]
  rw [fromBase64url, base64url, hgroups, bytesOf_sextets]

theorem length_base64url (bytes : List UInt8) : (base64url bytes).length = (4 * bytes.length + 2) / 3 := by
  rw [base64url, List.length_map, length_sextets]

/-- No character of the encoding is a point. -/
theorem base64url_ne {bytes : List UInt8} {u : UInt16} (h : u ∈ base64url bytes) : u ≠ 0x2E := by
  have hall : ∀ n : Fin 64, sextetUnit true n.val ≠ 0x2E := by decide
  obtain ⟨n, hn, rfl⟩ := List.mem_map.mp h
  exact hall ⟨n, sextets_lt bytes n hn⟩

/-! ## Browsers -/

/-- `btoa` on the text of some bytes, with its padding -/
def btoa (bytes : List UInt8) : JsString :=
  (sextets bytes).map (sextetUnit false) ++ List.replicate ((3 - bytes.length % 3) % 3) 0x3D

/-- The text without up to two padding characters at its end. -/
def stripPadding (text : JsString) : JsString :=
  match text.reverse with
  | [] => []
  | u :: rest =>
    if u == 0x3D then
      match rest with
      | [] => []
      | v :: rest => if v == 0x3D then rest.reverse else (v :: rest).reverse
    else text

def isAsciiSpace (u : UInt16) : Bool := u == 0x09 || u == 0x0A || u == 0x0C || u == 0x0D || u == 0x20

/-- The group of a character of the alphabet with `+` and `/`. -/
def standardSextet? (u : UInt16) : Option ℕ := if u == 0x2D || u == 0x5F then none else unitSextet? u

/-- `atob`, which throws for a text that is not in base64 -/
def atob (text : JsString) : Option (List UInt8) :=
  let data := text.filter fun u ↦ !isAsciiSpace u
  let data := if data.length % 4 = 0 then stripPadding data else data
  if data.length % 4 = 1 then none else (data.mapM standardSextet?).map bytesOf

example : atob (js " aGkg\n4pyT ") = some [0x68, 0x69, 0x20, 0xE2, 0x9C, 0x93] := by decide +kernel

theorem sextetUnit_ne {n : ℕ} (h : n < 64) :
    isAsciiSpace (sextetUnit false n) = false ∧ sextetUnit false n ≠ 0x3D ∧
      standardSextet? (sextetUnit false n) = some n := by
  have hall : ∀ n : Fin 64, isAsciiSpace (sextetUnit false n.val) = false ∧ sextetUnit false n.val ≠ 0x3D ∧
      standardSextet? (sextetUnit false n.val) = some n.val := by
    decide
  exact hall ⟨n, h⟩

theorem stripPadding_append {text : JsString} (h : ∀ u ∈ text, u ≠ 0x3D) {count : ℕ} (hcount : count ≤ 2) :
    stripPadding (text ++ List.replicate count 0x3D) = text := by
  have hlast : ∀ u rest, text.reverse = u :: rest → u ≠ 0x3D := fun u rest heq ↦
    h u (List.mem_reverse.mp (heq ▸ List.mem_cons_self))
  have hback : ∀ u rest, text.reverse = u :: rest → (u :: rest).reverse = text := fun u rest heq ↦ by
    rw [← heq, List.reverse_reverse]
  obtain rfl | rfl | rfl : count = 0 ∨ count = 1 ∨ count = 2 := by omega
  · rw [List.replicate_zero, List.append_nil, stripPadding]
    split
    · next heq => exact (List.reverse_eq_nil_iff.mp heq).symm
    · next u rest heq => rw [if_neg fun hu ↦ hlast u rest heq (beq_iff_eq.mp hu)]
  · rw [List.replicate_one, stripPadding, List.reverse_append, List.reverse_singleton, List.singleton_append]
    simp only
    rw [if_pos (by decide)]
    split
    · next heq => exact (List.reverse_eq_nil_iff.mp heq).symm
    · next u rest heq => rw [if_neg fun hu ↦ hlast u rest heq (beq_iff_eq.mp hu), hback u rest heq]
  · rw [stripPadding, List.reverse_append, List.reverse_replicate]
    exact List.reverse_reverse text

/-- What `btoa` writes for some bytes is read back by `atob`. -/
theorem atob_btoa (bytes : List UInt8) : atob (btoa bytes) = some bytes := by
  have hlt := sextets_lt bytes
  have hlength := length_sextets bytes
  have hspace : (btoa bytes).filter (fun u ↦ !isAsciiSpace u) = btoa bytes := by
    rw [List.filter_eq_self]
    intro u hu
    obtain hu | hu := List.mem_append.mp hu
    · obtain ⟨n, hn, rfl⟩ := List.mem_map.mp hu
      rw [(sextetUnit_ne (hlt n hn)).1]
      rfl
    · rw [List.eq_of_mem_replicate hu]
      rfl
  have hstrip : stripPadding (btoa bytes) = (sextets bytes).map (sextetUnit false) := by
    refine stripPadding_append (fun u hu ↦ ?_) (by omega)
    obtain ⟨n, hn, rfl⟩ := List.mem_map.mp hu
    exact (sextetUnit_ne (hlt n hn)).2.1
  have hmap : ((sextets bytes).map (sextetUnit false)).mapM standardSextet? = some (sextets bytes) := by
    generalize sextets bytes = groups at hlt
    induction groups with
    | nil => rfl
    | cons n groups ih =>
      rw [List.map_cons, List.mapM_cons, (sextetUnit_ne (hlt n List.mem_cons_self)).2.2,
        ih fun m hm ↦ hlt m (List.mem_cons_of_mem n hm)]
      rfl
  have hfour : (btoa bytes).length % 4 = 0 := by
    rw [btoa, List.length_append, List.length_map, List.length_replicate, hlength]
    obtain h | h | h : bytes.length % 3 = 0 ∨ bytes.length % 3 = 1 ∨ bytes.length % 3 = 2 := by omega
    all_goals
      rw [h]
      omega
  have hrest : ((sextets bytes).map (sextetUnit false)).length % 4 ≠ 1 := by
    rw [List.length_map, hlength]
    omega
  unfold atob
  simp only [hspace, if_pos hfour, hstrip, if_neg hrest, hmap, Option.map_some, bytesOf_sextets]

end MidnightReferendum.Js
