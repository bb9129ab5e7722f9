import MidnightReferendum.Relayer.Requests

/-!
# The filter of private fields

`assertNoForbiddenKeys` of `v2-service.ts` goes through a request with a stack of values. It visits every object of
the request, and so it refuses a request with a forbidden name. It also fails on an array that is too long to be pushed
in one call.
-/

namespace MidnightReferendum.Relayer.Requests

open Js Worklist

/-! ## Objects in a value -/

/-- A value in a value, at any depth. -/
inductive Inside (a : Json) : Json → Prop
  | self : Inside a a
  | item {items : List Json} {item : Json} (hmem : item ∈ items) (h : Inside a item) : Inside a (.array items)
  | field {fields : List (JsString × Json)} {key : JsString} {child : Json} (hmem : (key, child) ∈ fields)
    (h : Inside a child) : Inside a (.object fields)

/-- Some object in the value has a forbidden name. -/
def HasForbiddenKey (value : Json) : Prop :=
  ∃ fields, Inside (.object fields) value ∧ ∃ entry ∈ fields, asciiLowerCase entry.1 ∈ forbiddenRequestKeys

/-- No array in the value has more items than a call may have arguments. -/
def ArraysFit (argumentLimit : ℕ) (value : Json) : Prop :=
  ∀ items, Inside (.array items) value → items.length ≤ argumentLimit

theorem isForbidden_iff {key : JsString} : isForbidden key = true ↔ asciiLowerCase key ∈ forbiddenRequestKeys :=
  List.contains_iff_mem

theorem visitEntries_spec (fields : List (JsString × Json)) :
    visitEntries fields = .ok ((fields.map Prod.snd).filter isContainer) ∧
        (∀ entry ∈ fields, asciiLowerCase entry.1 ∉ forbiddenRequestKeys) ∨
      visitEntries fields = .error forbiddenError ∧
        ∃ entry ∈ fields, asciiLowerCase entry.1 ∈ forbiddenRequestKeys := by
  induction fields with
  | nil => exact Or.inl ⟨rfl, fun entry h ↦ by cases h⟩
  | cons entry fields ih =>
    obtain ⟨key, child⟩ := entry
    rw [visitEntries]
    by_cases hkey : isForbidden key = true
    · rw [if_pos hkey]
      exact Or.inr ⟨rfl, (key, child), List.mem_cons_self, isForbidden_iff.mp hkey⟩
    · rw [if_neg hkey]
      obtain ⟨hok, hnone⟩ | ⟨herror, entry, hmem, hforbidden⟩ := ih
      · refine Or.inl ⟨?_, List.forall_mem_cons.mpr ⟨fun hmem ↦ hkey (isForbidden_iff.mpr hmem), hnone⟩⟩
        rw [hok, List.map_cons, List.filter_cons]
        rfl
      · rw [herror]
        exact Or.inr ⟨rfl, entry, List.mem_cons_of_mem _ hmem, hforbidden⟩

variable {argumentLimit : ℕ}

/-- A round fails on a forbidden name and on an array that is too long. -/
theorem visitCandidate_eq_error {value : Json} {e : Thrown} (h : visitCandidate argumentLimit value = .error e) :
    (e = forbiddenError ∧
        ∃ fields, value = .object fields ∧ ∃ entry ∈ fields, asciiLowerCase entry.1 ∈ forbiddenRequestKeys) ∨
      ∃ items, value = .array items ∧ argumentLimit < items.length := by
  cases value with
  | object fields =>
    obtain ⟨hok, _⟩ | ⟨herror, hforbidden⟩ := visitEntries_spec fields
    · rw [visitCandidate, hok] at h
      cases h
    · rw [visitCandidate, herror] at h
      exact Or.inl ⟨(Except.error.inj h).symm, fields, rfl, hforbidden⟩
  | array items =>
    rw [visitCandidate] at h
    split at h
    · cases h
    · next hlong => exact Or.inr ⟨items, rfl, not_le.mp hlong⟩
  | _ => cases h

/-- What an object pushes, if none of its names is forbidden. -/
theorem visitCandidate_object {fields : List (JsString × Json)} {pushed : List Json}
    (h : visitCandidate argumentLimit (.object fields) = .ok pushed) :
    pushed = ((fields.map Prod.snd).filter isContainer).reverse ∧
      ∀ entry ∈ fields, asciiLowerCase entry.1 ∉ forbiddenRequestKeys := by
  obtain ⟨hok, hnone⟩ | ⟨herror, _⟩ := visitEntries_spec fields
  · rw [visitCandidate, hok] at h
    exact ⟨(Except.ok.inj h).symm, hnone⟩
  · rw [visitCandidate, herror] at h
    cases h

/-- What an array pushes, if it is not too long. -/
theorem visitCandidate_array {items pushed : List Json} (h : visitCandidate argumentLimit (.array items) = .ok pushed) :
    pushed = items.reverse ∧ items.length ≤ argumentLimit := by
  rw [visitCandidate] at h
  split at h
  · next hshort => exact ⟨(Except.ok.inj h).symm, hshort⟩
  · cases h

/-! ## What the loop reaches -/

theorem Inside.trans {a b c : Json} (hab : Inside a b) (hbc : Inside b c) : Inside a c := by
  induction hbc with
  | self => exact hab
  | item hmem _ ih => exact .item hmem ih
  | field hmem _ ih => exact .field hmem ih

theorem inside_of_pushed {value child : Json} {pushed : List Json} (hvisit : visitCandidate argumentLimit value = .ok pushed)
    (hmem : child ∈ pushed) : Inside child value := by
  cases value with
  | array items =>
    obtain ⟨rfl, _⟩ := visitCandidate_array hvisit
    exact .item (List.mem_reverse.mp hmem) .self
  | object fields =>
    obtain ⟨rfl, _⟩ := visitCandidate_object hvisit
    obtain ⟨hchild, _⟩ := List.mem_filter.mp (List.mem_reverse.mp hmem)
    obtain ⟨⟨key, child⟩, hentry, rfl⟩ := List.mem_map.mp hchild
    exact .field hentry .self
  | _ =>
    obtain rfl := Except.ok.inj hvisit
    cases hmem

theorem inside_of_reach {value c : Json} (h : Reach (visitCandidate argumentLimit) value c) : Inside c value := by
  induction h with
  | refl => exact .self
  | step hvisit hmem _ ih => exact ih.trans (inside_of_pushed hvisit hmem)

theorem isContainer_of_inside {a value : Json} (h : Inside a value) (ha : isContainer a = true) :
    isContainer value = true := by
  cases h with
  | self => exact ha
  | item _ _ => rfl
  | field _ _ => rfl

/-- Every container in a value is reached, unless the loop fails before. -/
theorem reach_of_inside {a value : Json} (h : Inside a value) (ha : isContainer a = true)
    (hok : ∀ c, Reach (visitCandidate argumentLimit) value c → ∃ pushed, visitCandidate argumentLimit c = .ok pushed) :
    Reach (visitCandidate argumentLimit) value a := by
  induction h with
  | self => exact .refl a
  | @item items item hmem hinside ih =>
    obtain ⟨pushed, hvisit⟩ := hok _ (.refl _)
    have hpushed : item ∈ pushed := by
      rw [(visitCandidate_array hvisit).1]
      exact List.mem_reverse.mpr hmem
    exact .step hvisit hpushed (ih fun c hc ↦ hok c (.step hvisit hpushed hc))
  | @field fields key child hmem hinside ih =>
    obtain ⟨pushed, hvisit⟩ := hok _ (.refl _)
    have hpushed : child ∈ pushed := by
      rw [(visitCandidate_object hvisit).1, List.mem_reverse, List.mem_filter]
      exact ⟨List.mem_map.mpr ⟨(key, child), hmem, rfl⟩, isContainer_of_inside hinside ha⟩
    exact .step hvisit hpushed (ih fun c hc ↦ hok c (.step hvisit hpushed hc))

/-! ## The end of the loop -/

theorem nodesOfItems_eq (items : List Json) : nodesOfItems items = (items.map nodes).sum := by
  induction items with
  | nil => rfl
  | cons item items ih => rw [nodesOfItems, List.map_cons, List.sum_cons, ih]

theorem nodesOfFields_eq (fields : List (JsString × Json)) :
    nodesOfFields fields = ((fields.map Prod.snd).map nodes).sum := by
  induction fields with
  | nil => rfl
  | cons entry fields ih => rw [nodesOfFields, List.map_cons, List.map_cons, List.sum_cons, ih]

/-- What a value pushes has fewer values in it than the value. -/
theorem nodes_pushed {value : Json} {pushed : List Json} (h : visitCandidate argumentLimit value = .ok pushed) :
    (pushed.map nodes).sum < nodes value := by
  cases value with
  | array items =>
    obtain ⟨rfl, _⟩ := visitCandidate_array h
    rw [List.map_reverse, List.sum_reverse, nodes, nodesOfItems_eq]
    exact Nat.lt_succ_self _
  | object fields =>
    obtain ⟨rfl, _⟩ := visitCandidate_object h
    have hfilter : (((fields.map Prod.snd).filter isContainer).map nodes).sum ≤ ((fields.map Prod.snd).map nodes).sum :=
      (List.Sublist.map nodes List.filter_sublist).sum_le_sum fun _ _ ↦ Nat.zero_le _
    rw [List.map_reverse, List.sum_reverse, nodes, nodesOfFields_eq]
    exact Nat.lt_succ_of_le hfilter
  | _ =>
    obtain rfl := Except.ok.inj h
    exact Nat.one_pos

theorem nodes_pos (value : Json) : 0 < nodes value := by
  cases value with
  | array items => exact Nat.succ_pos _
  | object fields => exact Nat.succ_pos _
  | _ => exact Nat.one_pos

/-- The loop ends. It does not throw if no name is forbidden and every array fits, and it throws for one of these
reasons only. -/
theorem drain_visitCandidate (argumentLimit : ℕ) (value : Json) {rounds : ℕ} (h : nodes value ≤ rounds) :
    (drain (visitCandidate argumentLimit) rounds [value] = some (.ok ()) ∧ ¬HasForbiddenKey value ∧
        ArraysFit argumentLimit value) ∨
      ∃ e, drain (visitCandidate argumentLimit) rounds [value] = some (.error e) ∧
        (e = forbiddenError ∧ HasForbiddenKey value ∨ ¬ArraysFit argumentLimit value) := by
  have hrounds : (([value] : List Json).map nodes).sum ≤ rounds := by
    rw [List.map_singleton, List.sum_singleton]
    exact h
  obtain ⟨hdrain, hall⟩ | ⟨e, hdrain, c, ⟨a, ha, hreach⟩, hc⟩ :=
    drain_spec nodes_pos (fun _ _ hvisit ↦ nodes_pushed hvisit) hrounds
  · have hok : ∀ c, Reach (visitCandidate argumentLimit) value c →
        ∃ pushed, visitCandidate argumentLimit c = .ok pushed :=
      fun c hc ↦ hall c ⟨value, List.mem_singleton.mpr rfl, hc⟩
    refine Or.inl ⟨hdrain, ?_, fun items hinside ↦ ?_⟩
    · intro hforbidden
      obtain ⟨fields, hinside, entry, hentry, hname⟩ := hforbidden
      obtain ⟨pushed, hvisit⟩ := hok _ (reach_of_inside hinside rfl hok)
      exact (visitCandidate_object hvisit).2 entry hentry hname
    · obtain ⟨pushed, hvisit⟩ := hok _ (reach_of_inside hinside rfl hok)
      exact (visitCandidate_array hvisit).2
  · obtain rfl := List.mem_singleton.mp ha
    refine Or.inr ⟨e, hdrain, ?_⟩
    obtain ⟨rfl, fields, rfl, hforbidden⟩ | ⟨items, rfl, hlong⟩ := visitCandidate_eq_error hc
    · exact Or.inl ⟨rfl, fields, inside_of_reach hreach, hforbidden⟩
    · exact Or.inr fun hfit ↦ absurd (hfit items (inside_of_reach hreach)) (not_le.mpr hlong)

/-- The filter is the loop, however many more rounds it may take. -/
theorem drain_eq_assertNoForbiddenKeys (argumentLimit : ℕ) (value : Json) {rounds : ℕ} (h : nodes value ≤ rounds) :
    drain (visitCandidate argumentLimit) rounds [value] = some (assertNoForbiddenKeys argumentLimit value) := by
  obtain ⟨answer, hanswer⟩ : ∃ answer, drain (visitCandidate argumentLimit) (nodes value) [value] = some answer := by
    obtain ⟨hdrain, _⟩ | ⟨e, hdrain, _⟩ := drain_visitCandidate argumentLimit value (le_refl _)
    · exact ⟨_, hdrain⟩
    · exact ⟨_, hdrain⟩
  rw [assertNoForbiddenKeys, hanswer, Option.getD_some]
  exact drain_of_le hanswer h

/-- The answers of the filter. -/
theorem assertNoForbiddenKeys_cases (argumentLimit : ℕ) (value : Json) :
    (assertNoForbiddenKeys argumentLimit value = .ok () ∧ ¬HasForbiddenKey value ∧ ArraysFit argumentLimit value) ∨
      ∃ e, assertNoForbiddenKeys argumentLimit value = .error e ∧
        (e = forbiddenError ∧ HasForbiddenKey value ∨ ¬ArraysFit argumentLimit value) := by
  have hfilter := drain_eq_assertNoForbiddenKeys argumentLimit value (le_refl _)
  obtain ⟨hdrain, hrest⟩ | ⟨e, hdrain, hrest⟩ := drain_visitCandidate argumentLimit value (le_refl _)
  · exact Or.inl ⟨Option.some.inj (hfilter.symm.trans hdrain), hrest⟩
  · exact Or.inr ⟨e, Option.some.inj (hfilter.symm.trans hdrain), hrest⟩

/-! ## The filter -/

/-- The loop ends, and the filter throws if and only if some object in the value, at any depth, has a name whose lower
case is forbidden. -/
structure Complete (argumentLimit : ℕ) (value : Json) : Prop where
  ends : ∀ rounds, nodes value ≤ rounds →
    drain (visitCandidate argumentLimit) rounds [value] = some (assertNoForbiddenKeys argumentLimit value)
  throws : assertNoForbiddenKeys argumentLimit value ≠ .ok () ↔ HasForbiddenKey value

/-- The filter is complete on a value if and only if every array in it can be pushed in one call or it has a forbidden
name; where every array can be pushed, it throws its own error only. -/
theorem private_fields_refused (argumentLimit : ℕ) (value : Json) :
    (Complete argumentLimit value ↔ ArraysFit argumentLimit value ∨ HasForbiddenKey value) ∧
      (ArraysFit argumentLimit value →
        (assertNoForbiddenKeys argumentLimit value = .error forbiddenError ↔ HasForbiddenKey value) ∧
          (assertNoForbiddenKeys argumentLimit value = .ok () ↔ ¬HasForbiddenKey value)) := by
  have hends : ∀ rounds, nodes value ≤ rounds →
      drain (visitCandidate argumentLimit) rounds [value] = some (assertNoForbiddenKeys argumentLimit value) :=
    fun _ hle ↦ drain_eq_assertNoForbiddenKeys argumentLimit value hle
  obtain ⟨haccepted, hnone, hfit⟩ | ⟨e, hrefused, hreason⟩ := assertNoForbiddenKeys_cases argumentLimit value
  · refine ⟨iff_of_true ⟨hends, ?_⟩ (Or.inl hfit), fun _ ↦ ⟨?_, iff_of_true haccepted hnone⟩⟩
    · exact iff_of_false (not_not.mpr haccepted) hnone
    · rw [haccepted]
      exact iff_of_false (fun h ↦ by cases h) hnone
  · have hthrows : assertNoForbiddenKeys argumentLimit value ≠ .ok () := by
      rw [hrefused]
      exact fun h ↦ by cases h
    refine ⟨⟨fun hcomplete ↦ Or.inr (hcomplete.throws.mp hthrows), fun hcondition ↦ ⟨hends, ?_⟩⟩, fun hfit ↦ ?_⟩
    · apply iff_of_true hthrows
      obtain hfit | hforbidden := hcondition
      · exact (hreason.resolve_right (not_not.mpr hfit)).2
      · exact hforbidden
    · obtain ⟨rfl, hforbidden⟩ := hreason.resolve_right (not_not.mpr hfit)
      exact ⟨iff_of_true hrefused hforbidden, iff_of_false hthrows (not_not.mpr hforbidden)⟩

/-- A body with an array of zeros. -/
def zerosBody (length : ℕ) : Json := .object [(js "a", .array (List.replicate length (.number (.finite 0))))]

theorem not_hasForbiddenKey_zerosBody (length : ℕ) : ¬HasForbiddenKey (zerosBody length) := by
  rintro ⟨fields, hinside, entry, hentry, hforbidden⟩
  cases hinside with
  | self =>
    obtain rfl := List.mem_singleton.mp hentry
    have hname : asciiLowerCase (js "a") ∉ forbiddenRequestKeys := by decide +kernel
    exact hname hforbidden
  | field hmem hinside =>
    obtain heq := List.mem_singleton.mp hmem
    obtain ⟨_, rfl⟩ := Prod.mk.inj heq
    cases hinside with
    | item hmem hinside =>
      obtain rfl := List.eq_of_mem_replicate hmem
      cases hinside

theorem not_arraysFit_zerosBody {argumentLimit length : ℕ} (h : argumentLimit < length) :
    ¬ArraysFit argumentLimit (zerosBody length) := by
  intro hfit
  have hle := hfit _ (.field List.mem_cons_self .self)
  rw [List.length_replicate] at hle
  omega

/-- Where a call has room for 125000 arguments, the filter throws on an array of 130000 zeros, although no name is
forbidden. -/
theorem long_array_refused :
    assertNoForbiddenKeys 125000 (zerosBody 130000) ≠ .ok () ∧ ¬HasForbiddenKey (zerosBody 130000) ∧
      ¬Complete 125000 (zerosBody 130000) := by
  have hnone := not_hasForbiddenKey_zerosBody 130000
  have hthrows : assertNoForbiddenKeys 125000 (zerosBody 130000) ≠ .ok () := by
    obtain ⟨_, _, hfit⟩ | ⟨e, hrefused, _⟩ := assertNoForbiddenKeys_cases 125000 (zerosBody 130000)
    · exact absurd hfit (not_arraysFit_zerosBody (by decide))
    · rw [hrefused]
      exact fun h ↦ by cases h
  exact ⟨hthrows, hnone, fun hcomplete ↦ hnone (hcomplete.throws.mp hthrows)⟩

end MidnightReferendum.Relayer.Requests
