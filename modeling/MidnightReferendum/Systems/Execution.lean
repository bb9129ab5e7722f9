import Mathlib.Data.List.Induction
import Mathlib.Order.Basic

/-!
# Runs of a system whose steps may fail

A step function maps a state and an input either to an error or to the next state. A failed
input leaves the state unchanged, so a run is a fold over its inputs and the accepted inputs form
its history. The rules below lift a fact about one accepted step to every run: for an invariant,
for an invariant that also mentions the history, and for a relation between two states of a run.
-/

namespace MidnightReferendum.Execution

variable {σ ι ε : Type*} (f : σ → ι → Except ε σ)

/-- One submitted input: a failed step keeps the state. -/
def apply (s : σ) (i : ι) : σ :=
  match f s i with
  | .ok s' => s'
  | .error _ => s

/-- The state after a list of submitted inputs. -/
def run (s : σ) (is : List ι) : σ := is.foldl (apply f) s

/-- The accepted inputs of a run in order, each with the state it was accepted in. -/
def accepted : σ → List ι → List (σ × ι)
  | _, [] => []
  | s, i :: is =>
    match f s i with
    | .ok s' => (s, i) :: accepted s' is
    | .error _ => accepted s is

/-- All inputs of a run in order, each with the state it was submitted in. -/
def trace : σ → List ι → List (σ × ι)
  | _, [] => []
  | s, i :: is => (s, i) :: trace (apply f s i) is

variable {f}

theorem apply_of_ok {s s' : σ} {i : ι} (h : f s i = .ok s') : apply f s i = s' := by
  simp only [apply, h]

theorem apply_of_error {s : σ} {i : ι} {e : ε} (h : f s i = .error e) : apply f s i = s := by
  simp only [apply, h]

@[simp]
theorem run_nil (s : σ) : run f s [] = s := rfl

@[simp]
theorem run_cons (s : σ) (i : ι) (is : List ι) :
    run f s (i :: is) = run f (apply f s i) is := rfl

theorem run_append (s : σ) (is js : List ι) : run f s (is ++ js) = run f (run f s is) js := by
  simp only [run, List.foldl_append]

theorem run_concat (s : σ) (is : List ι) (i : ι) :
    run f s (is ++ [i]) = apply f (run f s is) i := by
  rw [run_append, run_cons, run_nil]

@[simp]
theorem accepted_nil (s : σ) : accepted f s [] = [] := rfl

theorem accepted_cons_of_ok {s s' : σ} {i : ι} (h : f s i = .ok s') (is : List ι) :
    accepted f s (i :: is) = (s, i) :: accepted f s' is := by
  simp only [accepted, h]

theorem accepted_cons_of_error {s : σ} {i : ι} {e : ε} (h : f s i = .error e) (is : List ι) :
    accepted f s (i :: is) = accepted f s is := by
  simp only [accepted, h]

theorem accepted_append (s : σ) (is js : List ι) :
    accepted f s (is ++ js) = accepted f s is ++ accepted f (run f s is) js := by
  induction is generalizing s with
  | nil => rfl
  | cons i is ih =>
    cases h : f s i with
    | ok s' =>
      rw [List.cons_append, accepted_cons_of_ok h, accepted_cons_of_ok h, ih, run_cons,
        apply_of_ok h, List.cons_append]
    | error e =>
      rw [List.cons_append, accepted_cons_of_error h, accepted_cons_of_error h, ih, run_cons,
        apply_of_error h]

/-- An input is submitted in the state that the inputs before it reach. -/
theorem mem_trace {s : σ} {is : List ι} {e : σ × ι} :
    e ∈ trace f s is ↔ ∃ pre post, is = pre ++ e.2 :: post ∧ e.1 = run f s pre := by
  induction is generalizing s with
  | nil => simp [trace]
  | cons i is ih =>
    rw [trace, List.mem_cons, ih]
    constructor
    · rintro (rfl | ⟨pre, post, rfl, hstate⟩)
      · exact ⟨[], is, rfl, rfl⟩
      · exact ⟨i :: pre, post, rfl, hstate⟩
    · rintro ⟨pre, post, hsplit, hstate⟩
      cases pre with
      | nil =>
        obtain ⟨rfl, rfl⟩ := List.cons.inj hsplit
        exact Or.inl (Prod.ext hstate rfl)
      | cons j pre =>
        obtain ⟨rfl, rfl⟩ := List.cons.inj hsplit
        exact Or.inr ⟨pre, post, rfl, hstate⟩

theorem trace_append (s : σ) (is js : List ι) :
    trace f s (is ++ js) = trace f s is ++ trace f (run f s is) js := by
  induction is generalizing s with
  | nil => rfl
  | cons i is ih => rw [List.cons_append, trace, trace, ih, run_cons, List.cons_append]

theorem trace_concat (s : σ) (is : List ι) (i : ι) :
    trace f s (is ++ [i]) = trace f s is ++ [(run f s is, i)] :=
  trace_append s is [i]

theorem mem_trace_append_left {s : σ} {is js : List ι} {e : σ × ι} (h : e ∈ trace f s is) :
    e ∈ trace f s (is ++ js) := by
  rw [trace_append]
  exact List.mem_append_left _ h

theorem mem_trace_append_right {s : σ} {is js : List ι} {e : σ × ι}
    (h : e ∈ trace f (run f s is) js) : e ∈ trace f s (is ++ js) := by
  rw [trace_append]
  exact List.mem_append_right _ h

theorem mem_accepted_iff {s : σ} {is : List ι} {e : σ × ι} :
    e ∈ accepted f s is ↔ e ∈ trace f s is ∧ ∃ s', f e.1 e.2 = .ok s' := by
  induction is generalizing s with
  | nil => simp [trace]
  | cons i is ih =>
    cases h : f s i with
    | ok s' =>
      rw [accepted_cons_of_ok h, trace, apply_of_ok h, List.mem_cons, List.mem_cons, ih]
      constructor
      · rintro (rfl | ⟨hmem, hok⟩)
        · exact ⟨Or.inl rfl, s', h⟩
        · exact ⟨Or.inr hmem, hok⟩
      · rintro ⟨rfl | hmem, hok⟩
        · exact Or.inl rfl
        · exact Or.inr ⟨hmem, hok⟩
    | error err =>
      rw [accepted_cons_of_error h, trace, apply_of_error h, List.mem_cons, ih]
      constructor
      · rintro ⟨hmem, hok⟩
        exact ⟨Or.inr hmem, hok⟩
      · rintro ⟨rfl | hmem, s', hok⟩
        · rw [h] at hok
          cases hok
        · exact ⟨hmem, s', hok⟩

/-- An accepted input is one submitted input of the run, in the state that its prefix reaches. -/
theorem mem_accepted {s : σ} {is : List ι} {e : σ × ι} (h : e ∈ accepted f s is) :
    ∃ pre post s', is = pre ++ e.2 :: post ∧ e.1 = run f s pre ∧ f e.1 e.2 = .ok s' := by
  obtain ⟨htrace, s', hok⟩ := mem_accepted_iff.mp h
  obtain ⟨pre, post, hsplit, hstate⟩ := mem_trace.mp htrace
  exact ⟨pre, post, s', hsplit, hstate, hok⟩

/-- The last input of a run is in its history if its step succeeds. -/
theorem mem_accepted_concat {s : σ} (is : List ι) {i : ι} (h : (f (run f s is) i).isOk = true) :
    (run f s is, i) ∈ accepted f s (is ++ [i]) := by
  rw [accepted_append]
  apply List.mem_append_right
  cases hok : f (run f s is) i with
  | ok s' =>
    rw [accepted_cons_of_ok hok]
    exact List.mem_cons_self
  | error e =>
    rw [hok] at h
    cases h

/-- Two inputs of a run that are accepted, in order. -/
theorem pair_sublist_accepted {s : σ} (pre mid post : List ι) {i j : ι}
    (hi : (f (run f s pre) i).isOk = true) (hj : (f (run f s (pre ++ i :: mid)) j).isOk = true) :
    [(run f s pre, i), (run f s (pre ++ i :: mid), j)].Sublist
      (accepted f s (pre ++ i :: mid ++ j :: post)) := by
  have hfirst : (run f s pre, i) ∈ accepted f s (pre ++ i :: mid) := by
    rw [List.append_cons, accepted_append]
    exact List.mem_append_left _ (mem_accepted_concat pre hi)
  have hsecond : (run f s (pre ++ i :: mid), j) ∈ accepted f (run f s (pre ++ i :: mid)) (j :: post) := by
    cases hok : f (run f s (pre ++ i :: mid)) j with
    | ok s' =>
      rw [accepted_cons_of_ok hok]
      exact List.mem_cons_self
    | error e =>
      rw [hok] at hj
      cases hj
  rw [accepted_append]
  exact (List.singleton_sublist.mpr hfirst).append (List.singleton_sublist.mpr hsecond)

/-- The accepted inputs of a run are some of its inputs, in order. -/
theorem accepted_sublist (s : σ) (is : List ι) : ((accepted f s is).map Prod.snd).Sublist is := by
  induction is generalizing s with
  | nil => exact List.nil_sublist _
  | cons i is ih =>
    cases h : f s i with
    | ok s' =>
      rw [accepted_cons_of_ok h]
      exact (ih s').cons_cons i
    | error e =>
      rw [accepted_cons_of_error h]
      exact (ih s).cons i

theorem snd_mem_of_mem_trace {s : σ} {is : List ι} {e : σ × ι} (h : e ∈ trace f s is) :
    e.2 ∈ is := by
  obtain ⟨pre, post, rfl, _⟩ := mem_trace.mp h
  simp

/-- A property kept by every accepted step holds after every run. -/
theorem run_invariant {I : σ → Prop} (hstep : ∀ s i s', I s → f s i = .ok s' → I s')
    {s : σ} (hs : I s) (is : List ι) : I (run f s is) := by
  induction is generalizing s with
  | nil => exact hs
  | cons i is ih =>
    rw [run_cons]
    cases h : f s i with
    | ok s' => rw [apply_of_ok h]; exact ih (hstep s i s' hs h)
    | error e => rw [apply_of_error h]; exact ih hs

/-- A reflexive and transitive relation that every accepted step obeys relates the ends of a run. -/
theorem run_relation {R : σ → σ → Prop} (hrefl : ∀ s, R s s)
    (htrans : ∀ {a b c}, R a b → R b c → R a c) (hstep : ∀ s i s', f s i = .ok s' → R s s')
    (s : σ) (is : List ι) : R s (run f s is) :=
  run_invariant (I := R s) (fun a i b hab h ↦ htrans hab (hstep a i b h)) (hrefl s) is

/-- The history rule: an invariant of the state and of the inputs accepted so far, where each
accepted input may be assumed to satisfy `P`. -/
theorem run_history {I : List (σ × ι) → σ → Prop} {P : σ × ι → Prop} {s : σ}
    (hstep : ∀ h t i t', I h t → P (t, i) → f t i = .ok t' → I (h ++ [(t, i)]) t')
    (hs : I [] s) (is : List ι) (hP : ∀ e ∈ accepted f s is, P e) :
    I (accepted f s is) (run f s is) := by
  induction is using List.reverseRecOn with
  | nil => exact hs
  | append_singleton is i ih =>
    rw [accepted_append] at hP ⊢
    have hinit := ih fun e he ↦ hP e (List.mem_append_left _ he)
    rw [run_concat]
    cases h : f (run f s is) i with
    | ok s' =>
      rw [accepted_cons_of_ok h] at hP ⊢
      rw [apply_of_ok h]
      exact hstep _ _ _ _ hinit (hP _ (by simp)) h
    | error e =>
      rw [accepted_cons_of_error h, apply_of_error h]
      simpa using hinit

/-- The history rule without a condition on the accepted inputs. -/
theorem run_history_unconditional {I : List (σ × ι) → σ → Prop} {s : σ}
    (hstep : ∀ h t i t', I h t → f t i = .ok t' → I (h ++ [(t, i)]) t')
    (hs : I [] s) (is : List ι) : I (accepted f s is) (run f s is) :=
  run_history (P := fun _ ↦ True) (fun h t i t' hI _ ↦ hstep h t i t' hI) hs is fun _ _ ↦ trivial

/-- The first step rule: where the good states are kept by the steps with `P` and by no others, a run reaches good
states only if and only if each of its accepted inputs has `P`. -/
theorem prefixes_iff_accepted {I G : σ → Prop} {P : σ × ι → Prop} (hgood : ∀ s, I s → G s)
    (hstep : ∀ s i s', I s → P (s, i) → f s i = .ok s' → I s')
    (hbad : ∀ s i s', I s → f s i = .ok s' → G s' → P (s, i)) {s : σ} (hs : I s) (is : List ι) :
    (∀ pre, pre <+: is → G (run f s pre)) ↔ ∀ e ∈ accepted f s is, P e := by
  induction is generalizing s with
  | nil =>
    constructor
    · exact fun _ e he ↦ by cases he
    · intro _ pre hpre
      rw [List.prefix_nil.mp hpre]
      exact hgood s hs
  | cons i is ih =>
    cases h : f s i with
    | ok s' =>
      rw [accepted_cons_of_ok h, List.forall_mem_cons]
      constructor
      · intro hall
        have hnext : G s' := by
          have := hall [i] ⟨is, rfl⟩
          rwa [run_cons, apply_of_ok h] at this
        have hi := hbad s i s' hs h hnext
        refine ⟨hi, (ih (hstep s i s' hs hi h)).mp fun pre hpre ↦ ?_⟩
        have := hall (i :: pre) (List.cons_prefix_cons.mpr ⟨rfl, hpre⟩)
        rwa [run_cons, apply_of_ok h] at this
      · rintro ⟨hi, hrest⟩ pre hpre
        cases pre with
        | nil => exact hgood s hs
        | cons j pre =>
          obtain ⟨rfl, htail⟩ := List.cons_prefix_cons.mp hpre
          rw [run_cons, apply_of_ok h]
          exact (ih (hstep s j s' hs hi h)).mpr hrest pre htail
    | error e =>
      rw [accepted_cons_of_error h]
      constructor
      · intro hall
        refine (ih hs).mp fun pre hpre ↦ ?_
        have := hall (i :: pre) (List.cons_prefix_cons.mpr ⟨rfl, hpre⟩)
        rwa [run_cons, apply_of_error h] at this
      · intro hrest pre hpre
        cases pre with
        | nil => exact hgood s hs
        | cons j pre =>
          obtain ⟨rfl, htail⟩ := List.cons_prefix_cons.mp hpre
          rw [run_cons, apply_of_error h]
          exact (ih hs).mpr hrest pre htail

/-- What a history yields grows with its last entry only. -/
theorem filterMap_concat {α β : Type*} (g : α → Option β) (h : List α) (e : α) :
    (h ++ [e]).filterMap g = h.filterMap g ++ (g e).toList := by
  rw [List.filterMap_append]
  cases he : g e <;> simp [he]

theorem filterMap_concat_of_none {α β : Type*} {g : α → Option β} (h : List α) {e : α}
    (he : g e = none) : (h ++ [e]).filterMap g = h.filterMap g := by
  rw [filterMap_concat, he, Option.toList_none, List.append_nil]

end MidnightReferendum.Execution
