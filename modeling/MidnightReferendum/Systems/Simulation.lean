import Mathlib.Data.List.Induction

/-!
# Two machines that answer alike

A machine answers every input and goes to a new state. Two machines answer alike in a run if a relation
between their states is kept by every step that meets a condition, and related states answer alike.
-/

namespace MidnightReferendum.Simulation

variable {ι σ τ : Type*} {A B : ι → Type*}

/-- The state after a list of inputs. -/
def finalState (f : σ → (i : ι) → A i × σ) (s : σ) (is : List ι) : σ := is.foldl (fun s i ↦ (f s i).2) s

@[simp]
theorem finalState_nil (f : σ → (i : ι) → A i × σ) (s : σ) : finalState f s [] = s := rfl

theorem finalState_concat (f : σ → (i : ι) → A i × σ) (s : σ) (is : List ι) (i : ι) :
    finalState f s (is ++ [i]) = (f (finalState f s is) i).2 := by
  simp [finalState]

/-- Two machines answer every input of a run alike. -/
def Alike (same : (i : ι) → A i → B i → Prop) (f : σ → (i : ι) → A i × σ)
    (g : τ → (i : ι) → B i × τ) (s : σ) (t : τ) (is : List ι) : Prop :=
  ∀ pre i post, is = pre ++ i :: post → same i (f (finalState f s pre) i).1 (g (finalState g t pre) i).1

/-- Every input of a run meets a condition in the state in which it arrives. -/
def Meets (P : σ → ι → Prop) (f : σ → (i : ι) → A i × σ) (s : σ) (is : List ι) : Prop :=
  ∀ pre i post, is = pre ++ i :: post → P (finalState f s pre) i

theorem Meets.of_concat {P : σ → ι → Prop} {f : σ → (i : ι) → A i × σ} {s : σ} {is : List ι} {i : ι}
    (h : Meets P f s (is ++ [i])) : Meets P f s is := by
  intro pre j post hsplit
  refine h pre j (post ++ [i]) ?_
  rw [hsplit, List.append_assoc, List.cons_append]

@[simp]
theorem meets_nil {P : σ → ι → Prop} {f : σ → (i : ι) → A i × σ} {s : σ} : Meets P f s [] := by
  intro pre i post hsplit
  simp at hsplit

theorem meets_cons {P : σ → ι → Prop} {f : σ → (i : ι) → A i × σ} {s : σ} {i : ι} {is : List ι} :
    Meets P f s (i :: is) ↔ P s i ∧ Meets P f (f s i).2 is := by
  constructor
  · intro h
    refine ⟨h [] i is rfl, fun pre j post hsplit ↦ ?_⟩
    exact h (i :: pre) j post (congrArg (i :: ·) hsplit)
  · rintro ⟨h, hrest⟩ pre j post hsplit
    cases pre with
    | nil =>
      obtain ⟨rfl, rfl⟩ := List.cons.inj hsplit
      exact h
    | cons k pre =>
      obtain ⟨rfl, htail⟩ := List.cons.inj hsplit
      exact hrest pre j post htail

variable {same : (i : ι) → A i → B i → Prop} {f : σ → (i : ι) → A i × σ} {g : τ → (i : ι) → B i × τ}

/-- **The simulation rule.** -/
theorem simulation {R : σ → τ → Prop} {P : σ → ι → Prop}
    (hstep : ∀ s t i, R s t → P s i → same i (f s i).1 (g t i).1 ∧ R (f s i).2 (g t i).2)
    {s : σ} {t : τ} (h : R s t) (is : List ι) (hP : Meets P f s is) :
    Alike same f g s t is ∧ R (finalState f s is) (finalState g t is) := by
  have hrelated : ∀ is, Meets P f s is → R (finalState f s is) (finalState g t is) := by
    intro is
    induction is using List.reverseRecOn with
    | nil => exact fun _ ↦ h
    | append_singleton is i ih =>
      intro hP
      rw [finalState_concat, finalState_concat]
      exact (hstep _ _ i (ih hP.of_concat) (hP is i [] rfl)).2
  refine ⟨fun pre i post hsplit ↦ ?_, hrelated is hP⟩
  have hpre : Meets P f s pre := by
    intro pre' j post' hsplit'
    refine hP pre' j (post' ++ i :: post) ?_
    rw [hsplit, hsplit', List.append_assoc, List.cons_append]
  exact (hstep _ _ i (hrelated pre hpre) (hP pre i post hsplit)).1

end MidnightReferendum.Simulation
