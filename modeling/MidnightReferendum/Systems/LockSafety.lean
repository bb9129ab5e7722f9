import MidnightReferendum.Systems.LockFile

/-!
# When a lock file excludes

A recovery looks at the lock file, at its owner and at the processes in separate steps before it takes the
file away. If what it takes away is never the lock file of a caller that still uses it, then at most one
caller holds the lock, a release removes the lock file of the caller itself, and every new content replaces
the content from which it was made. If it is that of a holder, the next steps lead to two holders.
-/

namespace MidnightReferendum.LockFile

variable {Op R C ε : Type*}

namespace Phase

/-- The lock file that a caller has created and not given up. -/
def inode? : Phase Op R C ε → Option ℕ
  | .creating _ inode _ => some inode
  | .holding _ inode _ => some inode
  | _ => none

def holds : Phase Op R C ε → Bool
  | .holding _ _ _ => true
  | _ => false

/-- What a holder has read and will overwrite. -/
def read? : Phase Op R C ε → Option (Option (ℕ × C))
  | .holding _ _ (.loaded read) => some read
  | .holding _ _ (.staging read _ _ _) => some read
  | .holding _ _ (.staged read _ _ _) => some read
  | _ => none

theorem exists_inode_of_holds {f : Phase Op R C ε} (h : f.holds = true) : ∃ i, f.inode? = some i := by
  cases f with
  | holding op inode stage => exact ⟨inode, rfl⟩
  | idle => cases h
  | acquiring op deadline attempt => cases h
  | creating op inode written => cases h

theorem exists_inode_of_read {f : Phase Op R C ε} {r : Option (ℕ × C)} (h : f.read? = some r) :
    ∃ i, f.inode? = some i := by
  cases f with
  | holding op inode stage => exact ⟨inode, rfl⟩
  | idle => cases h
  | acquiring op deadline attempt => cases h
  | creating op inode written => cases h

end Phase

/-! ## Steps -/

/-- The caller whose next call of the file system is made. -/
def Event.advancing : Event Op → Option Party
  | .advance p => some p
  | _ => none

/-- What a step does to the lock file, to the file and to the phases of the callers. -/
inductive Effect (advancing : Option Party) (w w' : World Op R C ε) : Prop where
  /-- callers at most give up what they have, or read the file -/
  | quiet (lock : w'.lock.map Lock.inode = w.lock.map Lock.inode) (file : w'.file = w.file)
      (inode : ∀ q i, (w'.phase q).inode? = some i → (w.phase q).inode? = some i)
      (read : ∀ q r, (w'.phase q).read? = some r → (w.phase q).read? = some r ∨ r = w.file)
  | opened (p : Party) (i : ℕ) (free : w.lock = none) (lock : w'.lock.map Lock.inode = some i)
      (file : w'.file = w.file) (f : Phase Op R C ε) (inode : f.inode? = some i) (read : f.read? = none)
      (phase : w'.phase = Function.update w.phase p f)
  | unlinked (p : Party) (op : Op) (deadline : ℕ) (mine : advancing = some p)
      (unlinking : w.phase p = .acquiring op deadline .unlinking)
      (result : w' = { w with lock := none }.move p (.acquiring op deadline .opening))
  | released (p : Party) (i : ℕ) (held : (w.phase p).inode? = some i) (file : w'.file = w.file)
      (phase : w'.phase = Function.update w.phase p .idle)
  | committed (p : Party) (i : ℕ) (held : (w.phase p).inode? = some i)
      (lock : w'.lock = w.lock) (f : Phase Op R C ε) (inode : f.inode? = some i) (read : f.read? = none)
      (phase : w'.phase = Function.update w.phase p f)

section Steps

variable {P : Protocol Op R C ε} {w w' : World Op R C ε} {p : Party} {a : Option Party}

/-- A caller comes to a phase, and the lock file and the file stay. -/
theorem Effect.update {f : Phase Op R C ε} (hphase : w'.phase = Function.update w.phase p f)
    (hlock : w'.lock.map Lock.inode = w.lock.map Lock.inode) (hfile : w'.file = w.file)
    (hinode : ∀ i, f.inode? = some i → (w.phase p).inode? = some i)
    (hread : ∀ r, f.read? = some r → (w.phase p).read? = some r ∨ r = w.file) : Effect a w w' := by
  refine .quiet hlock hfile ?_ ?_
  · intro q i hi
    rw [hphase] at hi
    by_cases hq : q = p
    · subst hq
      exact hinode i (by rwa [Function.update_self] at hi)
    · rwa [Function.update_of_ne hq] at hi
  · intro q r hr
    rw [hphase] at hr
    by_cases hq : q = p
    · subst hq
      exact hread r (by rwa [Function.update_self] at hr)
    · rw [Function.update_of_ne hq] at hr
      exact Or.inl hr

/-- A caller without the lock file gets none. -/
theorem Effect.without {f : Phase Op R C ε} (hf : f.inode? = none)
    (hphase : w'.phase = Function.update w.phase p f)
    (hlock : w'.lock.map Lock.inode = w.lock.map Lock.inode) (hfile : w'.file = w.file) :
    Effect a w w' := by
  refine .update hphase hlock hfile (fun i hi ↦ ?_) (fun r hr ↦ ?_)
  · rw [hf] at hi
    cases hi
  · obtain ⟨i, hi⟩ := Phase.exists_inode_of_read hr
    rw [hf] at hi
    cases hi

/-- Nothing but the phases of ended callers changes. -/
theorem Effect.ended (hlock : w'.lock = w.lock) (hfile : w'.file = w.file)
    (hphase : ∀ q, w'.phase q = w.phase q ∨ w'.phase q = .idle) : Effect a w w' := by
  refine .quiet (by rw [hlock]) hfile (fun q i hi ↦ ?_) (fun q r hr ↦ ?_)
  · cases hphase q with
    | inl heq => rwa [heq] at hi
    | inr hidle => rw [hidle] at hi; cases hi
  · cases hphase q with
    | inl heq => rw [heq] at hr; exact Or.inl hr
    | inr hidle => rw [hidle] at hr; cases hr

theorem attempt_effect {op : Op} {deadline : ℕ} {t : Attempt}
    (hp : w.phase p = .acquiring op deadline t) :
    Effect (some p) w (attempt P w p op deadline t) := by
  cases t with
  | opening =>
    rw [attempt]
    split
    · next hfree => exact .opened p w.fresh hfree rfl rfl _ rfl rfl rfl
    · exact .without (p := p) rfl rfl rfl rfl
  | stating =>
    rw [attempt]
    split
    · exact .without (p := p) rfl rfl rfl rfl
    · exact .without (p := p) rfl rfl rfl rfl
  | reading => exact .without (p := p) rfl rfl rfl rfl
  | judging owner => exact .without (p := p) rfl rfl rfl rfl
  | unlinking => exact .unlinked p op deadline rfl hp rfl
  | waiting =>
    rw [attempt]
    split
    · exact .without (p := p) rfl rfl rfl rfl
    · exact .without (p := p) rfl rfl rfl rfl

theorem create_effect {op : Op} {inode : ℕ} {written : Bool}
    (hp : w.phase p = .creating op inode written) : Effect a w (create P w p op inode written) := by
  have hinode : ∀ f : Phase Op R C ε, f.inode? = some inode →
      ∀ i, f.inode? = some i → (w.phase p).inode? = some i := by
    intro f hf i hi
    rw [hp, ← hi, hf]
    rfl
  rw [create]
  split
  · refine .update (p := p) rfl ?_ rfl (hinode _ rfl) (fun r hr ↦ by cases hr)
    change (w.lock.map _).map Lock.inode = _
    rw [Option.map_map]
    congr 1
    funext lock
    simp only [Function.comp_apply]
    split <;> rfl
  · split
    · exact .without (p := p) rfl rfl rfl rfl
    · refine .update (p := p) rfl rfl rfl (hinode _ rfl) (fun r hr ↦ ?_)
      split at hr <;> cases hr

theorem perform_effect {op : Op} {inode : ℕ} {stage : Stage R C ε}
    (hp : w.phase p = .holding op inode stage) (h : perform P w p op inode stage = some w') :
    Effect a w w' := by
  have hheld : (w.phase p).inode? = some inode := by
    rw [hp]
    rfl
  have hinode : ∀ stage' : Stage R C ε, ∀ i,
      (Phase.holding op inode stage').inode? = some i → (w.phase p).inode? = some i := by
    intro stage' i hi
    rw [hheld, ← hi]
    rfl
  cases stage with
  | listing =>
    obtain rfl := Option.some.inj h
    exact .update (p := p) rfl rfl rfl (hinode _) (fun r hr ↦ by cases hr)
  | sweeping =>
    rw [perform] at h
    split at h
    · obtain rfl := Option.some.inj h
      exact .update (p := p) rfl rfl rfl (hinode _) (fun r hr ↦ by cases hr)
    · cases h
  | loading =>
    obtain rfl := Option.some.inj h
    exact .update (p := p) rfl rfl rfl (hinode _) fun r hr ↦ Or.inr (Option.some.inj hr).symm
  | loaded read =>
    rw [perform] at h
    split at h
    · obtain rfl := Option.some.inj h
      exact .update (p := p) rfl rfl rfl (hinode _) (fun r hr ↦ by cases hr)
    · obtain rfl := Option.some.inj h
      refine .update (p := p) rfl rfl rfl (hinode _) fun r hr ↦ Or.inl ?_
      rw [hp, ← hr]
      rfl
  | staging read temp result content =>
    obtain rfl := Option.some.inj h
    refine .update (p := p) rfl rfl rfl (hinode _) fun r hr ↦ Or.inl ?_
    rw [hp, ← hr]
    rfl
  | staged read temp result content =>
    rw [perform] at h
    split at h
    · obtain rfl := Option.some.inj h
      exact .committed p inode hheld rfl _ rfl rfl rfl
    · obtain rfl := Option.some.inj h
      exact .update (p := p) rfl rfl rfl (hinode _) (fun r hr ↦ by cases hr)
  | committed temp result =>
    obtain rfl := Option.some.inj h
    exact .update (p := p) rfl rfl rfl (hinode _) (fun r hr ↦ by cases hr)
  | discarding temp =>
    obtain rfl := Option.some.inj h
    exact .update (p := p) rfl rfl rfl (hinode _) (fun r hr ↦ by cases hr)
  | releasing outcome =>
    obtain rfl := Option.some.inj h
    exact .released p inode hheld rfl rfl

theorem advance_effect (h : advance P w p = some w') : Effect (some p) w w' := by
  rw [advance] at h
  split at h
  · split at h
    · cases h
    · obtain rfl := Option.some.inj h
      exact .without (p := p) rfl rfl rfl rfl
  · next op deadline a hp =>
    obtain rfl := Option.some.inj h
    exact attempt_effect hp
  · next op inode written hp =>
    obtain rfl := Option.some.inj h
    exact create_effect hp
  · next op inode stage hp => exact perform_effect hp h

theorem fault_effect (h : fault w p = some w') : Effect a w w' := by
  rw [fault] at h
  split at h
  case h_9 op inode stage hp =>
    have hinode : ∀ stage' : Stage R C ε, ∀ i,
        (Phase.holding op inode stage').inode? = some i → (w.phase p).inode? = some i := by
      intro stage' i hi
      rw [hp, ← hi]
      rfl
    cases stage <;> obtain rfl := Option.some.inj h
    case releasing outcome => exact .without (p := p) rfl rfl rfl rfl
    all_goals exact .update (p := p) rfl rfl rfl (hinode _) (fun r hr ↦ by cases hr)
  all_goals cases h
  all_goals exact .without (p := p) rfl rfl rfl rfl

theorem contend_effect (h : contend P w p = some w') : Effect a w w' := by
  rw [contend] at h
  split at h
  · split at h
    · obtain rfl := Option.some.inj h
      exact .without (p := p) rfl rfl rfl rfl
    · cases h
  · cases h

/-- A step of a caller is one of a process that runs. -/
theorem step_some {b : Bool} {o : Option (World Op R C ε)}
    (h : (if b then o.elim (.error ()) .ok else .error () : Except Unit _) = .ok w') : o = some w' := by
  cases b with
  | false => cases h
  | true =>
    cases o with
    | none => cases h
    | some v => rw [Except.ok.inj h]

theorem crash_phase (w : World Op R C ε) (pid : ℕ) (q : Party) :
    (crash w pid).phase q = w.phase q ∨ (crash w pid).phase q = .idle := by
  change (if q.pid = pid then Phase.idle else w.phase q) = _ ∨
    (if q.pid = pid then Phase.idle else w.phase q) = _
  split
  · exact Or.inr rfl
  · exact Or.inl rfl

theorem step_effect {e : Event Op} (h : step P w e = .ok w') : Effect e.advancing w w' := by
  cases e with
  | call p op =>
    rw [step] at h
    split at h
    · obtain rfl := Except.ok.inj h
      exact .ended rfl rfl fun q ↦ Or.inl rfl
    · cases h
  | advance p => exact advance_effect (step_some h)
  | fail p => exact fault_effect (step_some h)
  | contend p => exact contend_effect (step_some h)
  | remove p temp =>
    rw [step] at h
    split at h
    · obtain rfl := Except.ok.inj h
      exact .ended rfl rfl fun q ↦ Or.inl rfl
    · cases h
  | launch pid =>
    rw [step] at h
    split at h
    · cases h
    · obtain rfl := Except.ok.inj h
      exact .ended rfl rfl fun q ↦ Or.inl rfl
  | crash pid =>
    obtain rfl := Except.ok.inj h
    exact .ended rfl rfl (crash_phase w pid)
  | wait ms =>
    obtain rfl := Except.ok.inj h
    exact .ended rfl rfl fun q ↦ Or.inl rfl

/-- The phase and the updates that wait are those of before. -/
def Unmoved (w w' : World Op R C ε) (q : Party) : Prop :=
  w'.phase q = w.phase q ∧ w'.tail q = w.tail q

theorem unmoved_of_ne {f : Phase Op R C ε} {q : Party} (hne : q ≠ p)
    (hphase : w'.phase = Function.update w.phase p f)
    (htail : w'.tail q = w.tail q) : Unmoved w w' q := by
  refine ⟨?_, htail⟩
  rw [hphase, Function.update_of_ne hne]

theorem advance_unmoved {q : Party} (hne : q ≠ p) (h : advance P w p = some w') : Unmoved w w' q := by
  rw [advance] at h
  split at h
  · split at h
    · cases h
    · obtain rfl := Option.some.inj h
      exact unmoved_of_ne hne rfl (Function.update_of_ne hne _ _)
  · next op deadline a hp =>
    obtain rfl := Option.some.inj h
    cases a <;> simp only [attempt] <;> repeat' split
    all_goals exact unmoved_of_ne hne rfl rfl
  · next op inode written hp =>
    obtain rfl := Option.some.inj h
    simp only [create]
    repeat' split
    all_goals exact unmoved_of_ne hne rfl rfl
  · next op inode stage hp =>
    cases stage <;> simp only [perform] at h
    all_goals repeat' split at h
    all_goals cases h
    all_goals exact unmoved_of_ne hne rfl rfl

theorem fault_unmoved {q : Party} (hne : q ≠ p) (h : fault w p = some w') : Unmoved w w' q := by
  rw [fault] at h
  repeat' split at h
  all_goals cases h
  all_goals exact unmoved_of_ne hne rfl rfl

theorem contend_unmoved {q : Party} (hne : q ≠ p) (h : contend P w p = some w') :
    Unmoved w w' q := by
  rw [contend] at h
  repeat' split at h
  all_goals cases h
  exact unmoved_of_ne hne rfl rfl

/-- A caller that does nothing and is not called keeps doing nothing. -/
theorem step_idle {e : Event Op} {q : Party} (hidle : w.phase q = .idle) (htail : w.tail q = [])
    (hcall : ∀ op, e ≠ .call q op) (h : step P w e = .ok w') :
    w'.phase q = .idle ∧ w'.tail q = [] := by
  have hkept : Unmoved w w' q → w'.phase q = .idle ∧ w'.tail q = [] :=
    fun hsame ↦ ⟨hsame.1.trans hidle, hsame.2.trans htail⟩
  cases e with
  | call p op =>
    rw [step] at h
    split at h
    · obtain rfl := Except.ok.inj h
      have hne : q ≠ p := fun heq ↦ hcall op (by rw [heq])
      exact hkept ⟨rfl, Function.update_of_ne hne _ _⟩
    · cases h
  | advance p =>
    have hadvance := step_some h
    by_cases hne : q = p
    · subst hne
      simp only [advance, hidle, htail, reduceCtorEq] at hadvance
    · exact hkept (advance_unmoved hne hadvance)
  | fail p =>
    have hfault := step_some h
    by_cases hne : q = p
    · subst hne
      simp only [fault, hidle, reduceCtorEq] at hfault
    · exact hkept (fault_unmoved hne hfault)
  | contend p =>
    have hcontend := step_some h
    by_cases hne : q = p
    · subst hne
      simp only [contend, hidle, reduceCtorEq] at hcontend
    · exact hkept (contend_unmoved hne hcontend)
  | remove p temp =>
    rw [step] at h
    split at h
    · obtain rfl := Except.ok.inj h
      exact ⟨hidle, htail⟩
    · cases h
  | launch pid =>
    rw [step] at h
    split at h
    · cases h
    · obtain rfl := Except.ok.inj h
      exact ⟨hidle, htail⟩
  | crash pid =>
    obtain rfl := Except.ok.inj h
    simp only [crash, hidle, htail, ite_self, and_self]
  | wait ms =>
    obtain rfl := Except.ok.inj h
    exact ⟨hidle, htail⟩

theorem idle_of_not_called {q : Party} (hidle : w.phase q = .idle) (htail : w.tail q = [])
    {es : List (Event Op)} (hcall : ∀ op, .call q op ∉ es) : (after P w es).phase q = .idle := by
  have haccepted : ∀ e ∈ Execution.accepted (step P) w es, ∀ op, e.2 ≠ .call q op := by
    intro e he op heq
    have hmem := Execution.snd_mem_of_mem_trace (Execution.mem_accepted_iff.mp he).1
    exact hcall op (heq ▸ hmem)
  have hrun := Execution.run_history (I := fun _ v ↦ v.phase q = .idle ∧ v.tail q = [])
    (P := fun e ↦ ∀ op, e.2 ≠ .call q op)
    (fun _ v e v' hv hne hstep ↦ step_idle hv.1 hv.2 hne hstep) ⟨hidle, htail⟩ es haccepted
  exact hrun.1

/-! ## Exclusion -/

/-- What a recovery takes away is not the lock file of a caller that still uses it. -/
def RecoversDead (w : World Op R C ε) (e : Event Op) : Prop :=
  ∀ p op deadline, e.advancing = some p → w.phase p = .acquiring op deadline .unlinking →
    ∀ q i, (w.phase q).inode? = some i → w.lock.map Lock.inode ≠ some i

/-- The lock file is that of the one caller that has created it, and the file is what holders have read. -/
structure Owned (w : World Op R C ε) : Prop where
  own : ∀ {p i}, (w.phase p).inode? = some i → w.lock.map Lock.inode = some i
  apart : ∀ {p q i j}, (w.phase p).inode? = some i → (w.phase q).inode? = some j → p = q
  current : ∀ {p r}, (w.phase p).read? = some r → r = w.file

theorem owned_of_idle (h : ∀ p, (w.phase p).inode? = none) : Owned w where
  own {p i} hi := by
    rw [h p] at hi
    cases hi
  apart {p q i j} hi := by
    rw [h p] at hi
    cases hi
  current {p r} hr := by
    obtain ⟨i, hi⟩ := Phase.exists_inode_of_read hr
    rw [h p] at hi
    cases hi

/-- A caller that alone has a lock file. -/
theorem owned_of_alone {f : Phase Op R C ε} {i : ℕ} (hphase : w'.phase = Function.update w.phase p f)
    (hothers : ∀ q, q ≠ p → (w.phase q).inode? = none) (hinode : f.inode? = some i)
    (hlock : w'.lock.map Lock.inode = some i) (hread : f.read? = none) : Owned w' := by
  have halone : ∀ {q j}, (w'.phase q).inode? = some j → q = p ∧ j = i := by
    intro q j hj
    rw [hphase] at hj
    by_cases hq : q = p
    · subst hq
      rw [Function.update_self, hinode] at hj
      exact ⟨rfl, (Option.some.inj hj).symm⟩
    · rw [Function.update_of_ne hq, hothers q hq] at hj
      cases hj
  refine ⟨fun {q j} hj ↦ ?_, fun {q q' j j'} hj hj' ↦ ?_, fun {q r} hr ↦ ?_⟩
  · rw [hlock, (halone hj).2]
  · exact (halone hj).1.trans (halone hj').1.symm
  · obtain ⟨j, hj⟩ := Phase.exists_inode_of_read hr
    obtain ⟨rfl, _⟩ := halone hj
    rw [hphase, Function.update_self, hread] at hr
    cases hr

theorem Owned.effect (h : Owned w) (heffect : Effect a w w')
    (hdead : ∀ p op deadline, a = some p → w.phase p = .acquiring op deadline .unlinking →
      ∀ q i, (w.phase q).inode? = some i → w.lock.map Lock.inode ≠ some i) : Owned w' := by
  cases heffect with
  | quiet hlock hfile hinode hread =>
    refine ⟨fun {p i} hi ↦ ?_, fun {p q i j} hi hj ↦ ?_, fun {p r} hr ↦ ?_⟩
    · rw [hlock]
      exact h.own (hinode p i hi)
    · exact h.apart (hinode p i hi) (hinode q j hj)
    · rw [hfile]
      cases hread p r hr with
      | inl hold => exact h.current hold
      | inr hnew => exact hnew
  | opened p i hfree hlock hfile f hinode hread hphase =>
    refine owned_of_alone hphase (fun q _ ↦ ?_) hinode hlock hread
    cases hq : (w.phase q).inode? with
    | none => rfl
    | some j =>
      have hsome := h.own hq
      rw [hfree] at hsome
      cases hsome
  | unlinked p op deadline hmine hunlinking hresult =>
    have hnone : ∀ q, (w.phase q).inode? = none := by
      intro q
      cases hq : (w.phase q).inode? with
      | none => rfl
      | some i => exact absurd (h.own hq) (hdead p op deadline hmine hunlinking q i hq)
    subst hresult
    refine owned_of_idle fun q ↦ ?_
    change (Function.update w.phase p _ q).inode? = none
    by_cases hq : q = p
    · rw [hq, Function.update_self]
      rfl
    · rw [Function.update_of_ne hq, hnone]
  | released p i hheld hfile hphase =>
    refine owned_of_idle fun q ↦ ?_
    rw [hphase]
    by_cases hq : q = p
    · rw [hq, Function.update_self]
      rfl
    · rw [Function.update_of_ne hq]
      cases hj : (w.phase q).inode? with
      | none => rfl
      | some j => exact absurd (h.apart hj hheld) hq
  | committed p i hheld hlock f hinode hread hphase =>
    refine owned_of_alone hphase (fun q hq ↦ ?_) hinode ?_ hread
    · cases hj : (w.phase q).inode? with
      | none => rfl
      | some j => exact absurd (h.apart hj hheld) hq
    · rw [hlock]
      exact h.own hheld

theorem Owned.step {e : Event Op} (h : Owned w) (hdead : RecoversDead w e)
    (hstep : step P w e = .ok w') : Owned w' :=
  h.effect (step_effect hstep) hdead

theorem owned_start (lock : Option (Option ℕ × ℕ)) (content : Option C) :
    Owned (start lock content : World Op R C ε) :=
  owned_of_idle fun _ ↦ rfl

/-- In a run whose recoveries take away the lock files of nobody, the lock file is always owned. -/
theorem owned_after (h : Owned w) {es : List (Event Op)}
    (hdead : ∀ e ∈ Execution.trace (LockFile.step P) w es, RecoversDead e.1 e.2) :
    Owned (after P w es) := by
  have haccepted : ∀ e ∈ Execution.accepted (LockFile.step P) w es, RecoversDead e.1 e.2 :=
    fun e he ↦ hdead e (Execution.mem_accepted_iff.mp he).1
  exact Execution.run_history (I := fun _ v ↦ Owned v) (P := fun e ↦ RecoversDead e.1 e.2)
    (fun _ v e v' hv hdead hstep ↦ Owned.step hv hdead hstep) h es haccepted

/-- The callers that are called. -/
def Event.calling : Event Op → Option Party
  | .call p _ => some p
  | _ => none

/-- The condition on a step as a check of the callers of a run. -/
def recovers (parties : List Party) (w : World Op R C ε) (e : Event Op) : Bool :=
  e.advancing.all fun p ↦
    match w.phase p with
    | .acquiring _ _ .unlinking => parties.all fun q ↦
        (w.phase q).inode?.isNone || (w.phase q).inode? != w.lock.map Lock.inode
    | _ => true

theorem recoversDead_of_check {parties : List Party} {e : Event Op}
    (hidle : ∀ q ∉ parties, w.phase q = .idle) (h : recovers parties w e = true) : RecoversDead w e := by
  intro p op deadline hadvancing hunlinking q i hi hlock
  by_cases hq : q ∈ parties
  · simp only [recovers, hadvancing, hunlinking, Option.all_some, List.all_eq_true] at h
    simpa [hi, hlock] using h q hq
  · rw [hidle q hq] at hi
    cases hi

/-- The condition on a run from the start, checked step by step. -/
theorem recoversDead_of_run {lock : Option (Option ℕ × ℕ)} {content : Option C} {parties : List Party}
    {es : List (Event Op)}
    (hcalls : (es.all fun e ↦ e.calling.all fun p ↦ p ∈ parties) = true)
    (h : ((Execution.trace (LockFile.step P) (start lock content) es).all fun e ↦
      recovers parties e.1 e.2) = true) :
    ∀ e ∈ Execution.trace (LockFile.step P) (start lock content) es, RecoversDead e.1 e.2 := by
  intro e he
  refine recoversDead_of_check (fun q hq ↦ ?_) (List.all_eq_true.mp h e he)
  obtain ⟨pre, post, rfl, hstate⟩ := Execution.mem_trace.mp he
  rw [hstate]
  refine idle_of_not_called (P := P) rfl rfl fun op hmem ↦ hq ?_
  have hcall := List.all_eq_true.mp hcalls _ (List.mem_append_left _ hmem)
  simpa [Event.calling] using hcall

/-- At most one caller holds the lock, a caller that releases the lock removes its own lock file, and one that
renames its temporary file replaces the file that it has read. -/
structure Excludes (w : World Op R C ε) : Prop where
  one : ∀ {p q}, (w.phase p).holds = true → (w.phase q).holds = true → p = q
  release : ∀ {p op inode outcome}, w.phase p = .holding op inode (.releasing outcome) →
    w.lock.map Lock.inode = some inode
  replace : ∀ {p op inode read temp result content},
    w.phase p = .holding op inode (.staged read temp result content) → w.file = read

theorem Owned.excludes (h : Owned w) : Excludes w where
  one {p q} hp hq := by
    obtain ⟨i, hi⟩ := Phase.exists_inode_of_holds hp
    obtain ⟨j, hj⟩ := Phase.exists_inode_of_holds hq
    exact h.apart hi hj
  release {p op inode outcome} hp := by
    apply h.own (p := p)
    rw [hp]
    rfl
  replace {p op inode read temp result content} hp := by
    have hread : (w.phase p).read? = some read := by
      rw [hp]
      rfl
    exact (h.current hread).symm

/-- Exclusion holds in every state of a run whose recoveries take away the lock files of nobody. -/
theorem excludes_after (h : Owned w) {es : List (Event Op)}
    (hdead : ∀ e ∈ Execution.trace (LockFile.step P) w es, RecoversDead e.1 e.2) :
    (∀ e ∈ Execution.trace (LockFile.step P) w es, Excludes e.1) ∧ Excludes (after P w es) := by
  refine ⟨fun e he ↦ ?_, (owned_after h hdead).excludes⟩
  obtain ⟨pre, post, rfl, hstate⟩ := Execution.mem_trace.mp he
  rw [hstate]
  exact (owned_after h fun e' he' ↦ hdead e' (Execution.mem_trace_append_left he')).excludes

end Steps

/-! ## Two holders -/

section Race

variable {P : Protocol Op R C ε} {w w' : World Op R C ε} {p q : Party}

theorem after_advance (halive : w.isAlive p.pid = true) (hadvance : advance P w p = some w')
    (es : List (Event Op)) : after P w (.advance p :: es) = after P w' es := by
  have hstep : step P w (.advance p) = .ok w' := by
    rw [step, if_pos halive, hadvance]
    rfl
  rw [after, Execution.run_cons, Execution.apply_of_ok hstep]

/-- A caller that has written its lock file holds the lock if there is a file at the path. -/
theorem exists_holds_of_written {op : Op} {i : ℕ} (halive : w.isAlive p.pid = true)
    (hp : w.phase p = .creating op i true) (hlock : w.lock.isSome = true) :
    ∃ es : List (Event Op), (after P w es).lock = w.lock ∧ (after P w es).isAlive = w.isAlive ∧
      ∃ f, f.holds = true ∧ (after P w es).phase = Function.update w.phase p f := by
  have hnone : w.lock.isNone = false := by
    cases h : w.lock with
    | none =>
      rw [h] at hlock
      cases hlock
    | some lock => rfl
  have hadvance : advance P w p =
      some (w.move p (.holding op i (if P.sweeps then .listing else .loading))) := by
    simp only [advance, hp, create, hnone, Bool.and_false, Bool.not_true, Bool.false_eq_true, if_false]
  refine ⟨[.advance p], ?_⟩
  rw [after_advance halive hadvance]
  exact ⟨rfl, rfl, _, rfl, rfl⟩

/-- A caller that has created a lock file comes to hold the lock if there is a file at the path. -/
theorem exists_holds_of_creating {op : Op} {i : ℕ} {written : Bool} (halive : w.isAlive p.pid = true)
    (hp : w.phase p = .creating op i written) (hlock : w.lock.isSome = true) :
    ∃ es : List (Event Op), (after P w es).lock.isSome = true ∧ (after P w es).isAlive = w.isAlive ∧
      ∃ f, f.holds = true ∧ (after P w es).phase = Function.update w.phase p f := by
  cases written with
  | true =>
    obtain ⟨es, hsame, hrest⟩ := exists_holds_of_written (P := P) halive hp hlock
    exact ⟨es, hsame ▸ hlock, hrest⟩
  | false =>
    have hadvance : advance P w p = some (create P w p op i false) := by
      simp only [advance, hp]
    have hphase : (create P w p op i false).phase = Function.update w.phase p (.creating op i true) := rfl
    have hsome : (create P w p op i false).lock.isSome = true :=
      (Option.isSome_map).trans hlock
    obtain ⟨es, hsame, hruns, f, hholds, hf⟩ := exists_holds_of_written (P := P)
      (w := create P w p op i false) (p := p) (i := i) halive
      (by rw [hphase, Function.update_self]) hsome
    refine ⟨.advance p :: es, ?_⟩
    rw [after_advance halive hadvance]
    refine ⟨hsame ▸ hsome, hruns, f, hholds, ?_⟩
    rw [hf, hphase, Function.update_idem]

/-- A recovery that takes away the lock file of a caller that still uses it can be followed by steps of the two
callers after which both hold the lock. -/
theorem exists_two_holders {op : Op} {deadline i : ℕ} (hne : q ≠ p)
    (hp : w.phase p = .acquiring op deadline .unlinking) (hpalive : w.isAlive p.pid = true)
    (hq : (w.phase q).inode? = some i) (hqalive : w.isAlive q.pid = true) :
    ∃ es : List (Event Op), ((after P w (.advance p :: es)).phase p).holds = true ∧
      ((after P w (.advance p :: es)).phase q).holds = true := by
  have hunlink : advance P w p =
      some ({ w with lock := none }.move p (.acquiring op deadline .opening)) := by
    simp only [advance, hp, attempt]
  have hopen : advance P ({ w with lock := none }.move p (.acquiring op deadline .opening)) p =
      some ({ { w with lock := none }.move p (.acquiring op deadline .opening) with
        lock := some ⟨w.fresh, none, w.clock⟩, fresh := w.fresh + 1 }.move p
          (.creating op w.fresh false)) := by
    simp only [advance, World.move, Function.update_self, attempt]
  -- the state in which the recovering caller has created its own lock file
  generalize hv : ({ { w with lock := none }.move p (.acquiring op deadline .opening) with
      lock := some ⟨w.fresh, none, w.clock⟩, fresh := w.fresh + 1 }.move p
        (.creating op w.fresh false) : World Op R C ε) = v at hopen
  have hvphase : v.phase = Function.update w.phase p (.creating op w.fresh false) := by
    rw [← hv]
    exact Function.update_idem _ _ _
  have hvlock : v.lock.isSome = true := by
    rw [← hv]
    rfl
  have hvalive : v.isAlive = w.isAlive := by
    rw [← hv]
    rfl
  have hvp : v.phase p = .creating op w.fresh false := by rw [hvphase, Function.update_self]
  have hvq : v.phase q = w.phase q := by rw [hvphase, Function.update_of_ne hne]
  have hreach : ∀ es, after P w (.advance p :: .advance p :: es) = after P v es := by
    intro es
    rw [after_advance hpalive hunlink]
    exact after_advance (by exact hpalive) hopen es
  -- the other caller comes to hold the lock, and then the recovering one
  obtain ⟨es, hlock, halive, hqholds, hpsame⟩ : ∃ es : List (Event Op),
      (after P v es).lock.isSome = true ∧ (after P v es).isAlive = v.isAlive ∧
        ((after P v es).phase q).holds = true ∧ (after P v es).phase p = v.phase p := by
    cases hphase : w.phase q with
    | idle =>
      rw [hphase] at hq
      cases hq
    | acquiring op' deadline' attempt =>
      rw [hphase] at hq
      cases hq
    | creating op' inode written =>
      obtain ⟨es, hlock, halive, f, hf, hupdate⟩ := exists_holds_of_creating (P := P) (w := v) (p := q)
        (hvalive ▸ hqalive) (hvq.trans hphase) hvlock
      refine ⟨es, hlock, halive, ?_, ?_⟩
      · rw [hupdate, Function.update_self, hf]
      · rw [hupdate, Function.update_of_ne hne.symm]
    | holding op' inode stage =>
      refine ⟨[], hvlock, rfl, ?_, rfl⟩
      rw [after, Execution.run_nil, hvq, hphase]
      rfl
  obtain ⟨es', _, _, f, hf, hupdate⟩ := exists_holds_of_creating (P := P) (w := after P v es) (p := p)
    (by rw [halive, hvalive, hpalive]) (hpsame.trans hvp) hlock
  have hjoin : after P w (.advance p :: .advance p :: (es ++ es')) = after P (after P v es) es' := by
    rw [hreach, after, after, after, Execution.run_append]
  refine ⟨.advance p :: (es ++ es'), ?_, ?_⟩
  · rw [hjoin, hupdate, Function.update_self, hf]
  · rw [hjoin, hupdate, Function.update_of_ne hne, hqholds]

end Race

end MidnightReferendum.LockFile
