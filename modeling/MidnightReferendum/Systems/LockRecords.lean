import MidnightReferendum.Systems.LockSafety

/-!
# What the updates under a lock file leave behind

Every update with an outcome was called. A file records of every update with a result what it records when the
update is made and keeps under the updates that follow, if no recovery takes away a lock file that is in use.
-/

namespace MidnightReferendum.LockFile

variable {Op R C ε : Type*}

theorem mem_results {w : World Op R C ε} {op : Op} {result : R} :
    (op, result) ∈ w.results ↔ (op, .ok result) ∈ w.settled := by
  rw [World.results, List.mem_filterMap]
  constructor
  · intro h
    obtain ⟨⟨op', outcome⟩, hmem, hsome⟩ := h
    cases outcome with
    | error e => cases hsome
    | ok result' =>
      obtain ⟨rfl, rfl⟩ := Prod.mk.inj (Option.some.inj hsome)
      exact hmem
  · exact fun h ↦ ⟨_, h, rfl⟩

/-! ## Updates that were called -/

section Calls

/-- The update that a caller is at. -/
def Phase.op? : Phase Op R C ε → Option Op
  | .idle => none
  | .acquiring op _ _ => some op
  | .creating op _ _ => some op
  | .holding op _ _ => some op

/-- The updates of a world are all of one kind. -/
structure Updates (A : Op → Prop) (w : World Op R C ε) : Prop where
  tail : ∀ {p op}, op ∈ w.tail p → A op
  phase : ∀ {p op}, (w.phase p).op? = some op → A op
  settled : ∀ {op outcome}, (op, outcome) ∈ w.settled → A op

variable {A : Op → Prop} {P : Protocol Op R C ε} {w w' : World Op R C ε} {p : Party}

theorem Updates.move (h : Updates A w) {f : Phase Op R C ε} (hphase : w'.phase = Function.update w.phase p f)
    (htail : w'.tail = w.tail) (hsettled : w'.settled = w.settled)
    (hf : ∀ op, f.op? = some op → A op) : Updates A w' := by
  refine ⟨fun {q op} hmem ↦ h.tail (htail ▸ hmem), fun {q op} hop ↦ ?_,
    fun {op outcome} hmem ↦ h.settled (hsettled ▸ hmem)⟩
  rw [hphase] at hop
  by_cases hq : q = p
  · rw [hq, Function.update_self] at hop
    exact hf op hop
  · rw [Function.update_of_ne hq] at hop
    exact h.phase hop

/-- A caller stays at its update. -/
theorem Updates.stay (h : Updates A w) {f : Phase Op R C ε} (hphase : w'.phase = Function.update w.phase p f)
    (htail : w'.tail = w.tail) (hsettled : w'.settled = w.settled)
    (hf : f.op? = (w.phase p).op?) : Updates A w' :=
  h.move hphase htail hsettled fun _ hop ↦ h.phase (hf ▸ hop)

theorem Updates.settle (h : Updates A w) {op : Op} {outcome : Except (Failure ε) R}
    (hop : (w.phase p).op? = some op) (hphase : w'.phase = Function.update w.phase p .idle)
    (htail : w'.tail = w.tail) (hsettled : w'.settled = w.settled ++ [(op, outcome)]) : Updates A w' := by
  have hidle : Updates A { w' with settled := w.settled } := by
    apply h.move (p := p) (f := .idle)
    · exact hphase
    · exact htail
    · rfl
    · intro op hnone
      cases hnone
  refine ⟨hidle.tail, hidle.phase, fun {op' outcome'} hmem ↦ ?_⟩
  rw [hsettled] at hmem
  cases List.mem_append.mp hmem with
  | inl hold => exact h.settled hold
  | inr hlast =>
    obtain ⟨rfl, rfl⟩ := Prod.mk.inj (List.mem_singleton.mp hlast)
    exact h.phase hop

theorem Updates.advance (h : Updates A w) (hadvance : advance P w p = some w') : Updates A w' := by
  rw [LockFile.advance] at hadvance
  split at hadvance
  · split at hadvance
    · cases hadvance
    · next hidle op rest htail =>
      obtain rfl := Option.some.inj hadvance
      have hhead : A op := h.tail (p := p) (htail ▸ List.mem_cons_self)
      have hrest : Updates A { w with tail := Function.update w.tail p rest } := by
        refine ⟨fun {q op'} hmem ↦ ?_, h.phase, h.settled⟩
        change op' ∈ Function.update w.tail p rest q at hmem
        by_cases hq : q = p
        · rw [hq, Function.update_self] at hmem
          exact h.tail (p := p) (htail ▸ List.mem_cons_of_mem _ hmem)
        · rw [Function.update_of_ne hq] at hmem
          exact h.tail hmem
      exact hrest.move (p := p) rfl rfl rfl fun op' hop' ↦ Option.some.inj hop' ▸ hhead
  · next op deadline a hp =>
    obtain rfl := Option.some.inj hadvance
    cases a <;> simp only [attempt] <;> repeat' split
    all_goals first
      | exact h.stay (p := p) rfl rfl rfl (by rw [hp]; rfl)
      | exact h.settle (p := p) (by rw [hp]; rfl) rfl rfl rfl
  · next op inode written hp =>
    obtain rfl := Option.some.inj hadvance
    simp only [create]
    repeat' split
    all_goals first
      | exact h.stay (p := p) rfl rfl rfl (by rw [hp]; rfl)
      | exact h.settle (p := p) (by rw [hp]; rfl) rfl rfl rfl
  · next op inode stage hp =>
    cases stage <;> simp only [perform] at hadvance
    all_goals repeat' split at hadvance
    all_goals cases hadvance
    all_goals first
      | exact h.stay (p := p) rfl rfl rfl (by rw [hp]; rfl)
      | exact h.settle (p := p) (by rw [hp]; rfl) rfl rfl rfl

theorem Updates.fault (h : Updates A w) (hfault : fault w p = some w') : Updates A w' := by
  rw [LockFile.fault] at hfault
  split at hfault
  case h_9 op inode stage hp =>
    cases stage <;> obtain rfl := Option.some.inj hfault
    case releasing outcome => exact h.settle (p := p) (by rw [hp]; rfl) rfl rfl rfl
    all_goals exact h.stay (p := p) rfl rfl rfl (by rw [hp]; rfl)
  all_goals cases hfault
  case h_2 op deadline hp | h_8 op inode written hp =>
    exact h.settle (p := p) (by rw [hp]; rfl) rfl rfl rfl
  all_goals next op deadline hp => exact h.stay (p := p) rfl rfl rfl (by rw [hp]; rfl)

theorem Updates.step {e : Event Op} (h : Updates A w) (hcall : ∀ p op, e = .call p op → A op)
    (hstep : step P w e = .ok w') : Updates A w' := by
  cases e with
  | call p op =>
    rw [LockFile.step] at hstep
    split at hstep
    · obtain rfl := Except.ok.inj hstep
      refine ⟨fun {q op'} hmem ↦ ?_, h.phase, h.settled⟩
      change op' ∈ Function.update w.tail p (w.tail p ++ [op]) q at hmem
      by_cases hq : q = p
      · rw [hq, Function.update_self, List.mem_append, List.mem_singleton] at hmem
        cases hmem with
        | inl hold => exact h.tail hold
        | inr hnew => exact hcall p op' (by rw [hnew])
      · rw [Function.update_of_ne hq] at hmem
        exact h.tail hmem
    · cases hstep
  | advance p => exact h.advance (step_some hstep)
  | fail p => exact h.fault (step_some hstep)
  | contend p =>
    have hcontend := step_some hstep
    rw [contend] at hcontend
    split at hcontend
    · next op deadline hp =>
      split at hcontend
      · obtain rfl := Option.some.inj hcontend
        exact h.stay (p := p) rfl rfl rfl (by rw [hp]; rfl)
      · cases hcontend
    · cases hcontend
  | remove p temp =>
    rw [LockFile.step] at hstep
    split at hstep
    · obtain rfl := Except.ok.inj hstep
      exact ⟨h.tail, h.phase, h.settled⟩
    · cases hstep
  | launch pid =>
    rw [LockFile.step] at hstep
    split at hstep
    · cases hstep
    · obtain rfl := Except.ok.inj hstep
      exact ⟨h.tail, h.phase, h.settled⟩
  | crash pid =>
    obtain rfl := Except.ok.inj hstep
    refine ⟨fun {q op} hmem ↦ ?_, fun {q op} hop ↦ ?_, h.settled⟩
    · change op ∈ (if q.pid = pid then [] else w.tail q) at hmem
      split at hmem
      · cases hmem
      · exact h.tail hmem
    · cases crash_phase w pid q with
      | inl hsame => exact h.phase (hsame ▸ hop)
      | inr hidle =>
        rw [hidle] at hop
        cases hop
  | wait ms =>
    obtain rfl := Except.ok.inj hstep
    exact ⟨h.tail, h.phase, h.settled⟩

/-- Every update that has an outcome was called. -/
theorem called_of_settled {lock : Option (Option ℕ × ℕ)} {content : Option C} {es : List (Event Op)}
    {op : Op} {outcome : Except (Failure ε) R}
    (h : (op, outcome) ∈ (after P (start lock content) es).settled) : ∃ p, .call p op ∈ es := by
  have hstart : Updates (fun op ↦ ∃ p, .call p op ∈ es) (start lock content : World Op R C ε) :=
    { tail := nofun, phase := nofun, settled := nofun }
  have hrun := Execution.run_history
    (I := fun _ v ↦ Updates (fun op ↦ ∃ p, .call p op ∈ es) v)
    (P := fun e ↦ e.2 ∈ es) (f := step P)
    (fun _ v e v' hv hmem hstep ↦
      hv.step (fun p op heq ↦ ⟨p, heq ▸ hmem⟩) hstep) hstart es
    fun e he ↦ Execution.snd_mem_of_mem_trace (Execution.mem_accepted_iff.mp he).1
  exact hrun.settled h

end Calls

/-! ## What the file records -/

section Records

variable (P : Protocol Op R C ε) (Q : Op → R → Option C → Prop)

/-- What a caller is about to write comes from what it has read, and the file records the result of a caller
that has written. -/
def Phase.Recorded (file : Option (ℕ × C)) : Phase Op R C ε → Prop
  | .holding op _ (.staging read _ result content) =>
    P.apply op (read.map Prod.snd) = .ok (result, content)
  | .holding op _ (.staged read _ result content) =>
    P.apply op (read.map Prod.snd) = .ok (result, content)
  | .holding op _ (.committed _ result) => Q op result (file.map Prod.snd)
  | .holding op _ (.releasing (.ok result)) => Q op result (file.map Prod.snd)
  | _ => True

/-- The file records every result. -/
structure Recorded (w : World Op R C ε) : Prop where
  phase : ∀ p, (w.phase p).Recorded P Q w.file
  settled : ∀ {op result}, (op, .ok result) ∈ w.settled → Q op result (w.file.map Prod.snd)

variable {P Q} {w w' : World Op R C ε} {p : Party}

theorem Recorded.update (h : Recorded P Q w) {f : Phase Op R C ε}
    (hphase : w'.phase = Function.update w.phase p f) (hfile : w'.file = w.file)
    (hf : f.Recorded P Q w.file)
    (hsettled : ∀ op result, (op, .ok result) ∈ w'.settled →
      (op, .ok result) ∈ w.settled ∨ Q op result (w.file.map Prod.snd)) : Recorded P Q w' := by
  refine ⟨fun q ↦ ?_, fun {op result} hmem ↦ ?_⟩
  · rw [hphase, hfile]
    by_cases hq : q = p
    · rw [hq, Function.update_self]
      exact hf
    · rw [Function.update_of_ne hq]
      exact h.phase q
  · rw [hfile]
    cases hsettled op result hmem with
    | inl hold => exact h.settled hold
    | inr hnew => exact hnew

theorem Recorded.move (h : Recorded P Q w) {f : Phase Op R C ε}
    (hphase : w'.phase = Function.update w.phase p f) (hfile : w'.file = w.file)
    (hsettled : w'.settled = w.settled) (hf : f.Recorded P Q w.file) : Recorded P Q w' := by
  refine h.update hphase hfile hf fun op result hmem ↦ Or.inl ?_
  rwa [hsettled] at hmem

/-- An update ends without a result. -/
theorem Recorded.failed (h : Recorded P Q w) {op : Op} {e : Failure ε}
    (hphase : w'.phase = Function.update w.phase p .idle) (hfile : w'.file = w.file)
    (hsettled : w'.settled = w.settled ++ [(op, .error e)]) : Recorded P Q w' := by
  refine h.update hphase hfile trivial fun op' result hmem ↦ Or.inl ?_
  rw [hsettled, List.mem_append, List.mem_singleton] at hmem
  cases hmem with
  | inl hold => exact hold
  | inr hnew => cases hnew

theorem Recorded.ended (h : Recorded P Q w) (hfile : w'.file = w.file) (hsettled : w'.settled = w.settled)
    (hphase : ∀ q, w'.phase q = w.phase q ∨ w'.phase q = .idle) : Recorded P Q w' := by
  refine ⟨fun q ↦ ?_, fun {op result} hmem ↦ ?_⟩
  · rw [hfile]
    cases hphase q with
    | inl heq =>
      rw [heq]
      exact h.phase q
    | inr hidle =>
      rw [hidle]
      trivial
  · rw [hfile]
    rw [hsettled] at hmem
    exact h.settled hmem

/-- A new content takes the place of the one that it was made from. -/
theorem Recorded.commit (h : Recorded P Q w) {op : Op} {inode temp : ℕ} {result : R} {content : C}
    (hnew : ∀ {op c r c'}, P.apply op c = .ok (r, c') → Q op r (some c'))
    (hkeep : ∀ {op r c op' r' c'}, Q op r c → P.apply op' c = .ok (r', c') → Q op r (some c'))
    (happly : P.apply op (w.file.map Prod.snd) = .ok (result, content))
    (hphase : w'.phase = Function.update w.phase p (.holding op inode (.committed temp result)))
    (hfile : w'.file = some (temp, content)) (hsettled : w'.settled = w.settled) :
    Recorded P Q w' := by
  refine ⟨fun q ↦ ?_, fun {op' result'} hmem ↦ ?_⟩
  · rw [hphase, hfile]
    by_cases hq : q = p
    · rw [hq, Function.update_self]
      exact hnew happly
    · rw [Function.update_of_ne hq]
      have hold := h.phase q
      generalize w.phase q = f at hold
      match f with
      | .idle => trivial
      | .acquiring _ _ _ => trivial
      | .creating _ _ _ => trivial
      | .holding _ _ .listing => trivial
      | .holding _ _ .sweeping => trivial
      | .holding _ _ .loading => trivial
      | .holding _ _ (.loaded _) => trivial
      | .holding _ _ (.staging _ _ _ _) => exact hold
      | .holding _ _ (.staged _ _ _ _) => exact hold
      | .holding _ _ (.committed _ _) => exact hkeep hold happly
      | .holding _ _ (.discarding _) => trivial
      | .holding _ _ (.releasing (.ok _)) => exact hkeep hold happly
      | .holding _ _ (.releasing (.error _)) => trivial
  · rw [hfile]
    rw [hsettled] at hmem
    exact hkeep (h.settled hmem) happly

theorem Recorded.attempt (h : Recorded P Q w) (op : Op) (deadline : ℕ) (a : Attempt) :
    Recorded P Q (attempt P w p op deadline a) := by
  cases a with
  | opening =>
    rw [LockFile.attempt]
    split
    · exact h.move (p := p) rfl rfl rfl trivial
    · exact h.move (p := p) rfl rfl rfl trivial
  | stating =>
    rw [LockFile.attempt]
    split
    · exact h.move (p := p) rfl rfl rfl trivial
    · exact h.move (p := p) rfl rfl rfl trivial
  | reading => exact h.move (p := p) rfl rfl rfl trivial
  | judging owner => exact h.move (p := p) rfl rfl rfl trivial
  | unlinking => exact h.move (p := p) rfl rfl rfl trivial
  | waiting =>
    rw [LockFile.attempt]
    split
    · exact h.failed (p := p) rfl rfl rfl
    · exact h.move (p := p) rfl rfl rfl trivial

theorem Recorded.create (h : Recorded P Q w) (op : Op) (inode : ℕ) (written : Bool) :
    Recorded P Q (create P w p op inode written) := by
  rw [LockFile.create]
  split
  · exact h.move (p := p) rfl rfl rfl trivial
  · split
    · exact h.failed (p := p) rfl rfl rfl
    · refine h.move (p := p) rfl rfl rfl ?_
      split <;> trivial

theorem Recorded.perform (h : Recorded P Q w) (howned : Owned w)
    (hnew : ∀ {op c r c'}, P.apply op c = .ok (r, c') → Q op r (some c'))
    (hkeep : ∀ {op r c op' r' c'}, Q op r c → P.apply op' c = .ok (r', c') → Q op r (some c'))
    {op : Op} {inode : ℕ} {stage : Stage R C ε} (hp : w.phase p = .holding op inode stage)
    (hperform : perform P w p op inode stage = some w') : Recorded P Q w' := by
  have hphase := h.phase p
  rw [hp] at hphase
  cases stage with
  | listing =>
    obtain rfl := Option.some.inj hperform
    exact h.move (p := p) rfl rfl rfl trivial
  | sweeping =>
    rw [LockFile.perform] at hperform
    split at hperform
    · obtain rfl := Option.some.inj hperform
      exact h.move (p := p) rfl rfl rfl trivial
    · cases hperform
  | loading =>
    obtain rfl := Option.some.inj hperform
    exact h.move (p := p) rfl rfl rfl trivial
  | loaded read =>
    rw [LockFile.perform] at hperform
    split at hperform
    · obtain rfl := Option.some.inj hperform
      exact h.move (p := p) rfl rfl rfl trivial
    · next result content happly =>
      obtain rfl := Option.some.inj hperform
      exact h.move (p := p) rfl rfl rfl happly
  | staging read temp result content =>
    obtain rfl := Option.some.inj hperform
    exact h.move (p := p) rfl rfl rfl hphase
  | staged read temp result content =>
    have hread : w.file = read := howned.excludes.replace hp
    have happly : P.apply op (w.file.map Prod.snd) = .ok (result, content) := by
      rw [hread]
      exact hphase
    rw [LockFile.perform] at hperform
    split at hperform
    · obtain rfl := Option.some.inj hperform
      exact h.commit hnew hkeep happly rfl rfl rfl
    · obtain rfl := Option.some.inj hperform
      exact h.move (p := p) rfl rfl rfl trivial
  | committed temp result =>
    obtain rfl := Option.some.inj hperform
    exact h.move (p := p) rfl rfl rfl hphase
  | discarding temp =>
    obtain rfl := Option.some.inj hperform
    exact h.move (p := p) rfl rfl rfl trivial
  | releasing outcome =>
    obtain rfl := Option.some.inj hperform
    refine h.update (p := p) rfl rfl trivial fun op' result hmem ↦ ?_
    cases List.mem_append.mp hmem with
    | inl hold => exact Or.inl hold
    | inr hlast =>
      obtain ⟨rfl, rfl⟩ := Prod.mk.inj (List.mem_singleton.mp hlast)
      exact Or.inr hphase

theorem Recorded.fault (h : Recorded P Q w) (hfault : fault w p = some w') : Recorded P Q w' := by
  rw [LockFile.fault] at hfault
  split at hfault
  case h_9 op inode stage hp =>
    cases stage <;> obtain rfl := Option.some.inj hfault
    case releasing outcome => exact h.failed (p := p) rfl rfl rfl
    all_goals exact h.move (p := p) rfl rfl rfl trivial
  all_goals cases hfault
  case h_2 | h_8 => exact h.failed (p := p) rfl rfl rfl
  all_goals exact h.move (p := p) rfl rfl rfl trivial

theorem Recorded.step {e : Event Op} (h : Recorded P Q w) (howned : Owned w)
    (hnew : ∀ {op c r c'}, P.apply op c = .ok (r, c') → Q op r (some c'))
    (hkeep : ∀ {op r c op' r' c'}, Q op r c → P.apply op' c = .ok (r', c') → Q op r (some c'))
    (hstep : step P w e = .ok w') : Recorded P Q w' := by
  cases e with
  | call p op =>
    rw [LockFile.step] at hstep
    split at hstep
    · obtain rfl := Except.ok.inj hstep
      exact h.ended rfl rfl fun q ↦ Or.inl rfl
    · cases hstep
  | advance p =>
    have hadvance := step_some hstep
    rw [advance] at hadvance
    split at hadvance
    · split at hadvance
      · cases hadvance
      · obtain rfl := Option.some.inj hadvance
        exact h.move (p := p) rfl rfl rfl trivial
    · obtain rfl := Option.some.inj hadvance
      exact h.attempt _ _ _
    · obtain rfl := Option.some.inj hadvance
      exact h.create _ _ _
    · next op inode stage hp => exact h.perform howned hnew hkeep hp hadvance
  | fail p => exact h.fault (step_some hstep)
  | contend p =>
    have hcontend := step_some hstep
    rw [contend] at hcontend
    split at hcontend
    · split at hcontend
      · obtain rfl := Option.some.inj hcontend
        exact h.move (p := p) rfl rfl rfl trivial
      · cases hcontend
    · cases hcontend
  | remove p temp =>
    rw [LockFile.step] at hstep
    split at hstep
    · obtain rfl := Except.ok.inj hstep
      exact h.ended rfl rfl fun q ↦ Or.inl rfl
    · cases hstep
  | launch pid =>
    rw [LockFile.step] at hstep
    split at hstep
    · cases hstep
    · obtain rfl := Except.ok.inj hstep
      exact h.ended rfl rfl fun q ↦ Or.inl rfl
  | crash pid =>
    obtain rfl := Except.ok.inj hstep
    exact h.ended rfl rfl (crash_phase w pid)
  | wait ms =>
    obtain rfl := Except.ok.inj hstep
    exact h.ended rfl rfl fun q ↦ Or.inl rfl

theorem recorded_start (lock : Option (Option ℕ × ℕ)) (content : Option C) :
    Recorded P Q (start lock content : World Op R C ε) where
  phase _ := trivial
  settled hmem := by cases hmem

/-- The record rule: what the file records when an update is made, and keeps under the updates that follow, it
records of every update with a result, if no recovery takes away a lock file that is in use. -/
theorem recorded_after
    (hnew : ∀ {op c r c'}, P.apply op c = .ok (r, c') → Q op r (some c'))
    (hkeep : ∀ {op r c op' r' c'}, Q op r c → P.apply op' c = .ok (r', c') → Q op r (some c'))
    (howned : Owned w) (h : Recorded P Q w) {es : List (Event Op)}
    (hdead : ∀ e ∈ Execution.trace (LockFile.step P) w es, RecoversDead e.1 e.2) :
    Recorded P Q (after P w es) := by
  have haccepted : ∀ e ∈ Execution.accepted (LockFile.step P) w es, RecoversDead e.1 e.2 :=
    fun e he ↦ hdead e (Execution.mem_accepted_iff.mp he).1
  have hboth := Execution.run_history (I := fun _ v ↦ Owned v ∧ Recorded P Q v)
    (P := fun e ↦ RecoversDead e.1 e.2)
    (fun _ v e v' hv hdead hstep ↦
      ⟨hv.1.step hdead hstep, hv.2.step hv.1 hnew hkeep hstep⟩) ⟨howned, h⟩ es haccepted
  exact hboth.2

end Records

end MidnightReferendum.LockFile
