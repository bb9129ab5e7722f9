import MidnightReferendum.Passport.CivicActions
import MidnightReferendum.Systems.FairRuns
import MidnightReferendum.Systems.Tables

/-!
# One vote at a time

The operations of all adapters run one after the other in the order in which they have asked, so each of them
proves with the state that its own join has stored. The calls of one adapter for one referendum share the
operation that is pending there, or are in conflict with it.
-/

namespace MidnightReferendum.Passport.CivicActions

open MidnightReferendum.Compact Execution Js PromiseChain Tables

variable {A M V S : Type} {w w' : World A M V S}

/-- An operation that is about to prove finds the state of its own join. -/
def FrameHeld (provider : PrivateStateProvider (ReferendumV2PrivateState M V S)) : Frame M V S → Prop
  | .castVote privateState => provider.get = some privateState
  | _ => True

/-- What every run keeps. -/
structure Sound (w : World A M V S) : Prop where
  ordered : Ordered w.chain w.stage
  asked : ∀ n, n < w.chain.asked ↔ ∃ o, w.operations n = some o
  pending : ∀ adapter referendumId existing, w.pendingVotes adapter referendumId = some existing →
    ∃ o, w.operations existing.operation = some o ∧ o.adapter = adapter ∧
      o.request = ⟨referendumId, existing.choice, existing.authorizationHandle⟩
  unsettled : ∀ n o, w.operations n = some o → o.progress.stage ≠ .settled →
    (w.pendingVotes o.adapter o.request.referendumId).map PendingVote.operation = some n
  held : ∀ n o contractAddress frame, w.operations n = some o → o.progress = .running contractAddress frame →
    FrameHeld w.provider frame
  proofs : ∀ p ∈ w.proofs, p.proved = some p.joined

/-! ## The steps of one operation -/

section Operation

variable {n : ℕ} {o : Operation A M V S}

theorem stage_of_operation (ho : w.operations n = some o) : w.stage n = o.progress.stage := by
  simp only [World.stage, ho]

theorem stage_setProgress (w : World A M V S) (n : ℕ) (o : Operation A M V S) (progress : Progress M V S) :
    (w.setProgress n o progress).stage = Function.update w.stage n progress.stage := by
  funext k
  by_cases hk : k = n
  · subst hk
    simp only [World.stage, World.setProgress, Function.update_self]
  · simp only [World.stage, World.setProgress, Function.update_of_ne hk]

theorem stage_settle (w : World A M V S) (n : ℕ) (o : Operation A M V S)
    (provider : PrivateStateProvider (ReferendumV2PrivateState M V S)) :
    World.stage { w.settle n o with provider } = Function.update w.stage n .settled :=
  stage_setProgress w n o .settled

/-- An operation goes on when it runs or when it is its turn. Only a running operation changes the provider. -/
theorem Sound.advance (h : Sound w) (ho : w.operations n = some o)
    (hmay : o.progress.stage = .running ∨ o.progress.stage = .waiting ∧ w.chain.Turn w.stage n)
    {progress : Progress M V S}
    {provider : PrivateStateProvider (ReferendumV2PrivateState M V S)}
    (hprovider : o.progress.stage = .running ∨ provider = w.provider)
    (hheld : ∀ contractAddress frame, progress = .running contractAddress frame → FrameHeld provider frame)
    {proofs : List (Proof M V S)} (hproofs : ∀ p ∈ proofs, p.proved = some p.joined) :
    Sound { w.setProgress n o progress with provider, proofs } := by
  have hstage := stage_of_operation ho
  have hnot : o.progress.stage ≠ .settled := by
    intro hsettled
    rcases hmay with hrunning | ⟨hwaiting, _⟩
    · cases hrunning.symm.trans hsettled
    · cases hwaiting.symm.trans hsettled
  have hn : n < w.chain.asked := (h.asked n).mpr ⟨o, ho⟩
  have hstages : World.stage { w.setProgress n o progress with provider, proofs } =
      Function.update w.stage n progress.stage := stage_setProgress w n o progress
  have hsame : ∀ {k o'}, (w.setProgress n o progress).operations k = some o' →
      k = n ∧ o' = { o with progress } ∨ k ≠ n ∧ w.operations k = some o' := update_some_eq_some
  refine ⟨?_, ?_, ?_, ?_, ?_, hproofs⟩
  · rw [hstages]
    apply h.ordered.advance
    · intro k _ hsettled
      have hne : k ≠ n := by
        rintro rfl
        exact hnot (hstage.symm.trans hsettled)
      rw [Function.update_of_ne hne]
      exact hsettled
    · intro k _ hbegun
      by_cases heq : k = n
      · subst heq
        rcases hmay with hrunning | ⟨_, hturn⟩
        · left
          rw [hstage, hrunning]
          exact nofun
        · exact Or.inr hturn
      · rw [Function.update_of_ne heq] at hbegun
        exact Or.inl hbegun
  · intro k
    by_cases heq : k = n
    · subst heq
      exact ⟨fun _ ↦ ⟨_, Function.update_self _ _ _⟩, fun _ ↦ hn⟩
    · have hk : (w.setProgress n o progress).operations k = w.operations k := Function.update_of_ne heq _ _
      simp only [hk]
      exact h.asked k
  · intro adapter referendumId existing hexisting
    obtain ⟨o', ho', hadapter, hrequest⟩ := h.pending adapter referendumId existing hexisting
    by_cases heq : existing.operation = n
    · have hsome : w.operations n = some o' := heq ▸ ho'
      obtain rfl := Option.some.inj (ho.symm.trans hsome)
      exact ⟨{ o with progress }, heq ▸ Function.update_self _ _ _, hadapter, hrequest⟩
    · exact ⟨o', (Function.update_of_ne heq _ _).trans ho', hadapter, hrequest⟩
  · intro k o' ho' hunsettled
    rcases hsame ho' with ⟨rfl, rfl⟩ | ⟨_, hk⟩
    · exact h.unsettled k o ho hnot
    · exact h.unsettled k o' hk hunsettled
  · intro k o' contractAddress frame ho' hframe
    rcases hsame ho' with ⟨rfl, rfl⟩ | ⟨hne, hk⟩
    · exact hheld contractAddress frame hframe
    · rcases hprovider with hrunning | rfl
      · have hother : w.stage k = .running := by
          rw [stage_of_operation hk, hframe]
          rfl
        have hown : w.stage n = .running := hstage.trans hrunning
        exact absurd (h.ordered.running_unique ((h.asked k).mpr ⟨o', hk⟩) hn hother hown) hne
      · exact h.held k o' contractAddress frame hk hframe

theorem Sound.forget (h : Sound w) (hsettled : w.stage n = .settled) :
    Sound { w with chain := w.chain.forget n } where
  ordered := h.ordered.forget hsettled
  asked := h.asked
  pending := h.pending
  unsettled := h.unsettled
  held := h.held
  proofs := h.proofs

theorem Sound.settle (h : Sound w) (ho : w.operations n = some o)
    (hmay : o.progress.stage = .running ∨ o.progress.stage = .waiting ∧ w.chain.Turn w.stage n)
    {provider : PrivateStateProvider (ReferendumV2PrivateState M V S)}
    (hprovider : o.progress.stage = .running ∨ provider = w.provider) :
    Sound { w.settle n o with provider } := by
  have hsettles : Sound { w.setProgress n o .settled with provider, proofs := w.proofs } :=
    h.advance ho hmay hprovider (fun _ _ hframe ↦ by cases hframe) h.proofs
  refine hsettles.forget ?_
  have hstage := congrFun (stage_setProgress w n o .settled) n
  rw [Function.update_self] at hstage
  exact hstage

/-- An operation that is answered waits again, with the state of its join before it proves, or settles. -/
theorem answer_cases {contractAddress : JsString} {frame : Frame M V S} {reply : Reply M V S}
    (hheld : FrameHeld w.provider frame) (hanswer : answer w n o contractAddress frame reply = some w') :
    (∃ frame' provider proofs,
      w' = { w.setProgress n o (.running contractAddress frame') with provider, proofs } ∧
        FrameHeld provider frame' ∧ ∀ p ∈ proofs, p ∈ w.proofs ∨ p.proved = some p.joined) ∨
      ∃ provider, w' = { w.settle n o with provider } := by
  unfold answer at hanswer
  split at hanswer
  · exact Or.inr ⟨w.provider, (Option.some.inj hanswer).symm⟩
  · split at hanswer
    · exact Or.inl ⟨_, w.provider, w.proofs, (Option.some.inj hanswer).symm, trivial, fun _ ↦ Or.inl⟩
    · exact Or.inr ⟨w.provider, (Option.some.inj hanswer).symm⟩
  · exact Or.inl ⟨_, w.provider, w.proofs, (Option.some.inj hanswer).symm, trivial, fun _ ↦ Or.inl⟩
  · exact Or.inr ⟨w.provider, (Option.some.inj hanswer).symm⟩
  · exact Or.inl ⟨_, w.provider, w.proofs, (Option.some.inj hanswer).symm, trivial, fun _ ↦ Or.inl⟩
  · exact Or.inl ⟨_, w.provider, w.proofs, (Option.some.inj hanswer).symm, trivial, fun _ ↦ Or.inl⟩
  · exact Or.inl ⟨_, _, w.proofs, (Option.some.inj hanswer).symm, trivial, fun _ ↦ Or.inl⟩
  · exact Or.inr ⟨_, (Option.some.inj hanswer).symm⟩
  · exact Or.inl ⟨_, _, w.proofs, (Option.some.inj hanswer).symm, get_set _ _, fun _ ↦ Or.inl⟩
  · exact Or.inr ⟨_, (Option.some.inj hanswer).symm⟩
  · refine Or.inl ⟨_, w.provider, _, (Option.some.inj hanswer).symm, trivial, fun p hp ↦ ?_⟩
    rcases List.mem_append.mp hp with hold | hnew
    · exact Or.inl hold
    · obtain rfl := List.mem_singleton.mp hnew
      exact Or.inr hheld
  · exact Or.inr ⟨w.provider, (Option.some.inj hanswer).symm⟩
  · cases hanswer

theorem sound_calls (h : Sound w) (calls : List (A × CastVoteRequest × CallResult)) :
    Sound { w with calls } where
  ordered := h.ordered
  asked := h.asked
  pending := h.pending
  unsettled := h.unsettled
  held := h.held
  proofs := h.proofs

theorem sound_start (provider : PrivateStateProvider (ReferendumV2PrivateState M V S)) :
    Sound (start A M V S provider) where
  ordered := ordered_empty _
  asked n := ⟨fun hn ↦ absurd hn (Nat.not_lt_zero n), fun ⟨_, ho⟩ ↦ by cases ho⟩
  pending adapter referendumId existing hexisting := by cases hexisting
  unsettled n o ho := by cases ho
  held n o contractAddress frame ho := by cases ho
  proofs p hp := by cases hp

/-- The bodies of the operations run one at a time, and each is proved with the state of its own join. -/
structure Apart (w : World A M V S) : Prop where
  alone : ∀ m n, w.stage m = .running → w.stage n = .running → m = n
  own : ∀ p ∈ w.proofs, p.proved = some p.joined

theorem Sound.apart (h : Sound w) : Apart w where
  alone m n hm hn := by
    have hasked : ∀ {k}, w.stage k = .running → k < w.chain.asked := by
      intro k hk
      cases ho : w.operations k with
      | none =>
        simp only [World.stage, ho] at hk
        cases hk
      | some o => exact (h.asked k).mpr ⟨o, ho⟩
    exact h.ordered.running_unique (hasked hm) (hasked hn) hm hn
  own := h.proofs

end Operation

/-! ## The entries of the pending votes -/

section Entries

variable [DecidableEq A] {n : ℕ} {o : Operation A M V S}

theorem update_entry (entries : A → JsString → Option PendingVote) (adapter adapter' : A)
    (referendumId referendumId' : JsString) (entry : Option PendingVote) :
    Function.update entries adapter (Function.update (entries adapter) referendumId entry) adapter' referendumId' =
      if adapter' = adapter ∧ referendumId' = referendumId then entry else entries adapter' referendumId' := by
  by_cases hadapter : adapter' = adapter
  · subst hadapter
    rw [Function.update_self, Function.update_apply]
    simp only [true_and]
  · rw [Function.update_of_ne hadapter, if_neg fun h ↦ hadapter h.1]

/-- A call without a pending vote asks for the lock with a new operation. -/
theorem Sound.ask (h : Sound w) {adapter : A} {request : CastVoteRequest}
    (hnone : w.pendingVotes adapter request.referendumId = none) : Sound (castVote w adapter request) := by
  have hfresh : w.operations w.chain.asked = none := by
    cases ho : w.operations w.chain.asked with
    | none => rfl
    | some o => exact absurd ((h.asked _).mpr ⟨o, ho⟩) (Nat.lt_irrefl _)
  have hne : ∀ {k o}, w.operations k = some o → k ≠ w.chain.asked := by
    rintro k o hk rfl
    cases hfresh.symm.trans hk
  simp only [castVote, hnone]
  refine ⟨?_, ?_, ?_, ?_, ?_, h.proofs⟩
  · apply h.ordered.ask
    · intro k hk
      simp only [World.stage, Function.update_of_ne (Nat.ne_of_lt hk)]
    · simp only [World.stage, Function.update_self]
      rfl
  · intro k
    by_cases hk : k = w.chain.asked
    · subst hk
      exact ⟨fun _ ↦ ⟨_, Function.update_self _ _ _⟩, fun _ ↦ Nat.lt_succ_self _⟩
    · simp only [asked_ask, Function.update_of_ne hk, Nat.lt_succ_iff_lt_or_eq, hk, or_false]
      exact h.asked k
  · intro adapter' referendumId' existing hexisting
    simp only [update_entry] at hexisting
    split at hexisting
    · next hsame =>
      obtain rfl := Option.some.inj hexisting
      obtain ⟨rfl, rfl⟩ := hsame
      exact ⟨_, Function.update_self _ _ _, rfl, rfl⟩
    · obtain ⟨o, ho, hadapter, hrequest⟩ := h.pending adapter' referendumId' existing hexisting
      exact ⟨o, (Function.update_of_ne (hne ho) _ _).trans ho, hadapter, hrequest⟩
  · intro k o ho hunsettled
    simp only [update_entry]
    rcases update_some_eq_some ho with ⟨rfl, rfl⟩ | ⟨_, hold⟩
    · rw [if_pos ⟨rfl, rfl⟩]
      rfl
    · have hentry := h.unsettled k o hold hunsettled
      rw [if_neg]
      · exact hentry
      · rintro ⟨hadapter, hreferendum⟩
        rw [hadapter, hreferendum, hnone] at hentry
        cases hentry
  · intro k o contractAddress frame ho hframe
    rcases update_some_eq_some ho with ⟨rfl, rfl⟩ | ⟨_, hold⟩
    · cases hframe
    · exact h.held k o contractAddress frame hold hframe

theorem Sound.castVote (h : Sound w) (adapter : A) (request : CastVoteRequest) :
    Sound (castVote w adapter request) := by
  cases hentry : w.pendingVotes adapter request.referendumId with
  | none => exact h.ask hentry
  | some existing =>
    simp only [CivicActions.castVote, hentry]
    split
    · exact sound_calls h _
    · exact sound_calls h _

/-- The entry of an operation that has settled is deleted. -/
theorem Sound.clean (h : Sound w) (ho : w.operations n = some o) (hsettled : o.progress.stage = .settled) :
    Sound (clean w n o) := by
  unfold CivicActions.clean
  split
  · next hentry =>
    refine ⟨h.ordered, h.asked, ?_, ?_, h.held, h.proofs⟩
    · intro adapter referendumId existing hexisting
      simp only [update_entry] at hexisting
      split at hexisting
      · cases hexisting
      · exact h.pending adapter referendumId existing hexisting
    · intro k o' ho' hunsettled
      have hown := h.unsettled k o' ho' hunsettled
      simp only [update_entry]
      rw [if_neg]
      · exact hown
      · rintro ⟨hadapter, hreferendum⟩
        rw [hadapter, hreferendum, hentry] at hown
        obtain rfl := Option.some.inj hown
        obtain rfl := Option.some.inj (ho.symm.trans ho')
        exact hunsettled hsettled
  · exact h

end Entries

/-! ## Every run -/

section Runs

variable [DecidableEq A] {referenda : A → JsString → Option JsString}
  {provider : PrivateStateProvider (ReferendumV2PrivateState M V S)}

theorem stepOption_of_step {e : Event A M V S} (h : step referenda w e = .ok w') :
    stepOption referenda w e = some w' := by
  unfold step at h
  split at h
  · next w₁ hw₁ =>
    obtain rfl := Except.ok.inj h
    exact hw₁
  · cases h

/-- What an accepted event does. -/
inductive Effect (w : World A M V S) : World A M V S → Prop where
  | called (adapter : A) (request : CastVoteRequest) : Effect w (castVote w adapter request)
  | begun (n : ℕ) (o : Operation A M V S) (contractAddress : JsString) (ho : w.operations n = some o)
      (hwaiting : o.progress.stage = .waiting) (hturn : w.chain.Turn w.stage n) :
    Effect w (w.setProgress n o (.running contractAddress .getActionAuthorization))
  | refused (n : ℕ) (o : Operation A M V S) (ho : w.operations n = some o)
      (hwaiting : o.progress.stage = .waiting) (hturn : w.chain.Turn w.stage n) : Effect w (w.settle n o)
  | answered (n : ℕ) (o : Operation A M V S) (contractAddress : JsString) (frame : Frame M V S)
      (reply : Reply M V S) (ho : w.operations n = some o) (hrunning : o.progress = .running contractAddress frame)
      (w' : World A M V S) (hanswer : answer w n o contractAddress frame reply = some w') : Effect w w'
  | cleaned (n : ℕ) (o : Operation A M V S) (ho : w.operations n = some o)
      (hsettled : o.progress.stage = .settled) : Effect w (clean w n o)

theorem effect_of_step {e : Event A M V S} (hok : step referenda w e = .ok w') : Effect w w' := by
  have hsome := stepOption_of_step hok
  cases e with
  | castVote adapter request =>
    obtain rfl := Option.some.inj hsome
    exact .called adapter request
  | begins n =>
    simp only [stepOption] at hsome
    split at hsome
    · next o ho =>
      split at hsome
      · next hwaiting =>
        split at hsome
        · next hturn =>
          have hstage : o.progress.stage = .waiting := by rw [hwaiting]; rfl
          split at hsome
          · next contractAddress _ =>
            obtain rfl := Option.some.inj hsome
            exact .begun n o contractAddress ho hstage hturn
          · obtain rfl := Option.some.inj hsome
            exact .refused n o ho hstage hturn
        · cases hsome
      · cases hsome
    · cases hsome
  | answer n reply =>
    simp only [stepOption] at hsome
    split at hsome
    · next o ho =>
      split at hsome
      · next contractAddress frame hrunning =>
        exact .answered n o contractAddress frame reply ho hrunning w' hsome
      · cases hsome
    · cases hsome
  | cleans n =>
    simp only [stepOption] at hsome
    split at hsome
    · next o ho =>
      split at hsome
      · next hsettled =>
        obtain rfl := Option.some.inj hsome
        exact .cleaned n o ho (by rw [hsettled]; rfl)
      · cases hsome
    · cases hsome

theorem sound_step (h : Sound w) {e : Event A M V S} (hok : step referenda w e = .ok w') : Sound w' := by
  cases effect_of_step hok with
  | called adapter request => exact h.castVote adapter request
  | begun n o contractAddress ho hwaiting hturn =>
    refine h.advance ho (Or.inr ⟨hwaiting, hturn⟩) (Or.inr rfl) (fun _ _ hframe ↦ ?_) h.proofs
    cases hframe
    trivial
  | refused n o ho hwaiting hturn => exact h.settle ho (Or.inr ⟨hwaiting, hturn⟩) (Or.inr rfl)
  | answered n o contractAddress frame reply ho hrunning w' hanswer =>
    have hstage : o.progress.stage = .running := by rw [hrunning]; rfl
    rcases answer_cases (h.held n o contractAddress frame ho hrunning) hanswer with
      ⟨frame', provider, proofs, rfl, hheld, hproofs⟩ | ⟨provider, rfl⟩
    · refine h.advance ho (Or.inl hstage) (Or.inl hstage) (fun _ _ hframe ↦ ?_) fun p hp ↦ ?_
      · cases hframe
        exact hheld
      · rcases hproofs p hp with hold | hnew
        · exact h.proofs p hold
        · exact hnew
    · exact h.settle ho (Or.inl hstage) (Or.inl hstage)
  | cleaned n o ho hsettled => exact h.clean ho hsettled

theorem sound_run (es : List (Event A M V S)) : Sound (run (step referenda) (start A M V S provider) es) :=
  run_history_unconditional (f := step referenda) (I := fun _ w ↦ Sound w) (fun _ _ _ _ hsound hok ↦ sound_step hsound hok)
    (sound_start provider) es

/-! ## Turns -/

/-- An operation that has settled stays so, and no operation is forgotten. -/
theorem step_grows (h : Sound w) {e : Event A M V S} (hok : step referenda w e = .ok w') :
    w.chain.asked ≤ w'.chain.asked ∧ ∀ m, w.stage m = .settled → w'.stage m = .settled := by
  have hother : ∀ {n : ℕ} {stage : Stage}, w.stage n ≠ .settled →
      ∀ m, w.stage m = .settled → Function.update w.stage n stage m = .settled := by
    intro n stage hnot m hm
    have hne : m ≠ n := by
      rintro rfl
      exact hnot hm
    rw [Function.update_of_ne hne]
    exact hm
  cases effect_of_step hok with
  | called adapter request =>
    unfold castVote
    split
    · split
      · exact ⟨Nat.le_refl _, fun _ hm ↦ hm⟩
      · exact ⟨Nat.le_refl _, fun _ hm ↦ hm⟩
    · refine ⟨Nat.le_succ _, fun m hm ↦ ?_⟩
      have hne : m ≠ w.chain.asked := by
        rintro rfl
        cases ho : w.operations w.chain.asked with
        | none =>
          simp only [World.stage, ho] at hm
          cases hm
        | some o => exact absurd ((h.asked _).mpr ⟨o, ho⟩) (Nat.lt_irrefl _)
      simp only [World.stage, Function.update_of_ne hne]
      exact hm
  | begun n o contractAddress ho hwaiting hturn =>
    refine ⟨Nat.le_refl _, ?_⟩
    rw [stage_setProgress]
    apply hother
    rw [stage_of_operation ho, hwaiting]
    exact nofun
  | refused n o ho hwaiting hturn =>
    refine ⟨Nat.le_refl _, ?_⟩
    have hstage : (w.settle n o).stage = Function.update w.stage n .settled := stage_settle w n o w.provider
    rw [hstage]
    apply hother
    rw [stage_of_operation ho, hwaiting]
    exact nofun
  | answered n o contractAddress frame reply ho hrunning w' hanswer =>
    have hnot : w.stage n ≠ .settled := by
      rw [stage_of_operation ho, hrunning]
      exact nofun
    rcases answer_cases (h.held n o contractAddress frame ho hrunning) hanswer with
      ⟨frame', provider, proofs, rfl, _, _⟩ | ⟨provider, rfl⟩
    · refine ⟨Nat.le_refl _, ?_⟩
      have hstage : World.stage { w.setProgress n o (.running contractAddress frame') with provider, proofs } =
          Function.update w.stage n .running := stage_setProgress w n o _
      rw [hstage]
      exact hother hnot
    · refine ⟨Nat.le_refl _, ?_⟩
      rw [stage_settle]
      exact hother hnot
  | cleaned n o ho hsettled =>
    unfold clean
    split
    · exact ⟨Nat.le_refl _, fun _ hm ↦ hm⟩
    · exact ⟨Nat.le_refl _, fun _ hm ↦ hm⟩

/-- An operation that waits begins when the operations before it have settled. -/
theorem begins_isOk (h : Sound w) {n : ℕ} (hn : n < w.chain.asked) (hwaiting : w.stage n = .waiting)
    (hbefore : SettledBefore w.stage n) : (step referenda w (.begins n)).isOk = true := by
  obtain ⟨o, ho⟩ := (h.asked n).mp hn
  have hturn := h.ordered.turn_of_settledBefore hn hbefore
  have hprogress : o.progress = .waiting := by
    rw [stage_of_operation ho] at hwaiting
    cases hcase : o.progress with
    | waiting => rfl
    | running contractAddress frame =>
      rw [hcase] at hwaiting
      cases hwaiting
    | settled =>
      rw [hcase] at hwaiting
      cases hwaiting
  simp only [step, stepOption, ho, hprogress, if_pos hturn]
  cases referenda o.adapter o.request.referendumId <;> rfl

theorem stage_of_begins {n : ℕ} (hok : step referenda w (.begins n) = .ok w') : w'.stage n ≠ .waiting := by
  have hsome := stepOption_of_step hok
  simp only [stepOption] at hsome
  split at hsome
  · next o ho =>
    split at hsome
    · split at hsome
      · split at hsome
        · obtain rfl := Option.some.inj hsome
          rw [stage_setProgress, Function.update_self]
          exact nofun
        · obtain rfl := Option.some.inj hsome
          have hstage : (w.settle n o).stage = Function.update w.stage n .settled := stage_settle w n o w.provider
          rw [hstage, Function.update_self]
          exact nofun
      · cases hsome
    · cases hsome
  · cases hsome

/-- A waiting operation gets its turn once those before it have settled. -/
theorem gets_turn (r : InfiniteRun (step referenda) (start A M V S provider)) {n : ℕ} (hfair : r.Fair (.begins n))
    (hasked : ∃ i, n < (r.state i).chain.asked) (hsettle : ∀ m < n, ∃ i, (r.state i).stage m = .settled) :
    ∃ i, (r.state i).stage n ≠ .waiting := by
  have hsound : ∀ i, Sound (r.state i) := by
    intro i
    rw [r.state_eq]
    exact sound_run _
  obtain ⟨i, hi⟩ := hasked
  obtain ⟨k, hk⟩ := r.stays_all (Q := fun m t ↦ Sound t ∧ t.stage m = .settled)
    (fun m t e t' ht hok ↦ ⟨sound_step ht.1 hok, (step_grows ht.1 hok).2 m ht.2⟩) n fun m hm ↦ by
      obtain ⟨j, hj⟩ := hsettle m hm
      exact ⟨j, hsound j, hj⟩
  -- From the later of both times on, the operation has asked and those before it have settled.
  refine hfair.eventually (k := max i k) (fun j hj hnot ↦ ?_) fun t t' hok ↦ stage_of_begins hok
  have hn := r.stays (P := fun t ↦ Sound t ∧ n < t.chain.asked)
    (fun t e t' ht hok ↦ ⟨sound_step ht.1 hok, ht.2.trans_le (step_grows ht.1 hok).1⟩)
    ((Nat.le_max_left i k).trans hj) ⟨hsound i, hi⟩
  have hbefore : SettledBefore (r.state j).stage n := by
    intro m hm
    have hsettled := r.stays (P := fun t ↦ Sound t ∧ t.stage m = .settled)
      (fun t e t' ht hok ↦ ⟨sound_step ht.1 hok, (step_grows ht.1 hok).2 m ht.2⟩)
      ((Nat.le_max_right i k).trans hj) (hk m hm)
    exact hsettled.2
  exact begins_isOk hn.1 hn.2 (not_not.mp hnot) hbefore

/-- A call of an adapter that has an unsettled operation for the referendum awaits that operation if the choice
and the handle are the same. Otherwise it is in conflict and has no effect. -/
def Shares (w : World A M V S) : Prop :=
  ∀ n o, w.operations n = some o → o.progress.stage ≠ .settled →
    ∀ request, request.referendumId = o.request.referendumId →
      castVote w o.adapter request = { w with
        calls := w.calls ++ [(o.adapter, request, if request = o.request then .operation n else .conflict)] }

theorem Sound.shares (h : Sound w) : Shares w := by
  intro n o ho hunsettled request hreferendum
  obtain ⟨existing, hexisting, rfl⟩ := Option.map_eq_some_iff.mp (h.unsettled n o ho hunsettled)
  obtain ⟨o', ho', _, hrequest⟩ := h.pending o.adapter o.request.referendumId existing hexisting
  obtain rfl := Option.some.inj (ho.symm.trans ho')
  simp only [CivicActions.castVote, hreferendum, hexisting]
  by_cases hsame : request = o.request
  · have hboth : ¬(existing.choice ≠ request.choice ∨
        existing.authorizationHandle ≠ request.authorizationHandle) := by
      rw [hsame, hrequest]
      simp
    rw [if_neg hboth, if_pos hsame]
  · have hdiffers : existing.choice ≠ request.choice ∨
        existing.authorizationHandle ≠ request.authorizationHandle := by
      by_contra hnot
      rw [not_or, not_not, not_not] at hnot
      apply hsame
      obtain ⟨referendumId, choice, handle⟩ := request
      simp only at hnot hreferendum
      rw [hrequest, hnot.1, hnot.2, hreferendum, hrequest]
    rw [if_pos hdiffers, if_neg hsame]

/-- The votes of any adapters with one provider run one at a time, with the states of their own joins. The calls
of each adapter share their operation or are in conflict, and every operation gets its turn. -/
theorem votes_one_at_a_time (referenda : A → JsString → Option JsString)
    (provider : PrivateStateProvider (ReferendumV2PrivateState M V S)) :
    (∀ es, Apart (run (step referenda) (start A M V S provider) es) ∧
      Shares (run (step referenda) (start A M V S provider) es)) ∧
    ∀ (r : InfiniteRun (step referenda) (start A M V S provider)) (n : ℕ), r.Fair (.begins n) →
      (∃ i, n < (r.state i).chain.asked) → (∀ m < n, ∃ i, (r.state i).stage m = .settled) →
        ∃ i, (r.state i).stage n ≠ .waiting :=
  ⟨fun es ↦ ⟨(sound_run es).apart, (sound_run es).shares⟩,
    fun r _ hfair hasked hsettle ↦ gets_turn r hfair hasked hsettle⟩

end Runs

/-! ## Two adapters -/

def sampleProvider : PrivateStateProvider (ReferendumV2PrivateState Unit Unit ℕ) := ⟨js "unbound", fun _ ↦ none⟩

/-- Both adapters know one referendum. -/
def sampleReferenda (_ : Bool) (referendumId : JsString) : Option JsString :=
  if referendumId = js "referendum" then some (js "contract") else none

def sampleRequest (choice : Choice) : CastVoteRequest := ⟨js "referendum", choice, js "handle"⟩

def sampleStart : World Bool Unit Unit ℕ := start Bool Unit Unit ℕ sampleProvider

/-- The body of an operation with its salt. -/
def body (n salt : ℕ) : List (Event Bool Unit Unit ℕ) :=
  [.begins n, .answer n (.authorization (some (js "handle"))), .answer n (.material (some ())),
    .answer n .succeeds, .answer n (.path () salt), .answer n .succeeds, .answer n .succeeds,
    .answer n .succeeds, .answer n .succeeds]

def firstVote : List (Event Bool Unit Unit ℕ) := [.castVote false (sampleRequest .yes)]

/-- Both adapters vote. The second operation cannot begin before the first has settled. -/
def bothVotes : List (Event Bool Unit Unit ℕ) :=
  firstVote ++ [.castVote true (sampleRequest .no), .begins 1] ++ body 0 7 ++ body 1 8

example : (run (step sampleReferenda) sampleStart bothVotes).proofs.map
    (fun p ↦ (p.operation, p.proved.map fun s ↦ (s.voterChoice, s.voteSalt))) =
      [(0, some (.yes, 7)), (1, some (.no, 8))] := by
  decide +kernel

/-- Both votes and then the start of the second operation again and again. -/
def patientRun : InfiniteRun (step sampleReferenda) sampleStart :=
  .ofInputs _ _ fun k ↦ bothVotes.getD k (.begins 1)

theorem patientRun_fair : patientRun.Fair (.begins 1) := by
  apply patientRun.fair_of_recurs
  intro k
  refine ⟨max k bothVotes.length, Nat.le_max_left _ _, ?_⟩
  have hafter : bothVotes[max k bothVotes.length]? = none := List.getElem?_eq_none (Nat.le_max_right _ _)
  change bothVotes.getD (max k bothVotes.length) (.begins 1) = .begins 1
  rw [List.getD_eq_getElem?_getD, hafter, Option.getD_none]

theorem votes_one_at_a_time_patientRun :
    patientRun.Fair (.begins 1) ∧ (∃ i, 1 < (patientRun.state i).chain.asked) ∧
    (∀ m < 1, ∃ i, (patientRun.state i).stage m = .settled) ∧ ∃ i, (patientRun.state i).stage 1 ≠ .waiting := by
  have hasked : ∃ i, 1 < (patientRun.state i).chain.asked := ⟨2, by decide +kernel⟩
  have hsettled : ∀ m < 1, ∃ i, (patientRun.state i).stage m = .settled := by
    intro m hm
    obtain rfl := Nat.lt_one_iff.mp hm
    exact ⟨12, by decide +kernel⟩
  exact ⟨patientRun_fair, hasked, hsettled,
    (votes_one_at_a_time sampleReferenda sampleProvider).2 patientRun 1 patientRun_fair hasked hsettled⟩

/-- The second adapter does not see the pending vote of the first, so its call is not in conflict. -/
theorem adapters_do_not_conflict :
    ¬∀ n o, (run (step sampleReferenda) sampleStart firstVote).operations n = some o →
      o.progress.stage ≠ .settled → ∀ adapter request, request.referendumId = o.request.referendumId →
        request ≠ o.request →
          (castVote (run (step sampleReferenda) sampleStart firstVote) adapter request).calls.getLast? =
            some (adapter, request, .conflict) := by
  intro h
  have hconflict := h 0 ⟨false, sampleRequest .yes, .waiting⟩ rfl nofun true (sampleRequest .no) rfl (by decide)
  cases hconflict

end MidnightReferendum.Passport.CivicActions
